import SignedFacts.Proofs.Network.Soundness
import SignedFacts.Store.Digest

/-!
# Convergence

What has been inserted at one place is held at every place that is informed from
there (`Sound.find?_of_informs`), and nothing is held that has not been inserted.  So
when everyone is informed from everywhere, all stores hold the same ids
(`run_converges`).  Messages may be late, repeated or out of order.
-/

namespace SignedFacts.Network

open Engine (signedRecord check_signedRecord parse_signedRecord length_signedRecord)

universe u

variable {ι : Type u} [DecidableEq ι] {known : RecordId → Prop} {network : Network ι}
  {events : List (Event ι)} {place other : ι} {id : RecordId}

/-! ## From one place to another -/

/-- What is inserted at a place during a run is held there at the end. -/
theorem Sound.find?_of_insertedAt (sound : Sound known network)
    (allowed : network.AllowsAll events) (inserted : network.InsertedAt place events id) :
    ∃ entry, ((network.run events).store place).find? id = some entry := by
  obtain ⟨before, document, after, rfl, result⟩ := inserted
  obtain ⟨allowedBefore, now, allowedAfter⟩ := allowsAll_append.1 allowed
  have sending := sound.run allowedBefore
  obtain ⟨entry, held⟩ := sending.find?_step_ingest result
  have grows := (sending.step now).grows_run allowedAfter
  rw [run_append, Network.run]
  exact ⟨entry, grows.stores place id entry held⟩

/-- What is inserted at a place where nothing is handed in after some event has been
inserted before this event. -/
theorem InsertedAt.before {before after : List (Event ι)} {event : Event ι}
    (inserted : network.InsertedAt place (before ++ event :: after) id)
    (other : ∀ document, event ≠ .ingest place document)
    (last : ∀ document, .ingest place document ∉ after) : network.InsertedAt place before id := by
  obtain ⟨earlier, document, later, same, result⟩ := inserted
  rcases List.append_eq_append_iff.1 same with ⟨between, rfl, behind⟩ | ⟨between, rfl, behind⟩
  · cases between with
    | nil => exact absurd (List.cons.inj behind).1 (other document)
    | cons first between =>
        refine absurd ?_ (last document)
        rw [(List.cons.inj behind).2]
        exact List.mem_append_right _ (.head _)
  · cases between with
    | nil => exact absurd (List.cons.inj behind).1.symm (other document)
    | cons first between =>
        obtain rfl := (List.cons.inj behind).1
        exact ⟨earlier, document, between, rfl, result⟩

/-- What is inserted at one place is held at the end at another one that is informed
from there. -/
theorem Sound.find?_of_informs (sound : Sound known network) (allowed : network.AllowsAll events)
    (informs : network.Informs place other events)
    (inserted : network.InsertedAt place events id) :
    ∃ entry, ((network.run events).store other).find? id = some entry := by
  obtain ⟨before, after, url, rfl, last, delivered⟩ := informs
  have early := inserted.before nofun last
  obtain ⟨between, rest, rfl⟩ := List.append_of_mem delivered
  obtain ⟨allowedBefore, allowedCapture, allowed⟩ := allowsAll_append.1 allowed
  obtain ⟨allowedBetween, allowedDelivery, allowedRest⟩ := allowsAll_append.1 allowed
  -- The id is held where the message is captured, so its record is listed there.
  have sending := sound.run allowedBefore
  obtain ⟨entry, held⟩ := sound.find?_of_insertedAt allowedBefore early
  obtain ⟨rfl, _⟩ := (sending.engines place).held id entry held
  have served := Engine.mem_served_iff.2 ⟨_, entry, held, rfl⟩
  have genuine := (sending.engines place).genuine_served
  -- The message is still there when it is delivered.
  have captured := sending.step allowedCapture
  have receiving := captured.run allowedBetween
  have found := (captured.grows_run allowedBetween).getElem?_messages
    List.getElem?_concat_length
  obtain ⟨received, arrives⟩ := receiving.find?_step_deliver allowedDelivery found
    (fun record member => (genuine record member).mono fun _ known => .inl (.inl known)) served
  have grows := (receiving.step allowedDelivery).grows_run allowedRest
  rw [run_append, Network.run, run_append, Network.run]
  exact ⟨received, grows.stores other _ received arrives⟩

/-! ## Everywhere -/

/-- In a run of a network nothing is held that has not been inserted somewhere, no
entry is lost or changed, and if every place is informed from every other one, all
hold the same ids. -/
theorem run_converges (settings : ι → Settings) (events : List (Event ι))
    (allowed : (start settings).AllowsAll events) :
    (∀ place, ∀ id ∈ (((start settings).run events).store place).ids,
        ∃ source, (start settings).InsertedAt source events id)
      ∧ (∀ before after, events = before ++ after → ∀ place id entry,
        (((start settings).run before).store place).find? id = some entry →
          (((start settings).run events).store place).find? id = some entry)
      ∧ ((∀ place other, place ≠ other → (start settings).Informs place other events) →
        ∀ place other,
          (((start settings).run events).store place).ids
              = (((start settings).run events).store other).ids
            ∧ (((start settings).run events).store place).digest
              = (((start settings).run events).store other).digest
            ∧ (((start settings).run events).store place).compareDigest
                (((start settings).run events).store other).digest = .converged) := by
  have new : Sound (fun _ => False) (start settings) := sound_start settings
  have origin : ∀ place, ∀ id ∈ (((start settings).run events).store place).ids,
      ∃ source, (start settings).InsertedAt source events id := by
    intro place id member
    obtain ⟨entry, held⟩ := Store.mem_ids_iff.1 member
    obtain ⟨rfl, genuine⟩ := ((new.run allowed).engines place).held id entry held
    exact genuine.known.resolve_left not_false
  refine ⟨origin, ?_, fun informed => ?_⟩
  · rintro before after rfl place id entry held
    obtain ⟨allowedBefore, allowedAfter⟩ := allowsAll_append.1 allowed
    rw [run_append]
    exact ((new.run allowedBefore).grows_run allowedAfter).stores place id entry held
  · -- An id that is held anywhere was inserted somewhere, and everyone is informed from there.
    have subset (place other : ι) : (((start settings).run events).store place).ids
        ⊆ (((start settings).run events).store other).ids := by
      intro id member
      obtain ⟨source, inserted⟩ := origin place id member
      by_cases same : source = other
      · exact Store.mem_ids_iff.2 (same ▸ new.find?_of_insertedAt allowed inserted)
      · exact Store.mem_ids_iff.2
          (new.find?_of_informs allowed (informed source other same) inserted)
    intro place other
    have ids := Store.ids_eq_of_mem_iff fun _ => ⟨@subset place other _, @subset other place _⟩
    have digest : (((start settings).run events).store place).digest
        = (((start settings).run events).store other).digest := congrArg Digest.ofIds ids
    exact ⟨ids, digest, if_pos digest⟩

/-! ## Two engines -/

/-- Two engines exchange what they hold after a document has been handed in at one
of them. -/
def exchange (document : List UInt8) : List (Event Bool) :=
  [.capture false, .ingest true document, .capture true, .deliver 0 true "u", .deliver 1 false "u"]

/-- The two engines after the exchange. -/
def exchanged (document : List UInt8) : Network Bool :=
  (start fun _ => {}).run (exchange document)

theorem allowsAll_exchange {document : List UInt8} {record : Record}
    (plain : Record.WithoutReserved document) (parsed : Record.parse document = .ok record)
    (valid : record.check Ed25519.verify = .valid)
    (small : (Utf8.octets (Response.ofRecords [record])).length ≤ 4 * 1024 * 1024) :
    (start fun _ => {}).AllowsAll (exchange document) := by
  have served : ((Engine.new {}).ingest document).2.exportRecords = Response.ofRecords [record] :=
    Engine.exportRecords_ingest rfl rfl parsed valid
  have limits := (Engine.sameSetup_ingest (.new {}) document).settings
  refine ⟨trivial, plain, trivial, ⟨_, rfl, ?_⟩, ⟨_, rfl, ?_⟩, trivial⟩
  · show ((Engine.new {}).ingest document).2.Allows "u" (Utf8.octets (Response.ofRecords []))
    refine Engine.allows_ofRecords (by decide) ?_ ?_ <;> rw [limits] <;> decide
  · show (Engine.new {}).Allows "u"
      (Utf8.octets ((Engine.new {}).ingest document).2.exportRecords)
    rw [served]
    exact Engine.allows_ofRecords (by decide) small (show 1 ≤ 10000 by decide)

/-- The first two events of an exchange take in the document. -/
theorem store_exchange (document : List UInt8) :
    ((start fun _ => {}).run ((exchange document).take 2)).store true
      = ((Engine.new {}).ingest document).2.store := rfl

theorem informs_exchange (document : List UInt8) (place other : Bool) (apart : place ≠ other) :
    (start fun _ => {}).Informs place other (exchange document) := by
  cases place with
  | false =>
      obtain rfl : other = true := by simpa using apart.symm
      exact ⟨[], _, "u", rfl, by simp, .tail _ (.tail _ (.head _))⟩
  | true =>
      obtain rfl : other = false := by simpa using apart.symm
      exact ⟨(exchange document).take 2, _, "u", rfl, by simp, .tail _ (.head _)⟩

theorem withoutReserved_signedRecord :
    Record.WithoutReserved (Utf8.octets signedRecord.chars) :=
  Record.avoidsReserved_of_spells (Value.padded signedRecord.toValue.spells_chars) (by decide)

/-- After the exchange of a signed record both engines hold it. -/
theorem run_converges_exchange :
    signedRecord.id ∈ ((exchanged (Utf8.octets signedRecord.chars)).store false).ids
      ∧ ∀ place other, ((exchanged (Utf8.octets signedRecord.chars)).store place).compareDigest
        ((exchanged (Utf8.octets signedRecord.chars)).store other).digest = .converged := by
  obtain ⟨_, keeps, converges⟩ := run_converges _ _ (allowsAll_exchange withoutReserved_signedRecord
    parse_signedRecord check_signedRecord length_signedRecord)
  have agree := converges (informs_exchange _)
  refine ⟨?_, fun place other => (agree place other).2.2⟩
  have held := @Engine.find?_ingest_signedRecord (.new {}) rfl rfl rfl
  rw [← store_exchange] at held
  rw [exchanged, (agree false true).1, Store.mem_ids_iff]
  exact ⟨_, keeps _ _ (List.take_append_drop 2 _).symm true _ _ held⟩

end SignedFacts.Network
