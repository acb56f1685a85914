import SignedFacts.Proofs.Network.Basic

/-!
# What holds throughout a run

The invariant of a run is `Sound`: engines hold genuine records, messages list
genuine records, and every id has been inserted when a document was handed in.  One
event keeps it (`Sound.step`) and loses nothing (`Sound.grows_step`).  Both carry
over to runs.
-/

namespace SignedFacts.Network

universe u

variable {ι : Type u} {known : RecordId → Prop} {network : Network ι}

/-- Engines hold genuine records, and messages list genuine records. -/
structure Sound (known : RecordId → Prop) (network : Network ι) : Prop where
  engines : ∀ place, (network.engines place).Holds known
  messages : ∀ body ∈ network.messages, ∃ records,
    body = Utf8.octets (Response.ofRecords records) ∧ ∀ record ∈ records, record.Genuine known

theorem Sound.mono {more : RecordId → Prop} (sound : Sound known network)
    (wider : ∀ id, known id → more id) : Sound more network := by
  refine ⟨fun place => (sound.engines place).mono wider, fun body member => ?_⟩
  obtain ⟨records, listed, genuine⟩ := sound.messages body member
  exact ⟨records, listed, fun record among => (genuine record among).mono wider⟩

theorem sound_start (settings : ι → Settings) : Sound known (start settings) :=
  ⟨fun place => Engine.holds_new (settings place), nofun⟩

/-- Every entry of a store is in the same store later, and every message is there
with the same number. -/
structure Grows (network later : Network ι) : Prop where
  stores : ∀ place, (network.store place).Grows (later.store place)
  messages : network.messages <+: later.messages

theorem Grows.refl (network : Network ι) : network.Grows network :=
  ⟨fun place => .refl (network.store place), List.prefix_refl _⟩

theorem Grows.trans {first second third : Network ι} (earlier : first.Grows second)
    (later : second.Grows third) : first.Grows third :=
  ⟨fun place => (earlier.stores place).trans (later.stores place),
    earlier.messages.trans later.messages⟩

theorem Grows.getElem?_messages {later : Network ι} {message : Nat} {body : List UInt8}
    (grows : network.Grows later) (found : network.messages[message]? = some body) :
    later.messages[message]? = some body := by
  obtain ⟨within, rfl⟩ := List.getElem?_eq_some_iff.1 found
  exact List.prefix_iff_getElem?.1 grows.messages message within

variable [DecidableEq ι] {event : Event ι} {events : List (Event ι)}

/-- An event inserts a document that is handed in. -/
def Inserts (event : Event ι) (network : Network ι) (id : RecordId) : Prop :=
  ∃ place document, event = .ingest place document
    ∧ ((network.engines place).ingest document).1 = .ok ⟨id, .inserted⟩

/-! ## One event -/

section Change

variable {place : ι} {action : Engine → Engine}

theorem Sound.change (sound : Sound known network)
    (holds : (action (network.engines place)).Holds known) :
    Sound known (network.change place action) := by
  refine ⟨fun other => ?_, sound.messages⟩
  by_cases same : other = place
  · rwa [same, engines_change]
  · rw [engines_change_of_ne same]
    exact sound.engines other

theorem grows_change
    (grows : (network.store place).Grows (action (network.engines place)).store) :
    network.Grows (network.change place action) := by
  refine ⟨fun other => ?_, List.prefix_refl _⟩
  by_cases same : other = place
  · rwa [same, store, store, engines_change]
  · rw [store, store, engines_change_of_ne same]
    exact .refl (network.engines other).store

end Change

theorem Sound.step (sound : Sound known network) (allowed : network.Allows event) :
    Sound (fun id => known id ∨ network.Inserts event id) (network.step event) := by
  have kept : Sound (fun id => known id ∨ network.Inserts event id) network :=
    sound.mono fun _ => .inl
  cases event with
  | ingest place document =>
      refine kept.change (((sound.engines place).ingest allowed).mono fun id => ?_)
      exact Or.imp_right fun inserted => ⟨place, document, rfl, inserted⟩
  | capture place =>
      refine ⟨kept.engines, fun body member => ?_⟩
      rcases List.mem_append.1 member with before | new
      · exact kept.messages body before
      · exact ⟨_, List.mem_singleton.1 new, (kept.engines place).genuine_served⟩
  | deliver message place url =>
      -- However old the message is, its records are genuine by the invariant.
      obtain ⟨body, found, allows⟩ := allowed
      obtain ⟨records, rfl, genuine⟩ := kept.messages body (List.mem_of_getElem? found)
      simp only [Network.step, found]
      exact kept.change ((kept.engines place).receive allows genuine)

/-- An event takes nothing away. -/
theorem Sound.grows_step (sound : Sound known network) (allowed : network.Allows event) :
    network.Grows (network.step event) := by
  cases event with
  | ingest place document =>
      exact grows_change (Engine.grows_ingest (sound.engines place).usable document)
  | capture place => exact ⟨fun _ => .refl _, List.prefix_append _ _⟩
  | deliver message place url =>
      obtain ⟨body, found, allows⟩ := allowed
      simp only [Network.step, found]
      exact grows_change (Engine.grows_receive (sound.engines place).usable allows)

/-- Where a document is inserted its id is held. -/
theorem Sound.find?_step_ingest (sound : Sound known network) {place : ι} {document : List UInt8}
    {id : RecordId}
    (inserted : ((network.engines place).ingest document).1 = .ok ⟨id, .inserted⟩) :
    ∃ entry, ((network.step (.ingest place document)).store place).find? id = some entry := by
  rw [Network.step, store, engines_change]
  exact Engine.find?_of_inserted (sound.engines place).usable inserted

/-- Where a list of genuine records is delivered their ids are held. -/
theorem Sound.find?_step_deliver (sound : Sound known network) {message : Nat} {place : ι}
    {url : String} {records : List Record} {record : Record}
    (allowed : network.Allows (.deliver message place url))
    (found : network.messages[message]? = some (Utf8.octets (Response.ofRecords records)))
    (genuine : ∀ record ∈ records, record.Genuine known) (member : record ∈ records) :
    ∃ entry, ((network.step (.deliver message place url)).store place).find? record.id
      = some entry := by
  obtain ⟨body, same, allows⟩ := allowed
  obtain rfl := Option.some.inj (found.symm.trans same)
  simp only [Network.step, found, store, engines_change]
  exact Engine.find?_receive allows genuine (sound.engines place) member

/-! ## Runs -/

theorem InsertedAt.cons {place : ι} {id : RecordId}
    (inserted : (network.step event).InsertedAt place events id) :
    network.InsertedAt place (event :: events) id := by
  obtain ⟨before, document, after, rfl, result⟩ := inserted
  exact ⟨event :: before, document, after, rfl, result⟩

/-- A run keeps the invariant. -/
theorem Sound.run (sound : Sound known network) (allowed : network.AllowsAll events) :
    Sound (fun id => known id ∨ ∃ place, network.InsertedAt place events id)
      (network.run events) := by
  induction events generalizing known network with
  | nil => exact sound.mono fun _ => .inl
  | cons event events induction =>
      refine (induction (sound.step allowed.1) allowed.2).mono fun id => ?_
      rintro ((before | ⟨place, document, rfl, result⟩) | ⟨place, inserted⟩)
      · exact .inl before
      · exact .inr ⟨place, [], document, events, rfl, result⟩
      · exact .inr ⟨place, inserted.cons⟩

/-- A run takes nothing away. -/
theorem Sound.grows_run (sound : Sound known network) (allowed : network.AllowsAll events) :
    network.Grows (network.run events) := by
  induction events generalizing known network with
  | nil => exact .refl network
  | cons event events induction =>
      exact (sound.grows_step allowed.1).trans (induction (sound.step allowed.1) allowed.2)

end SignedFacts.Network
