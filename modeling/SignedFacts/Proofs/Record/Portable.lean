import SignedFacts.Proofs.Record.RoundTrip

/-!
# Records that can be passed on

A record is passed on as its canonical text.  If the document that it was read
from has no reserved keys, this text is read as the record again
(`parse_chars_of_parse`).
-/

namespace SignedFacts.Record

/-- The tree that a document spells, if it spells one, has no reserved keys. -/
def WithoutReserved (document : List UInt8) : Prop :=
  ∀ text json, document = Utf8.octets text → Json.SpellsPadded text json → json.AvoidsReserved

/-- It is enough to look at the tree that a reader gives. -/
theorem withoutReserved_of_readGuarded {text : List Char}
    (plain : (Json.readGuarded text).toOption.any fun json => json.AvoidsReserved) :
    WithoutReserved (Utf8.octets text) := by
  obtain ⟨json, read, avoids⟩ := (Option.any_eq_true _ _).1 plain
  exact avoidsReserved_of_spells (Json.spells_of_found read).1 (of_decide_eq_true avoids)

theorem keysPlain_of_parse {document : List UInt8} {record : Record}
    (plain : WithoutReserved document) (parsed : parse document = .ok record) :
    record.payload.toValue.toJson.Everywhere (fun _ node => node.KeysPlain) 2 := by
  obtain ⟨text, guarded, json, rfl, first, second, read⟩ := parse_eq_ok_iff.1 parsed
  have keys := plain text guarded rfl (Json.readGuarded_eq_ok_iff.1 first).1
  obtain rfl := Except.ok.inj ((Json.readPlain_of_readGuarded first keys).symm.trans second)
  cases guarded with
  | object members =>
      obtain ⟨payload, _, _, _, fields, converted, _⟩ := ofJson_object_eq_ok_iff.1 read
      have below := (Json.everywhere_object.1 keys).2 _ (Sorted.mem_collect fields.payload)
      exact Value.everywhere_keysPlain_of_ofJson converted below
  | _ => cases read

/-- The canonical text of a record that has come from a document without reserved
keys is read as the record. -/
theorem parse_chars_of_parse {document : List UInt8} {record : Record}
    (plain : WithoutReserved document) (parsed : parse document = .ok record) :
    parse (Utf8.octets record.chars) = .ok record := by
  obtain ⟨filled, within⟩ := sound_of_parse parsed
  refine parse_chars filled within ?_
  exact (keysPlain_of_parse plain parsed).mono fun _ _ => Json.frontPlain_of_keysPlain

end SignedFacts.Record
