import SignedFacts.Proofs.Json.Gap
import SignedFacts.Proofs.Json.Weight
import SignedFacts.Proofs.Number.Growth
import SignedFacts.Proofs.Record.Portable

/-!
# How much a payload grows

The canonical text of a value is no longer than a text that the value is read from, unless
numbers with an exponent are in it.  Each of them grows by the limit at most, and by two
signs that the limit leaves out: the minus sign of the number and the sign that its exponent
may get.  `Value.width_chars_le` says so of values and trees, and
`Record.signedMessage_growth` of the payload of a record and its text in the document.
-/

namespace SignedFacts

open Utf8 (width)

/-! ## Numbers -/

theorem Decimal.width_chars (x : Decimal) : width x.chars = x.chars.length := by
  have spelled := Numeral.spells_chars x.wellFormed_numeral
  rw [x.chars_numeral] at spelled
  rw [width, Utf8.octets_of_small fun c member => (Numeral.visible_of_spells spelled c member).2,
    List.length_map]

/-! ## Values -/

namespace Value

/-- The growth of a number with an exponent. -/
def scaledGrowth : Nat := 1026

theorem width_itemsChars (items : List Value) :
    width (itemsChars items)
      = 1 + items.length + (items.map fun item => width item.chars).sum := by
  induction items with
  | nil => decide
  | cons item rest induction =>
      simp (disch := decide) only [itemsChars, List.cons_append, Utf8.width_cons,
        Utf8.width_append, Utf8.length_charOctets_of_small, induction, List.map_cons,
        List.sum_cons, List.length_cons]
      omega

theorem width_sequence (items : List Value) :
    width (sequence items).chars
      = 1 + max 1 items.length + (items.map fun item => width item.chars).sum := by
  cases items with
  | nil => decide
  | cons item rest =>
      simp (disch := decide) only [chars, List.cons_append, Utf8.width_cons, Utf8.width_append,
        Utf8.length_charOctets_of_small, width_itemsChars, List.map_cons, List.sum_cons,
        List.length_cons]
      omega

theorem width_membersChars (members : List (String × Value)) :
    width (membersChars members)
      = 1 + members.length + (members.map fun member => width (Text.quoted member.1) + 1).sum
        + (members.map fun member => width member.2.chars).sum := by
  induction members with
  | nil => decide
  | cons member rest induction =>
      simp (disch := decide) only [membersChars, List.cons_append, Utf8.width_cons,
        Utf8.width_append, Utf8.length_charOctets_of_small, induction, List.map_cons,
        List.sum_cons, List.length_cons]
      omega

theorem width_mapping (members : List (String × Value)) :
    width (mapping members).chars
      = 1 + max 1 members.length + (members.map fun member => width (Text.quoted member.1) + 1).sum
        + (members.map fun member => width member.2.chars).sum := by
  cases members with
  | nil => decide
  | cons member rest =>
      simp (disch := decide) only [chars, List.cons_append, Utf8.width_cons, Utf8.width_append,
        Utf8.length_charOctets_of_small, width_membersChars, List.map_cons, List.sum_cons,
        List.length_cons]
      omega

/-- What a tree may take when it is written canonically, besides what the trees in it take. -/
def allowance (node : Json) : Nat :=
  node.ownOctets + scaledGrowth * if node.isScaled then 1 else 0

theorem width_chars_number_le {n : Numeral} {x : Decimal} (formed : n.WellFormed)
    (read : Decimal.ofNumeral n = .ok x) : width x.chars ≤ allowance (.number n) := by
  have plain := x.width_chars
  cases present : n.exponent with
  | none =>
      have short := Decimal.length_chars_le_of_plain formed present read
      simp only [allowance, Json.ownOctets, Json.isScaled, present, Option.toList_none,
        List.length_nil]
      omega
  | some e =>
      have short := Decimal.length_chars_le formed read
      have limit : Decimal.growthLimit = 1024 := rfl
      have growth : scaledGrowth = 1026 := rfl
      simp only [allowance, Json.ownOctets, Json.isScaled, present, Option.toList_some,
        List.length_singleton, Option.isSome_some, if_true]
      omega

/-- The octets of the value of a tree, if it has one. -/
def resultOctets : Except OfJsonError Value → Nat
  | .ok value => width value.chars
  | .error _ => 0

@[simp] theorem resultOctets_ok (value : Value) :
    resultOctets (.ok value) = width value.chars := rfl

theorem resultOctets_le {result : Except OfJsonError Value} {bound : Nat}
    (each : ∀ value, result = .ok value → width value.chars ≤ bound) :
    resultOctets result ≤ bound := by
  cases result with
  | error => exact Nat.zero_le _
  | ok value => exact each value rfl

theorem resultOctets_within {limit depth : Nat} {error : OfJsonError} {value : Value} :
    resultOctets (if limit < depth then .error error else .ok value) ≤ width value.chars := by
  split
  next => exact Nat.zero_le _
  next => exact Nat.le_refl _

/-- A value is written canonically in what its tree allows. -/
theorem resultOctets_ofJson_le {limit depth : Nat} {json : Json}
    (distinct : json.Everywhere (fun _ node => node.KeysDistinct) depth)
    (formed : json.Everywhere (fun _ node => ∀ n, node = .number n → n.WellFormed) depth) :
    resultOctets (ofJson .last limit depth json) ≤ json.weigh allowance := by
  induction json using Json.induct generalizing depth with
  | null =>
      rw [ofJson, Json.weigh_of_scalar rfl]
      exact resultOctets_within.trans (by decide)
  | bool value =>
      rw [ofJson, Json.weigh_of_scalar rfl]
      exact resultOctets_within.trans (by cases value <;> decide)
  | string text =>
      rw [ofJson, Json.weigh_of_scalar rfl]
      exact resultOctets_within.trans (Nat.le_add_right _ _)
  | number n =>
      refine resultOctets_le fun value converted => ?_
      obtain ⟨_, x, rfl, read⟩ := ofJson_number_eq_ok_iff.1 converted
      rw [Json.weigh_of_scalar rfl]
      exact width_chars_number_le (formed.root n rfl) read
  | array items induction =>
      have distinct := (Json.everywhere_array.1 distinct).2
      have formed := (Json.everywhere_array.1 formed).2
      refine resultOctets_le fun value converted => ?_
      obtain ⟨_, values, rfl, same⟩ := ofJson_array_eq_ok_iff.1 converted
      have length := congrArg List.length same
      have octets := congrArg (fun results => (results.map resultOctets).sum) same
      have inside : (items.map fun item => resultOctets (ofJson .last limit (depth + 1) item)).sum
          ≤ (items.map (Json.weigh allowance)).sum :=
        List.sum_le_sum fun item member =>
          induction item member (distinct item member) (formed item member)
      simp only [List.map_map, Function.comp_def, List.length_map, resultOctets_ok] at length octets
      rw [width_sequence, Json.weigh_array, allowance, Json.ownOctets]
      omega
  | object members induction =>
      obtain ⟨keys, distinct⟩ := Json.everywhere_object.1 distinct
      have formed := (Json.everywhere_object.1 formed).2
      refine resultOctets_le fun value converted => ?_
      obtain ⟨_, entries, rfl, same⟩ := ofJson_object_eq_ok_iff.1 converted
      -- The entries are the results in another order, which no sum notices.
      have results := collect_results_perm (ofJson .last limit (depth + 1)) keys
      rw [same] at results
      have length := results.length_eq
      have names := (results.map fun result => width (Text.quoted result.1) + 1).sum_nat
      have octets := (results.map fun result => resultOctets result.2).sum_nat
      have inside : (members.map fun member =>
            resultOctets (ofJson .last limit (depth + 1) member.2)).sum
          ≤ (members.map fun member => member.2.weigh allowance).sum :=
        List.sum_le_sum fun member among =>
          induction member among (distinct member among) (formed member among)
      simp only [List.map_map, Function.comp_def, List.length_map, resultOctets_ok]
        at length names octets
      rw [width_mapping, Json.weigh_object, allowance, Json.ownOctets]
      omega

/-- A value is written canonically in no more octets than a text that it is read from has, and
1026 more for each number with an exponent. -/
theorem width_chars_le {limit depth : Nat} {text : List Char} {json : Json} {value : Value}
    (spelled : Json.Spells text json)
    (distinct : json.Everywhere (fun _ node => node.KeysDistinct) depth)
    (converted : ofJson .last limit depth json = .ok value) :
    width value.chars ≤ width text + scaledGrowth * json.exponents := by
  have formed : json.Everywhere (fun _ node => ∀ n, node = .number n → n.WellFormed) depth :=
    (Json.number_of_spellsPadded (padded spelled) (Nat.le_refl _)).mono
      fun _ _ number n same => (number n same).1
  have allowed := @resultOctets_ofJson_le limit _ _ distinct formed
  have least := Json.weigh_ownOctets_le spelled
  rw [converted] at allowed
  have split : json.weigh allowance
      = json.weigh Json.ownOctets + scaledGrowth * json.exponents := by
    rw [Json.exponents_eq_weigh]
    exact Json.weigh_add_mul _ _ _ json
  exact allowed.trans (split ▸ Nat.add_le_add_right least _)

end Value

/-! ## Payloads -/

namespace Record

/-- In a document without reserved keys the payload has one text, and the canonical payload is
no longer than it, apart from the growth of numbers with an exponent. -/
theorem signedMessage_growth {document : List UInt8} {record : Record}
    (plain : WithoutReserved document) (parsed : parse document = .ok record) :
    ∃ text, document = Utf8.octets text ∧ (∃ part json, Json.MemberText "payload" text part json)
      ∧ ∀ part json, Json.MemberText "payload" text part json →
        record.signedMessage.length ≤ (Utf8.octets part).length + 1026 * json.exponents
          ∧ ((∀ node ∈ json.nodes 1, node.2.isScaled = false) →
            record.signedMessage.length ≤ (Utf8.octets part).length) := by
  obtain ⟨text, guarded, json, rfl, first, second, read⟩ := parse_eq_ok_iff.1 parsed
  obtain ⟨padded, unique, _⟩ := Json.readGuarded_eq_ok_iff.1 first
  have keys := plain text guarded rfl padded
  obtain rfl := Except.ok.inj ((Json.readPlain_of_readGuarded first keys).symm.trans second)
  cases guarded with
  | object members =>
      obtain ⟨distinct, inside⟩ := Json.everywhere_object.1 unique
      obtain ⟨payload, _, _, _, fields, converted, _⟩ := (ofJson_eq_ok_iff distinct).1 read
      obtain ⟨found, stands⟩ := Json.exists_memberText padded fields.payload
      refine ⟨text, rfl, ⟨found, payload, stands⟩, fun part json member => ?_⟩
      -- The payload stands under its key only once.
      obtain rfl : json = payload :=
        congrArg Prod.snd (List.inj_on_of_nodup_map distinct (member.mem padded) fields.payload rfl)
      obtain ⟨_, _, _, _, _, _, spelled⟩ := member
      have bound := Value.width_chars_le spelled (inside _ fields.payload) converted
      refine ⟨bound, fun unscaled => ?_⟩
      have none : json.exponents = 0 := List.countP_eq_zero.2 fun node member => by
        simp [unscaled node member]
      rwa [none] at bound
  | _ => cases read

/-- A document with a number that grows by all that is allowed. -/
def scaledDocument : String :=
  "\x7b\"payload\":\x7b\"n\":-1e1031\x7d,\"created_at\":7,\"signer_public_key\":\"k\","
    ++ "\"signature\":\"s\"\x7d"

/-- The record of this document. -/
def scaledRecord : Record :=
  ⟨⟨[("n", .number (.ofInt (-10 ^ 1031)))], by decide⟩, .logical 7, ⟨"k"⟩, ⟨"s"⟩⟩

theorem parse_scaledDocument : parse (Utf8.encode scaledDocument) = .ok scaledRecord := by
  decide +kernel

theorem signedMessage_growth_scaledDocument :
    ∃ part json, Json.MemberText "payload" scaledDocument.toList part json
      ∧ scaledRecord.signedMessage.length ≤ (Utf8.octets part).length + 1026 * json.exponents := by
  have plain : WithoutReserved (Utf8.encode scaledDocument) :=
    withoutReserved_of_readGuarded (by decide +kernel)
  obtain ⟨text, same, ⟨part, json, member⟩, bound⟩ :=
    signedMessage_growth plain parse_scaledDocument
  obtain rfl := Utf8.octets_injective same
  exact ⟨part, json, member, (bound part json member).1⟩

example : scaledRecord.signedMessage.length = "\x7b\"n\":-1e1031\x7d".length + 1026 := by
  decide +kernel

end Record

end SignedFacts
