import SignedFacts.Proofs.Octets.Base64
import SignedFacts.Proofs.Octets.HexText
import SignedFacts.Record.KeyText

/-!
# What a key text stands for

A text stands for octets if it is their hexadecimal text in digits of either case, or if it
is no hexadecimal text and is their base64 text (`decode?_eq_some_iff`).

Hexadecimal text is tried first, so the base64 text of octets stands for them unless all its
characters are digits.  Octets that do not come in threes are safe: their base64 text ends
in the filling, which is no digit.  Keys and signatures are of this kind
(`decode?_of_mem_spellings`).  All of this together is `decode?_exact`.
-/

namespace SignedFacts.KeyText

open Json (hexValue?)

/-- The hexadecimal text and the base64 text of octets. -/
def spellings (octets : List UInt8) : List KeyText := [ofHex octets, ofBase64 octets]

section Reading

variable {octets : List UInt8}

theorem decode?_eq_some_iff {key : KeyText} :
    key.decode? = some octets ↔ key.text ≠ ""
      ∧ (Hex.Spells key.text.toList octets
        ∨ ¬ Hex.IsText key.text.toList ∧ key.text = Base64.encode octets) := by
  rw [decode?]
  split
  next empty => simp [String.isEmpty_iff.1 empty]
  next filled =>
    have notEmpty : key.text ≠ "" := fun empty => filled (String.isEmpty_iff.2 empty)
    rw [Utf8.encode]
    cases read : Hex.decode (Utf8.octets key.text.toList) with
    | ok found =>
        have spelled := Hex.decode_octets_iff.1 read
        have isText := Hex.isText_of_spells spelled
        simp only [Option.some.injEq, notEmpty, ne_eq, not_false_eq_true, isText, not_true_eq_false,
          false_and, or_false, true_and]
        constructor
        · rintro rfl
          exact spelled
        · intro other
          exact Except.ok.inj (read.symm.trans (Hex.decode_octets_iff.2 other))
    | error cause =>
        have refused (found : List UInt8) : ¬ Hex.Spells key.text.toList found := by
          intro spelled
          cases read.symm.trans (Hex.decode_octets_iff.2 spelled)
        have noText : ¬ Hex.IsText key.text.toList := fun isText =>
          (Hex.exists_spells_of_isText isText).elim refused
        have same : key.text = Base64.encode octets ↔ key.text.toList = Base64.symbols octets := by
          rw [Base64.encode, ← String.toList_inj, String.toList_ofList]
        simp only [notEmpty, ne_eq, not_false_eq_true, refused, noText, false_or, true_and,
          Base64.decode_eq_some_iff, same]

/-! ## Both spellings -/

theorem decode?_ofHex (filled : octets ≠ []) : (ofHex octets).decode? = some octets := by
  have digits : Hex.digits octets ≠ [] := by
    cases octets with
    | nil => exact absurd rfl filled
    | cons octet octets => exact List.cons_ne_nil _ _
  refine decode?_eq_some_iff.2 ⟨by simpa [ofHex, Hex.encode] using digits, .inl ?_⟩
  rw [ofHex, Hex.encode, String.toList_ofList]
  exact Hex.decode_octets_iff.1 (Hex.decode_digits octets)

theorem symbols_ne_nil (filled : octets ≠ []) : Base64.symbols octets ≠ [] := by
  intro empty
  have length := Base64.length_symbols octets
  have positive := List.length_pos_iff.2 filled
  rw [empty, List.length_nil] at length
  omega

/-- Base64 text is taken for itself if not all its characters are digits.  If all are, it is
taken for hexadecimal text, which spells another number of octets. -/
theorem decode?_ofBase64_iff (filled : octets ≠ []) :
    (ofBase64 octets).decode? = some octets ↔ ∃ c ∈ Base64.symbols octets, hexValue? c = none := by
  have text : (ofBase64 octets).text.toList = Base64.symbols octets := String.toList_ofList
  have notEmpty : (ofBase64 octets).text ≠ "" := by
    simpa [ofBase64, Base64.encode] using symbols_ne_nil filled
  rw [decode?_eq_some_iff, text]
  constructor
  · rintro ⟨_, spelled | ⟨noText, _⟩⟩
    · -- A group of three octets would need six digits and has four.
      by_cases full : octets.length % 3 = 0
      · have digits := Hex.length_of_spells spelled
        have length := Base64.length_symbols octets
        have positive := List.length_pos_iff.2 filled
        omega
      · exact ⟨'=', Base64.fill_mem_symbols full, rfl⟩
    · have even : (Base64.symbols octets).length % 2 = 0 := by
        rw [Base64.length_symbols]
        omega
      simpa [Hex.IsText, even] using noText
  · rintro ⟨c, member, none⟩
    refine ⟨notEmpty, .inr ⟨fun isText => ?_, rfl⟩⟩
    have digit := isText.2 c member
    rw [none] at digit
    cases digit

/-- The filling keeps base64 text from being hexadecimal text. -/
theorem decode?_ofBase64 (part : octets.length % 3 ≠ 0) :
    (ofBase64 octets).decode? = some octets := by
  have filled : octets ≠ [] := by
    rintro rfl
    exact part rfl
  exact (decode?_ofBase64_iff filled).2 ⟨'=', Base64.fill_mem_symbols part, rfl⟩

theorem decode?_of_mem_spellings (part : octets.length % 3 ≠ 0) {key : KeyText}
    (spelled : key ∈ spellings octets) : key.decode? = some octets := by
  simp only [spellings, List.mem_cons, List.not_mem_nil, or_false] at spelled
  rcases spelled with rfl | rfl
  · refine decode?_ofHex ?_
    rintro rfl
    exact part rfl
  · exact decode?_ofBase64 part

end Reading

/-- Reading is exact: a text that is not empty stands for octets if it is their hexadecimal
text, or if it is no hexadecimal text at all and is their base64 text.  So the hexadecimal
text of octets always stands for them, and their base64 text does unless they come in threes
and all its characters are digits.  A key of 32 octets and a signature of 64 do not come in
threes. -/
theorem decode?_exact :
    (∀ (key : KeyText) (octets : List UInt8), key.decode? = some octets ↔
      key.text ≠ "" ∧ (Hex.Spells key.text.toList octets
        ∨ ¬ Hex.IsText key.text.toList ∧ key.text = Base64.encode octets))
    ∧ ∀ octets : List UInt8, octets ≠ [] →
      (ofHex octets).decode? = some octets
      ∧ (¬ 3 ∣ octets.length → (ofBase64 octets).decode? = some octets)
      ∧ (octets.length = 32 ∨ octets.length = 64 → (ofBase64 octets).decode? = some octets)
      ∧ (3 ∣ octets.length →
        ((ofBase64 octets).decode? = some octets
          ↔ ∃ c ∈ (ofBase64 octets).text.toList, hexValue? c = none)) := by
  refine ⟨fun key octets => decode?_eq_some_iff, fun octets filled => ?_⟩
  refine ⟨decode?_ofHex filled, fun part => decode?_ofBase64 ?_, fun size => decode?_ofBase64 ?_,
    fun _ => ?_⟩
  · exact fun full => part (Nat.dvd_of_mod_eq_zero full)
  · omega
  · rw [decode?_ofBase64_iff filled, ofBase64, Base64.encode, String.toList_ofList]

/-- The base64 text of three octets may be hexadecimal text, and then it stands for two other
octets. -/
theorem decode?_exact_clash :
    (ofBase64 [0x69, 0xb7, 0x1d]).decode? = some [0xab, 0xcd]
      ∧ (ofHex [0x69, 0xb7, 0x1d]).decode? = some [0x69, 0xb7, 0x1d]
      ∧ (ofBase64 [0x69, 0xb7, 0x1d]).decode? ≠ some [0x69, 0xb7, 0x1d] := by
  have clash := decode?_exact.2 [0x69, 0xb7, 0x1d] (List.cons_ne_nil _ _)
  have text : (ofBase64 [0x69, 0xb7, 0x1d]).text.toList = ['a', 'b', 'c', 'd'] := by decide
  refine ⟨by decide, clash.1, fun same => ?_⟩
  obtain ⟨c, member, none⟩ := (clash.2.2.2 ⟨1, rfl⟩).1 same
  rw [text] at member
  simp only [List.mem_cons, List.not_mem_nil, or_false] at member
  rcases member with rfl | rfl | rfl | rfl <;> revert none <;> decide

end SignedFacts.KeyText
