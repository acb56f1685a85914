import SignedFacts.Proofs.Json.Token
import SignedFacts.Proofs.Json.Tree

/-!
# The parts of values against the grammar

Colons, keys, scalars and the end of an object.  As with the tokens, what the
grammar derives is read, and what was read is derived by the grammar.
-/

namespace SignedFacts.Json

/-! ## Keys and the end of an object -/

theorem readColon_eq_ok_iff {text rest : List Char} :
    readColon text = .ok rest ↔ ∃ blanks, Blank blanks ∧ text = blanks ++ ':' :: rest := by
  rw [← skipSpace_eq_cons_iff rfl, readColon.eq_def]
  split
  next ends => simp [ends]
  next behind colon => simp [colon]
  next noEnd noColon => exact iff_of_false (by simp) (noColon rest)

theorem closeObject_eq_ok_iff {text rest : List Char} :
    closeObject text = .ok rest ↔ ∃ blanks, Blank blanks ∧ text = blanks ++ '\x7d' :: rest := by
  rw [← skipSpace_eq_cons_iff rfl, closeObject.eq_def]
  split
  next ends => simp [ends]
  next behind brace => simp [brace]
  next behind comma => simp [comma]
  next noEnd noBrace noComma => exact iff_of_false (by simp) (noBrace rest)

theorem readKey_append {text chars after : List Char} (spelled : SpellsString text chars)
    (blank : Blank after) (rest : List Char) :
    readKey ('"' :: (text ++ '"' :: (after ++ ':' :: rest)))
      = .ok (String.ofList chars, rest) := by
  have colon : readColon (after ++ ':' :: rest) = .ok rest :=
    readColon_eq_ok_iff.2 ⟨after, blank, rfl⟩
  simp [readKey, scanString_append spelled, colon, bind, Except.bind]

theorem spells_of_readKey {text rest : List Char} {key : String}
    (read : readKey text = .ok (key, rest)) :
    ∃ spelled chars after, SpellsString spelled chars ∧ Blank after
      ∧ key = String.ofList chars
      ∧ text = '"' :: (spelled ++ '"' :: (after ++ ':' :: rest)) := by
  rw [readKey.eq_def] at read
  split at read
  next behind =>
    obtain ⟨⟨chars, afterQuote⟩, scanned, read⟩ := of_bind_eq_ok read
    obtain ⟨afterColon, colon, same⟩ := of_bind_eq_ok read
    cases same
    obtain ⟨spelled, spells, rfl⟩ := spellsString_of_scanString_nil scanned
    obtain ⟨blanks, blank, rfl⟩ := readColon_eq_ok_iff.1 colon
    exact ⟨spelled, chars, blanks, spells, blank, rfl, rfl⟩
  next => cases read

/-! ## Scalars -/

/-- The first character of a number is a minus sign or a digit. -/
theorem head_of_spellsNumber {text : List Char} {n : Numeral} (spelled : SpellsNumber text n) :
    ∃ c more, text = c :: more ∧ (c = '-' ∨ c.isDigit = true) := by
  obtain ⟨⟨formed, mark, _, rfl⟩, _⟩ := spelled
  obtain ⟨c, more, whole⟩ := List.exists_cons_of_ne_nil formed.whole.1
  have digit := formed.whole.2 c (whole ▸ .head _)
  cases sign : n.negative with
  | true => exact ⟨'-', _, by simp [Numeral.charsWith, Numeral.signChars, sign]; rfl, Or.inl rfl⟩
  | false =>
      exact ⟨c, _, by simp [Numeral.charsWith, Numeral.signChars, sign, whole]; rfl, Or.inr digit⟩

/-- A character that begins a scalar begins nothing else. -/
theorem of_scalarHead {c : Char}
    (head : c = 'n' ∨ c = 't' ∨ c = 'f' ∨ c = '"' ∨ c = '-' ∨ c.isDigit = true) :
    isSpace c = false ∧ c ≠ '[' ∧ c ≠ '\x7b' := by
  rcases head with rfl | rfl | rfl | rfl | rfl | digit
  case inr.inr.inr.inr.inr =>
    refine ⟨?_, ?_, ?_⟩
    · rw [← Bool.not_eq_true]
      intro space
      simp only [isSpace, Bool.or_eq_true, decide_eq_true_eq] at space
      rcases space with ((rfl | rfl) | rfl) | rfl <;> cases digit
    · rintro rfl
      cases digit
    · rintro rfl
      cases digit
  all_goals decide

theorem readScalar_number {c : Char} {more : List Char} (head : c = '-' ∨ c.isDigit = true) :
    readScalar (c :: more)
      = (scanNumeral .endInValue (c :: more)).map fun (n, rest) => (.number n.explicit, rest) := by
  have other : c ≠ 'n' ∧ c ≠ 't' ∧ c ≠ 'f' ∧ c ≠ '"' := by
    refine ⟨?_, ?_, ?_, ?_⟩ <;> rintro rfl <;> revert head <;> decide
  simp [readScalar, other, head]

theorem readScalar_string (more : List Char) :
    readScalar ('"' :: more)
      = (scanString Char.utf8Size [] more).map
          fun (s, rest) => (.string (String.ofList s), rest) := by
  simp [readScalar]

/-- A spelled scalar is read, and begins as no container and no blank does. -/
theorem readScalar_append {text rest : List Char} {json : Json} (spelled : Spells text json)
    (scalar : json.isContainer = false) (ends : EndsNumber rest) :
    readScalar (text ++ rest) = .ok (json, rest)
      ∧ ∃ c more, text = c :: more ∧ isSpace c = false ∧ c ≠ '[' ∧ c ≠ '\x7b' := by
  cases spelled with
  | null =>
      refine ⟨?_, _, _, rfl, by decide⟩
      simp [readScalar, scanWord, Except.map]
  | yes =>
      refine ⟨?_, _, _, rfl, by decide⟩
      simp [readScalar, scanWord, Except.map]
  | no =>
      refine ⟨?_, _, _, rfl, by decide⟩
      simp [readScalar, scanWord, Except.map]
  | number spelled =>
      have scanned := scanNumeral_append .endInValue spelled ends
      obtain ⟨c, more, rfl, head⟩ := head_of_spellsNumber spelled
      refine ⟨?_, c, more, rfl, of_scalarHead (.inr (.inr (.inr (.inr head))))⟩
      rw [List.cons_append, readScalar_number head, ← List.cons_append, scanned]
      rfl
  | string spelled =>
      refine ⟨?_, _, _, rfl, by decide⟩
      simp [readScalar_string, scanString_append spelled, Except.map]
  | _ => cases scalar

/-- What was read as a scalar is spelled as one. -/
theorem spells_of_readScalar {text rest : List Char} {json : Json}
    (read : readScalar text = .ok (json, rest)) :
    json.isContainer = false ∧ ∃ spelled, Spells spelled json ∧ text = spelled ++ rest := by
  cases text with
  | nil => cases read
  | cons c more =>
      rw [readScalar] at read
      split at read
      next first =>
        obtain ⟨behind, scanned, same⟩ := of_map_eq_ok read
        cases same
        exact ⟨rfl, _, .null, by rw [first, scanWord_eq_ok_iff.1 scanned]; rfl⟩
      next =>
        split at read
        next first =>
          obtain ⟨behind, scanned, same⟩ := of_map_eq_ok read
          cases same
          exact ⟨rfl, _, .yes, by rw [first, scanWord_eq_ok_iff.1 scanned]; rfl⟩
        next =>
          split at read
          next first =>
            obtain ⟨behind, scanned, same⟩ := of_map_eq_ok read
            cases same
            exact ⟨rfl, _, .no, by rw [first, scanWord_eq_ok_iff.1 scanned]; rfl⟩
          next =>
            split at read
            next first =>
              obtain ⟨⟨chars, behind⟩, scanned, same⟩ := of_map_eq_ok read
              cases same
              obtain ⟨spelled, spells, rfl⟩ := spellsString_of_scanString_nil scanned
              exact ⟨rfl, _, .string spells, by simp [first]⟩
            next =>
              split at read
              next =>
                obtain ⟨⟨n, behind⟩, scanned, same⟩ := of_map_eq_ok read
                cases same
                obtain ⟨spelled, spells, whole⟩ := spellsNumber_of_scanNumeral scanned
                exact ⟨rfl, spelled, .number spells, whole⟩
              next => cases read

/-! ## What stands inside a text -/

theorem part_of_spellsItems {text : List Char} {items : List Json}
    (spelled : SpellsItems text items) :
    ∀ item ∈ items, ∃ part, SpellsPadded part item ∧ part.length ≤ text.length := by
  induction items generalizing text with
  | nil => exact nofun
  | cons item items induction =>
      cases spelled with
      | one padded => simpa using ⟨_, padded, Nat.le_refl _⟩
      | more padded others =>
          refine List.forall_mem_cons.2 ⟨⟨_, padded, by simp⟩, fun item member => ?_⟩
          obtain ⟨part, spelled, short⟩ := induction others item member
          refine ⟨part, spelled, ?_⟩
          simp only [List.length_append, List.length_cons]
          omega

theorem part_of_spellsMembers {text : List Char} {members : List (String × Json)}
    (spelled : SpellsMembers text members) :
    ∀ member ∈ members, ∃ part, SpellsPadded part member.2 ∧ part.length ≤ text.length := by
  have single {text : List Char} {member : String × Json} (spelled : SpellsMember text member) :
      ∃ part, SpellsPadded part member.2 ∧ part.length ≤ text.length := by
    cases spelled with
    | mk _ _ _ padded =>
        refine ⟨_, padded, ?_⟩
        simp only [List.length_append, List.length_cons]
        omega
  induction members generalizing text with
  | nil => exact nofun
  | cons member members induction =>
      cases spelled with
      | one spelled => simpa using single spelled
      | more spelled others =>
          obtain ⟨part, padded, short⟩ := single spelled
          refine List.forall_mem_cons.2 ⟨⟨part, padded, ?_⟩, fun member among => ?_⟩
          · simp only [List.length_append, List.length_cons]
            omega
          · obtain ⟨part, spelled, short⟩ := induction others member among
            refine ⟨part, spelled, ?_⟩
            simp only [List.length_append, List.length_cons]
            omega

/-- Everything in a tree is spelled by a part of the text. -/
theorem part_of_spellsPadded {text : List Char} {json : Json} {bound level : Nat}
    (padded : SpellsPadded text json) (short : text.length ≤ bound) :
    json.Everywhere (fun _ node => ∃ part, Spells part node ∧ part.length ≤ bound) level := by
  induction json using induct generalizing text level with
  | array items induction =>
      cases padded with
      | mk _ spelled _ =>
          simp only [List.length_append] at short
          refine everywhere_array.2 ⟨⟨_, spelled, by omega⟩, fun item member => ?_⟩
          cases spelled with
          | emptyArray => cases member
          | array spelled =>
              obtain ⟨part, spelled, shorter⟩ := part_of_spellsItems spelled item member
              simp only [List.length_append, List.length_cons] at short
              exact induction item member spelled (by omega)
  | object members induction =>
      cases padded with
      | mk _ spelled _ =>
          simp only [List.length_append] at short
          refine everywhere_object.2 ⟨⟨_, spelled, by omega⟩, fun entry member => ?_⟩
          cases spelled with
          | emptyObject => cases member
          | object spelled =>
              obtain ⟨part, spelled, shorter⟩ := part_of_spellsMembers spelled entry member
              simp only [List.length_append, List.length_cons] at short
              exact induction entry member spelled (by omega)
  | _ =>
      cases padded with
      | mk _ spelled _ =>
          simp only [List.length_append] at short
          exact everywhere_of_scalar rfl ⟨_, spelled, by omega⟩

/-- A number inside a text is well formed and no longer than the text, apart
from a sign that its exponent may get. -/
theorem number_of_spellsPadded {text : List Char} {json : Json} {bound level : Nat}
    (padded : SpellsPadded text json) (short : text.length ≤ bound) :
    json.Everywhere (fun _ node => ∀ n, node = .number n →
      n.WellFormed ∧ n.chars.length ≤ bound + 1) level := by
  refine (part_of_spellsPadded padded short).mono ?_
  rintro _ _ ⟨part, spelled, shorter⟩ _ rfl
  cases spelled with
  | @number _ n spelled =>
      have length := Numeral.length_of_spells spelled.1
      have explicit := n.length_explicit_le
      exact ⟨Numeral.wellFormed_explicit spelled.1.1, by omega⟩

/-- A string is no longer than what stands between its quotes. -/
theorem length_of_spellsString {text chars : List Char} (spelled : SpellsString text chars) :
    chars.length ≤ text.length := by
  induction spelled with
  | nil => exact Nat.le_refl 0
  | _ =>
      simp only [List.length_cons, List.length_append]
      omega

/-- A string inside a text is shorter than the text. -/
theorem string_of_spellsPadded {text : List Char} {json : Json} {bound level : Nat}
    (padded : SpellsPadded text json) (short : text.length ≤ bound) :
    json.Everywhere (fun _ node => ∀ s, node = .string s → s.toList.length < bound) level := by
  refine (part_of_spellsPadded padded short).mono ?_
  rintro _ _ ⟨part, spelled, shorter⟩ _ rfl
  cases spelled with
  | string spelled =>
      have inside := length_of_spellsString spelled
      simp only [List.length_append, List.length_cons] at shorter
      rw [String.toList_ofList]
      omega

end SignedFacts.Json
