import SignedFacts.Json.Skip
import SignedFacts.Proofs.Json.Completeness

/-!
# Passing over what the grammar derives

`skipValue` passes over the text of a value and stops right behind it
(`skippable_of_spells`).  It never looks at what the value is, so what it passes over is
said of texts alone, one lemma for each shape of a value.  Lists and objects take
their turns alike: `Loop` is what their turns do, and `Listed` the text they go over.

How much a skipper has room for is a matter of length.  Every container has brackets of
its own, so a text that is no longer than the room has few enough of them, and few
enough items in each.
-/

namespace SignedFacts.Json

namespace Cursor

/-! ## Skippers and texts -/

/-- A skipper passes over a text, if nothing behind it could be part of a number. -/
def PassesOver (skip : Cursor → Except ReadError Cursor) (text : List Char) : Prop :=
  ∀ position rest, EndsNumber rest →
    skip ⟨position, text ++ rest⟩ = .ok ⟨position + text.length, rest⟩

/-- A skipper passes over a text, whatever stands behind it. -/
def ClosesOver (skip : Cursor → Except ReadError Cursor) (text : List Char) : Prop :=
  ∀ position rest, skip ⟨position, text ++ rest⟩ = .ok ⟨position + text.length, rest⟩

/-- The last character of a text is no blank. -/
def EndsVisible (text : List Char) : Prop := ∃ front c, text = front ++ [c] ∧ isSpace c = false

theorem EndsVisible.append {text : List Char} (visible : EndsVisible text) (before : List Char) :
    EndsVisible (before ++ text) := by
  obtain ⟨front, c, rfl, noBlank⟩ := visible
  exact ⟨before ++ front, c, (List.append_assoc ..).symm, noBlank⟩

/-! ## Blanks and tokens -/

section Tokens

variable {position : Nat} {rest : List Char}

theorem ok_congr {other : Nat} (same : position = other) :
    (.ok ⟨position, rest⟩ : Except ReadError Cursor) = .ok ⟨other, rest⟩ := by
  rw [same]

theorem skipSpace_behind {blanks : List Char} (blank : Blank blanks) (position : Nat)
    (rest : List Char) :
    skipSpace ⟨position, blanks ++ rest⟩ = skipSpace ⟨position + blanks.length, rest⟩ := by
  have take : (blanks ++ rest).takeWhile isSpace = blanks ++ rest.takeWhile isSpace :=
    List.takeWhile_append_of_pos blank
  simp only [skipSpace, take, List.dropWhile_append_of_pos blank, List.length_append, Nat.add_assoc]

theorem skipSpace_visible {c : Char} (visible : isSpace c = false) :
    skipSpace ⟨position, c :: rest⟩ = ⟨position, c :: rest⟩ := by
  simp [skipSpace, visible]

/-- Passing over blanks leads to the first character that is none. -/
theorem skipSpace_blank {blanks : List Char} {c : Char} (blank : Blank blanks)
    (visible : isSpace c = false) :
    skipSpace ⟨position, blanks ++ c :: rest⟩ = ⟨position + blanks.length, c :: rest⟩ :=
  (skipSpace_behind blank position _).trans (skipSpace_visible visible)

theorem skipWord_append (letters : List Char) :
    skipWord letters ⟨position, letters ++ rest⟩ = .ok ⟨position + letters.length, rest⟩ := by
  rw [skipWord, scanWord_eq_ok_iff.2 rfl]
  rfl

theorem skipNumeral_append {text : List Char} {n : Numeral} (spelled : SpellsNumber text n)
    (ends : EndsNumber rest) :
    skipNumeral ⟨position, text ++ rest⟩ = .ok ⟨position + text.length, rest⟩ := by
  rw [skipNumeral, scanNumeral_append .badNumber spelled ends, Numeral.length_of_spells spelled.1]
  rfl

end Tokens

section Strings

variable {size : Char → Nat} {position : Nat} {rest : List Char}

theorem skipString_plain {c : Char} (noQuote : c ≠ '"') (noEscape : c ≠ '\\')
    (visible : 0x20 ≤ c.toNat) :
    skipString size position (c :: rest) = skipString size (position + 1) rest := by
  rw [skipString.eq_def]
  simp [noQuote, noEscape, Nat.not_lt.2 visible]

theorem skipString_escape {letter c : Char} (known : (letter, c) ∈ escapes) :
    skipString size position ('\\' :: letter :: rest) = skipString size (position + 2) rest := by
  have noNumber : letter ≠ 'u' := by
    rintro rfl
    revert known
    simp [escapes]
  rw [skipString.eq_def]
  simp [noNumber, escapeChar?_eq_some_iff.2 known]

theorem skipString_unit {digits : List Char} {number : Nat} (spelled : SpellsUnit digits number) :
    skipString size position ('\\' :: 'u' :: (digits ++ rest))
      = skipString size (position + (digits.length + 2)) rest := by
  obtain ⟨p, q, r, s, rfl, read⟩ := exists_unit_of_spells spelled
  rw [skipString.eq_def]
  simp [read]

/-- What stands between two quotes, as far as passing over it goes. -/
def Quoted (size : Char → Nat) (text : List Char) : Prop :=
  ∀ position rest,
    skipString size position (text ++ '"' :: rest) = .ok ⟨position + (text.length + 1), rest⟩

theorem quoted_nil : Quoted size [] := by
  intro position rest
  rw [skipString.eq_def]
  simp

theorem Quoted.token {token text : List Char} (quoted : Quoted size text)
    (step : ∀ position rest,
      skipString size position (token ++ rest) = skipString size (position + token.length) rest) :
    Quoted size (token ++ text) := by
  intro position rest
  rw [List.append_assoc, step, quoted]
  exact ok_congr (by rw [List.length_append]; omega)

theorem quoted_of_spells {text chars : List Char} (spelled : SpellsString text chars) :
    Quoted size text := by
  induction spelled with
  | nil => exact quoted_nil
  | @plain c _ _ noQuote noEscape visible _ induction =>
      exact @Quoted.token _ [c] _ induction fun _ _ => skipString_plain noQuote noEscape visible
  | @escape letter _ _ _ known _ induction =>
      exact @Quoted.token _ ['\\', letter] _ induction fun _ _ => skipString_escape known
  | @unit digits _ _ _ spelled _ _ induction =>
      exact @Quoted.token _ ('\\' :: 'u' :: digits) _ induction fun _ _ => skipString_unit spelled
  | @pair digits more _ _ text _ first _ _ second _ _ _ induction =>
      have behind := @Quoted.token _ ('\\' :: 'u' :: more) _ induction fun _ _ =>
        skipString_unit second
      simpa using @Quoted.token _ ('\\' :: 'u' :: digits) _ behind fun _ _ => skipString_unit first

/-- A key is passed over with the blanks around it and its colon. -/
theorem closesOver_skipKey {before text after : List Char} (blank : Blank before)
    (quoted : Quoted size text) (blankAfter : Blank after) :
    ClosesOver (skipKey size) (before ++ '"' :: (text ++ '"' :: (after ++ [':']))) := by
  intro position rest
  simp only [List.append_assoc, List.cons_append, List.nil_append]
  rw [skipKey, skipSpace_blank blank rfl]
  simp only [quoted _ _, bind, Except.bind]
  rw [skipSpace_blank blankAfter rfl]
  exact ok_congr (by simp only [List.length_append, List.length_cons, List.length_nil]; omega)

end Strings

/-! ## Scalars -/

section Scalars

variable {size : Char → Nat} {position : Nat} {text rest : List Char}

theorem skipScalar_number {c : Char} (head : c = '-' ∨ c.isDigit = true) :
    skipScalar size ⟨position, c :: rest⟩ = skipNumeral ⟨position, c :: rest⟩ := by
  have other : c ≠ 'n' ∧ c ≠ 't' ∧ c ≠ 'f' ∧ c ≠ '"' := by
    refine ⟨?_, ?_, ?_, ?_⟩ <;> rintro rfl <;> revert head <;> decide
  simp [skipScalar, other, head]

theorem skipScalar_string :
    skipScalar size ⟨position, '"' :: rest⟩ = skipString size (position + 1) rest := by
  simp [skipScalar]

/-- A text that is passed over as a value and holds none. -/
structure Scalar (size : Char → Nat) (text : List Char) : Prop where
  front : ∃ c more, text = c :: more ∧ isSpace c = false ∧ c ≠ '[' ∧ c ≠ '\x7b'
  last : EndsVisible text
  passed : PassesOver (skipScalar size) text

/-- No character of a number is a blank. -/
theorem endsVisible_of_spellsNumber {n : Numeral} (spelled : SpellsNumber text n) :
    EndsVisible text := by
  obtain ⟨c, more, shape, _⟩ := head_of_spellsNumber spelled
  have filled : text ≠ [] := by simp [shape]
  have shown := (Numeral.visible_of_spells spelled.1 _ (List.getLast_mem filled)).1
  refine ⟨text.dropLast, text.getLast filled, (List.dropLast_concat_getLast _).symm, ?_⟩
  generalize text.getLast filled = last at shown
  rw [Bool.eq_false_iff]
  intro space
  simp only [isSpace, Bool.or_eq_true, decide_eq_true_eq] at space
  rcases space with ((rfl | rfl) | rfl) | rfl <;> exact absurd shown (by decide)

theorem scalar_number {n : Numeral} (spelled : SpellsNumber text n) : Scalar size text where
  front := by
    obtain ⟨c, more, rfl, head⟩ := head_of_spellsNumber spelled
    exact ⟨c, more, rfl, of_scalarHead (.inr (.inr (.inr (.inr head))))⟩
  last := endsVisible_of_spellsNumber spelled
  passed := by
    intro position rest ends
    obtain ⟨c, more, rfl, head⟩ := head_of_spellsNumber spelled
    rw [List.cons_append, skipScalar_number head]
    exact skipNumeral_append spelled ends

theorem scalar_string (quoted : Quoted size text) : Scalar size ('"' :: (text ++ ['"'])) where
  front := ⟨'"', _, rfl, by decide⟩
  last := ⟨'"' :: text, '"', rfl, rfl⟩
  passed := by
    intro position rest _
    rw [List.cons_append, List.append_assoc, List.singleton_append, skipScalar_string, quoted]
    exact ok_congr (by simp only [List.length_cons, List.length_append, List.length_nil]; omega)

/-- A word of which the first letter tells it from all other values. -/
theorem scalar_word {c : Char} {letters : List Char}
    (head : c = 'n' ∨ c = 't' ∨ c = 'f' ∨ c = '"' ∨ c = '-' ∨ c.isDigit = true)
    (last : EndsVisible letters)
    (step : ∀ position rest, skipScalar size ⟨position, c :: rest⟩
      = skipWord letters ⟨position + 1, rest⟩) : Scalar size (c :: letters) where
  front := ⟨c, letters, rfl, of_scalarHead head⟩
  last := last.append [c]
  passed := by
    intro position rest _
    rw [List.cons_append, step, skipWord_append]
    exact ok_congr (by rw [List.length_cons]; omega)

theorem scalar_null : Scalar size ['n', 'u', 'l', 'l'] :=
  scalar_word (.inl rfl) ⟨['u', 'l'], 'l', rfl, rfl⟩ fun _ _ => rfl

theorem scalar_true : Scalar size ['t', 'r', 'u', 'e'] :=
  scalar_word (.inr (.inl rfl)) ⟨['r', 'u'], 'e', rfl, rfl⟩ fun _ _ => rfl

theorem scalar_false : Scalar size ['f', 'a', 'l', 's', 'e'] :=
  scalar_word (.inr (.inr (.inl rfl))) ⟨['a', 'l', 's'], 'e', rfl, rfl⟩ fun _ _ => rfl

theorem scalar_of_spells {json : Json} (spelled : Spells text json)
    (scalar : json.isContainer = false) : Scalar size text := by
  cases spelled with
  | null => exact scalar_null
  | yes => exact scalar_true
  | no => exact scalar_false
  | number spelled => exact scalar_number spelled
  | string spelled => exact scalar_string (quoted_of_spells spelled)
  | _ => cases scalar

end Scalars

/-! ## Turns -/

/-- Turn by turn an item is passed over and the blanks behind it, up to a comma or, in
the last turn, to the closing mark. -/
inductive Loop (item : Cursor → Except ReadError Cursor) (close : Char) :
    (turns : Nat) → Cursor → Cursor → Prop where
  | last {turns position : Nat} {cursor behind : Cursor} {rest : List Char} :
      item cursor = .ok behind → behind.skipSpace = ⟨position, close :: rest⟩ →
      Loop item close (turns + 1) cursor ⟨position + 1, rest⟩
  | more {turns position : Nat} {cursor behind final : Cursor} {rest : List Char} :
      item cursor = .ok behind → behind.skipSpace = ⟨position, ',' :: rest⟩ →
      Loop item close turns ⟨position + 1, rest⟩ final → Loop item close (turns + 1) cursor final

/-- Behind an opening bracket stand blanks and the closing one, or a loop over items. -/
inductive Brackets (item : Cursor → Except ReadError Cursor) (close : Char) (turns : Nat) :
    Cursor → Cursor → Prop where
  | empty {position : Nat} {cursor : Cursor} {rest : List Char} :
      cursor.skipSpace = ⟨position, close :: rest⟩ →
      Brackets item close turns cursor ⟨position + 1, rest⟩
  | items {cursor behind : Cursor} :
      Loop item close turns cursor behind → Brackets item close turns cursor behind

section Loops

variable {item value : Cursor → Except ReadError Cursor} {size : Char → Nat} {turns : Nat}
  {cursor behind : Cursor}

theorem Loop.first {close : Char} (loop : Loop item close turns cursor behind) :
    ∃ middle, item cursor = .ok middle := by
  cases loop with
  | last first _ => exact ⟨_, first⟩
  | more first _ _ => exact ⟨_, first⟩

theorem skipItems_eq_ok_iff :
    skipItems value turns cursor = .ok behind ↔ Loop value ']' turns cursor behind := by
  constructor
  · intro passed
    induction turns generalizing cursor with
    | zero => cases passed
    | succ turns induction =>
        obtain ⟨middle, first, passed⟩ := of_bind_eq_ok passed
        generalize next : middle.skipSpace = after at passed
        obtain ⟨position, ahead⟩ := after
        simp only at passed
        split at passed
        next => cases passed
        next =>
          cases passed
          exact .last first next
        next => exact .more first next (induction passed)
        next => cases passed
  · intro loop
    induction loop with
    | last first close =>
        simp only [skipItems, first, close, bind, Except.bind]
        rfl
    | more first comma _ induction =>
        simp only [skipItems, first, comma, bind, Except.bind]
        exact induction

/-- The place behind a member, from the front of its key. -/
def skipMember (size : Char → Nat) (value : Cursor → Except ReadError Cursor) (cursor : Cursor) :
    Except ReadError Cursor := skipKey size cursor >>= value

theorem skipMembers_eq_ok_iff :
    skipMembers size value turns cursor = .ok behind
      ↔ Loop (skipMember size value) '\x7d' turns cursor behind := by
  constructor
  · intro passed
    induction turns generalizing cursor with
    | zero => cases passed
    | succ turns induction =>
        obtain ⟨key, keyed, passed⟩ := of_bind_eq_ok passed
        obtain ⟨middle, first, passed⟩ := of_bind_eq_ok passed
        have member : skipMember size value cursor = .ok middle := by
          rw [skipMember, keyed]
          exact first
        generalize next : middle.skipSpace = after at passed
        obtain ⟨position, ahead⟩ := after
        simp only at passed
        split at passed
        next => cases passed
        next =>
          cases passed
          exact .last member next
        next => exact .more member next (induction passed)
        next => cases passed
  · intro loop
    induction loop with
    | last first close =>
        obtain ⟨key, keyed, first⟩ := of_bind_eq_ok first
        simp only [skipMembers, keyed, first, close, bind, Except.bind]
        rfl
    | more first comma _ induction =>
        obtain ⟨key, keyed, first⟩ := of_bind_eq_ok first
        simp only [skipMembers, keyed, first, comma, bind, Except.bind]
        exact induction

end Loops

/-- Texts of items with blanks behind them and commas between, and the closing mark. -/
inductive Listed (Item : List Char → Prop) (close : Char) : List Char → Prop where
  | last {text blanks : List Char} :
      Item text → Blank blanks → Listed Item close (text ++ (blanks ++ [close]))
  | more {text blanks rest : List Char} :
      Item text → Blank blanks → Listed Item close rest →
      Listed Item close (text ++ (blanks ++ ',' :: rest))

/-- A text from behind an opening bracket to the closing one: blanks alone, or items. -/
inductive Bracketed (Item : List Char → Prop) (close : Char) : List Char → Prop where
  | empty {blanks : List Char} : Blank blanks → Bracketed Item close (blanks ++ [close])
  | items {text : List Char} : Listed Item close text → Bracketed Item close text

section Listed

variable {item : Cursor → Except ReadError Cursor} {Item : List Char → Prop} {close : Char}
  {text : List Char} {turns : Nat}

theorem Listed.endsVisible (visible : isSpace close = false) (listed : Listed Item close text) :
    EndsVisible text := by
  induction listed with
  | @last text blanks _ _ => exact ⟨text ++ blanks, close, (List.append_assoc ..).symm, visible⟩
  | @more text blanks rest _ _ _ induction =>
      simpa using (induction.append [',']).append (text ++ blanks)

theorem Bracketed.endsVisible (visible : isSpace close = false)
    (bracketed : Bracketed Item close text) : EndsVisible text := by
  cases bracketed with
  | @empty blanks _ => exact ⟨blanks, close, rfl, visible⟩
  | items listed => exact listed.endsVisible visible

section Room

variable {room : Nat} (items : ∀ text, Item text → text.length ≤ room → PassesOver item text)
  (visible : isSpace close = false) (mark : EndsNumber [close])

include items visible mark

/-- A loop goes over a text of items, if it has the turns and its turns have the room. -/
theorem Listed.loop (listed : Listed Item close text) (short : text.length ≤ room)
    (enough : text.length ≤ turns) (position : Nat) (rest : List Char) :
    Loop item close turns ⟨position, text ++ rest⟩ ⟨position + text.length, rest⟩ := by
  induction listed generalizing turns position with
  | @last text blanks kind blank =>
      simp only [List.length_append, List.length_singleton] at short enough
      obtain ⟨fewer, rfl⟩ := Nat.exists_eq_add_one.2 (show 0 < turns by omega)
      have passed := items text kind (by omega) position (blanks ++ close :: rest)
        (endsNumber_append blank fun _ first => mark _ first)
      have loop : Loop item close (fewer + 1) _ _ := .last passed (skipSpace_blank blank visible)
      simpa [Nat.add_assoc] using loop
  | @more text blanks others kind blank _ induction =>
      simp only [List.length_append, List.length_cons] at short enough
      obtain ⟨fewer, rfl⟩ := Nat.exists_eq_add_one.2 (show 0 < turns by omega)
      have passed := items text kind (by omega) position (blanks ++ ',' :: (others ++ rest))
        (endsNumber_append blank (endsNumber_cons (by decide) _))
      have behind := @induction fewer (by omega) (by omega)
        (position + text.length + blanks.length + 1)
      have loop := Loop.more passed (skipSpace_blank blank (by decide)) behind
      simpa [Nat.add_assoc, Nat.add_comm 1] using loop

theorem Bracketed.brackets (bracketed : Bracketed Item close text) (short : text.length ≤ room)
    (enough : text.length ≤ turns) (position : Nat) (rest : List Char) :
    Brackets item close turns ⟨position, text ++ rest⟩ ⟨position + text.length, rest⟩ := by
  cases bracketed with
  | @empty blanks blank =>
      rw [List.append_assoc, List.length_append, ← Nat.add_assoc]
      exact .empty (skipSpace_blank blank visible)
  | items listed => exact .items (listed.loop items visible mark short enough position rest)

end Room

end Listed

/-! ## Blanks before a value -/

section Front

variable {size : Char → Nat} {bound depth turns : Nat}

theorem visible_of_skipSpace {cursor : Cursor} {position : Nat} {c : Char} {rest : List Char}
    (shape : cursor.skipSpace = ⟨position, c :: rest⟩) : isSpace c = false := by
  have front := List.head?_dropWhile_not isSpace cursor.ahead
  rw [skipSpace, Cursor.mk.injEq] at shape
  simpa [shape.2] using front

theorem skipSpace_idem (cursor : Cursor) : cursor.skipSpace.skipSpace = cursor.skipSpace := by
  obtain ⟨position, ahead⟩ := cursor
  have front : (ahead.dropWhile isSpace).takeWhile isSpace = [] := by
    cases shape : ahead.dropWhile isSpace with
    | nil => rfl
    | cons c rest =>
        have visible := @visible_of_skipSpace ⟨position, ahead⟩ _ c rest
          (by rw [skipSpace, shape])
        simp [visible]
  simp only [skipSpace, front, List.length_nil, Nat.add_zero, Cursor.mk.injEq, true_and]
  exact Json.skipSpace_idem ahead

theorem skipValue_skipSpace (cursor : Cursor) :
    skipValue size bound depth cursor.skipSpace = skipValue size bound depth cursor := by
  cases depth <;> simp only [skipValue, skipSpace_idem]

theorem skipItems_skipSpace (cursor : Cursor) :
    skipItems (skipValue size bound depth) turns cursor.skipSpace
      = skipItems (skipValue size bound depth) turns cursor := by
  cases turns <;> simp only [skipItems, skipValue_skipSpace]

theorem skipMembers_skipSpace {value : Cursor → Except ReadError Cursor} (cursor : Cursor) :
    skipMembers size value turns cursor.skipSpace = skipMembers size value turns cursor := by
  cases turns <;> simp only [skipMembers, skipKey, skipSpace_idem]

end Front

/-! ## What begins a value -/

section Steps

variable {size : Char → Nat} {bound depth position : Nat} {rest : List Char} {cursor : Cursor}

theorem skipValue_scalar {c : Char} (shape : cursor.skipSpace = ⟨position, c :: rest⟩)
    (noArray : c ≠ '[') (noObject : c ≠ '\x7b') :
    skipValue size bound depth cursor = skipScalar size ⟨position, c :: rest⟩ := by
  cases depth <;> simp [skipValue, shape, noArray, noObject]

theorem skipValue_array (shape : cursor.skipSpace = ⟨position, '[' :: rest⟩) :
    skipValue size bound (depth + 1) cursor
      = skipArray (skipValue size bound depth) bound ⟨position + 1, rest⟩ := by
  simp [skipValue, shape]

theorem skipValue_object (shape : cursor.skipSpace = ⟨position, '\x7b' :: rest⟩) :
    skipValue size bound (depth + 1) cursor
      = skipObject size (skipValue size bound depth) bound ⟨position + 1, rest⟩ := by
  simp [skipValue, shape]

end Steps

/-! ## Containers -/

/-- Every skipper with room for a text passes over it as a value, if nothing behind it
could be part of a number. -/
def Skippable (size : Char → Nat) (text : List Char) : Prop :=
  ∀ bound depth, text.length ≤ depth → depth ≤ bound →
    PassesOver (skipValue size bound depth) text

section Containers

variable {size : Char → Nat} {bound depth : Nat} {cursor behind : Cursor}

/-- A value does not begin with a closing bracket. -/
theorem front_of_skipValue (passed : skipValue size bound depth cursor = .ok behind) :
    ∃ position c rest, cursor.skipSpace = ⟨position, c :: rest⟩ ∧ c ≠ ']' := by
  generalize shape : cursor.skipSpace = front
  obtain ⟨position, ahead⟩ := front
  cases ahead with
  | nil => cases depth <;> simp [skipValue, shape, skipScalar] at passed
  | cons c rest =>
      refine ⟨position, c, rest, rfl, ?_⟩
      rintro rfl
      rw [skipValue_scalar shape (by decide) (by decide)] at passed
      simp [skipScalar] at passed

theorem front_of_skipMember {value : Cursor → Except ReadError Cursor}
    (passed : skipMember size value cursor = .ok behind) :
    ∃ position rest, cursor.skipSpace = ⟨position, '"' :: rest⟩ := by
  obtain ⟨_, keyed, _⟩ := of_bind_eq_ok passed
  rw [skipKey] at keyed
  split at keyed
  next => cases keyed
  next shape => exact ⟨_, _, shape⟩
  next => cases keyed

theorem skipArray_eq_ok_iff :
    skipArray (skipValue size bound depth) bound cursor = .ok behind
      ↔ Brackets (skipValue size bound depth) ']' bound cursor behind := by
  rw [skipArray]
  constructor
  · intro passed
    split at passed
    next => cases passed
    next shape =>
      cases passed
      exact .empty shape
    next =>
      rw [skipItems_skipSpace] at passed
      exact .items (skipItems_eq_ok_iff.1 passed)
  · intro brackets
    cases brackets with
    | empty shape => simp only [shape]
    | items loop =>
        obtain ⟨_, first⟩ := loop.first
        obtain ⟨position, c, rest, shape, noClose⟩ := front_of_skipValue first
        have passed := skipItems_eq_ok_iff.2 loop
        rw [← skipItems_skipSpace] at passed
        simpa [shape, noClose] using passed

theorem skipObject_eq_ok_iff {value : Cursor → Except ReadError Cursor} :
    skipObject size value bound cursor = .ok behind
      ↔ Brackets (skipMember size value) '\x7d' bound cursor behind := by
  rw [skipObject]
  constructor
  · intro passed
    split at passed
    next => cases passed
    next shape =>
      cases passed
      exact .empty shape
    next =>
      rw [skipMembers_skipSpace] at passed
      exact .items (skipMembers_eq_ok_iff.1 passed)
  · intro brackets
    cases brackets with
    | empty shape => simp only [shape]
    | items loop =>
        obtain ⟨_, first⟩ := loop.first
        obtain ⟨position, rest, shape⟩ := front_of_skipMember first
        have passed := skipMembers_eq_ok_iff.2 loop
        rw [← skipMembers_skipSpace] at passed
        simpa [shape] using passed

/-- A member is a key with its colon and a value. -/
def Member (size : Char → Nat) (text : List Char) : Prop :=
  ∃ key value, text = key ++ value ∧ ClosesOver (skipKey size) key ∧ Skippable size value

end Containers

section Room

variable {size : Char → Nat} {bound depth : Nat} {text : List Char}

theorem closesOver_skipArray (bracketed : Bracketed (Skippable size) ']' text)
    (short : text.length ≤ depth) (enough : depth ≤ bound) :
    ClosesOver (skipArray (skipValue size bound depth) bound) text := by
  intro position rest
  have items (text : List Char) (skippable : Skippable size text) (short : text.length ≤ depth) :=
    skippable bound depth short enough
  exact skipArray_eq_ok_iff.2 (bracketed.brackets items (by decide)
    (endsNumber_cons (by decide) []) short (Nat.le_trans short enough) position rest)

theorem passesOver_skipMember (member : Member size text) (short : text.length ≤ depth)
    (enough : depth ≤ bound) : PassesOver (skipMember size (skipValue size bound depth)) text := by
  obtain ⟨key, value, rfl, closes, skippable⟩ := member
  intro position rest ends
  rw [List.length_append] at short
  rw [skipMember, List.append_assoc, closes]
  simp only [bind, Except.bind]
  rw [skippable bound depth (by omega) enough _ _ ends, List.length_append, Nat.add_assoc]

theorem closesOver_skipObject (bracketed : Bracketed (Member size) '\x7d' text)
    (short : text.length ≤ depth) (enough : depth ≤ bound) :
    ClosesOver (skipObject size (skipValue size bound depth) bound) text := by
  intro position rest
  have items (text : List Char) (member : Member size text) (short : text.length ≤ depth) :=
    passesOver_skipMember member short enough
  exact skipObject_eq_ok_iff.2 (bracketed.brackets items (by decide)
    (endsNumber_cons (by decide) []) short (Nat.le_trans short enough) position rest)

theorem skippable_scalar (scalar : Scalar size text) : Skippable size text := by
  intro bound depth _ _ position rest ends
  obtain ⟨c, more, rfl, visible, noArray, noObject⟩ := scalar.front
  rw [List.cons_append, skipValue_scalar (skipSpace_visible visible) noArray noObject,
    ← List.cons_append, scalar.passed _ _ ends]

theorem skippable_array (bracketed : Bracketed (Skippable size) ']' text) :
    Skippable size ('[' :: text) := by
  intro bound depth short enough position rest _
  obtain ⟨depth, rfl⟩ := Nat.exists_eq_add_one.2 (Nat.lt_of_lt_of_le (Nat.succ_pos _) short)
  rw [List.cons_append, skipValue_array (skipSpace_visible (by decide)),
    closesOver_skipArray bracketed (Nat.le_of_succ_le_succ short) (Nat.le_of_succ_le enough)]
  exact ok_congr (by rw [List.length_cons]; omega)

theorem skippable_object (bracketed : Bracketed (Member size) '\x7d' text) :
    Skippable size ('\x7b' :: text) := by
  intro bound depth short enough position rest _
  obtain ⟨depth, rfl⟩ := Nat.exists_eq_add_one.2 (Nat.lt_of_lt_of_le (Nat.succ_pos _) short)
  rw [List.cons_append, skipValue_object (skipSpace_visible (by decide)),
    closesOver_skipObject bracketed (Nat.le_of_succ_le_succ short) (Nat.le_of_succ_le enough)]
  exact ok_congr (by rw [List.length_cons]; omega)

end Room

/-! ## Values -/

section Values

variable {size : Char → Nat} {text : List Char}

/-- Blanks before a value are passed over with it. -/
theorem Skippable.behind {blanks : List Char} (skippable : Skippable size text)
    (blank : Blank blanks) : Skippable size (blanks ++ text) := by
  intro bound depth short enough position rest ends
  rw [List.length_append] at short
  rw [List.append_assoc, ← skipValue_skipSpace, skipSpace_behind blank, skipValue_skipSpace,
    skippable bound depth (by omega) enough _ _ ends, List.length_append, Nat.add_assoc]

section Inside

variable {json : Json} (each : ∀ text, Spells text json → Skippable size text)

include each

theorem skippable_of_padded (padded : SpellsPadded text json) :
    ∃ value after, text = value ++ after ∧ Skippable size value ∧ Blank after := by
  cases padded with
  | @mk before inner after _ blankBefore spelled blankAfter =>
      exact ⟨before ++ inner, after, rfl, (each inner spelled).behind blankBefore, blankAfter⟩

theorem member_of_spells {key : String} (spelled : SpellsMember text (key, json)) :
    ∃ member after, text = member ++ after ∧ Member size member ∧ Blank after := by
  cases spelled with
  | mk blank spelled blankAfter padded =>
      obtain ⟨value, after, rfl, skippable, blankLast⟩ := skippable_of_padded each padded
      refine ⟨_ ++ value, after, ?_,
        ⟨_, value, rfl, closesOver_skipKey blank (quoted_of_spells spelled) blankAfter, skippable⟩,
        blankLast⟩
      simp

end Inside

theorem listed_of_spellsItems {items : List Json}
    (each : ∀ item ∈ items, ∀ text, Spells text item → Skippable size text)
    (spelled : SpellsItems text items) : Listed (Skippable size) ']' (text ++ [']']) := by
  induction items generalizing text with
  | nil => cases spelled
  | cons item items induction =>
      obtain ⟨first, later⟩ := List.forall_mem_cons.1 each
      cases spelled with
      | one padded =>
          obtain ⟨value, after, rfl, skippable, blank⟩ := skippable_of_padded first padded
          simpa using Listed.last skippable blank
      | more padded others =>
          obtain ⟨value, after, rfl, skippable, blank⟩ := skippable_of_padded first padded
          simpa using Listed.more skippable blank (induction later others)

theorem listed_of_spellsMembers {members : List (String × Json)}
    (each : ∀ member ∈ members, ∀ text, Spells text member.2 → Skippable size text)
    (spelled : SpellsMembers text members) : Listed (Member size) '\x7d' (text ++ ['\x7d']) := by
  induction members generalizing text with
  | nil => cases spelled
  | cons first members induction =>
      obtain ⟨value, later⟩ := List.forall_mem_cons.1 each
      cases spelled with
      | one spelled =>
          obtain ⟨member, after, rfl, isMember, blank⟩ := member_of_spells value spelled
          simpa using Listed.last isMember blank
      | more spelled others =>
          obtain ⟨member, after, rfl, isMember, blank⟩ := member_of_spells value spelled
          simpa using Listed.more isMember blank (induction later others)

/-- A skipper with room for a text passes over it, if it spells a value. -/
theorem skippable_of_spells (json : Json) : ∀ text, Spells text json → Skippable size text := by
  induction json using Json.induct with
  | array items each =>
      intro text spelled
      cases spelled with
      | emptyArray blank => exact skippable_array (.empty blank)
      | array spelled => exact skippable_array (.items (listed_of_spellsItems each spelled))
  | object members each =>
      intro text spelled
      cases spelled with
      | emptyObject blank => exact skippable_object (.empty blank)
      | object spelled => exact skippable_object (.items (listed_of_spellsMembers each spelled))
  | _ =>
      intro text spelled
      exact skippable_scalar (scalar_of_spells spelled rfl)

end Values

end Cursor

end SignedFacts.Json
