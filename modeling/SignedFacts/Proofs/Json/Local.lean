import SignedFacts.Proofs.Json.Skip

/-!
# Passing over the same text elsewhere

Whether a value is passed over depends on nothing but its text.  What one skipper
passed over, every skipper with room for it passes over again, wherever it
stands and whatever follows that a number could not go on with
(`between_skipValue`).  That holds of more texts than the grammar derives, since no key
is compared and no surrogate looked at.

`Between` says which texts may stand between two places, and `Between.append` puts
neighbours together.  So there is one lemma for each skipper, and the induction is on
the containers that may still be opened.
-/

namespace SignedFacts.Json.Cursor

/-! ## Texts between places -/

/-- Between two places stands one of these texts. -/
def Between (These : List Char → Prop) (cursor behind : Cursor) : Prop :=
  ∃ text, These text ∧ cursor.ahead = text ++ behind.ahead
    ∧ behind.position = cursor.position + text.length

/-- One of some texts and one of others behind it. -/
def Followed (First Second : List Char → Prop) (text : List Char) : Prop :=
  ∃ front more, First front ∧ Second more ∧ text = front ++ more

section Between

variable {cursor middle behind : Cursor} {First Second : List Char → Prop}

theorem Between.append (first : Between First cursor middle)
    (second : Between Second middle behind) : Between (Followed First Second) cursor behind := by
  obtain ⟨text, isFirst, ahead, position⟩ := first
  obtain ⟨more, isSecond, aheadMore, positionMore⟩ := second
  refine ⟨text ++ more, ⟨text, more, isFirst, isSecond, rfl⟩, ?_, ?_⟩
  · rw [ahead, aheadMore, List.append_assoc]
  · rw [positionMore, position, List.length_append, Nat.add_assoc]

theorem Between.imp (between : Between First cursor behind)
    (weaker : ∀ text, First text → Second text) : Between Second cursor behind := by
  obtain ⟨text, isFirst, place⟩ := between
  exact ⟨text, weaker text isFirst, place⟩

theorem between_cons (c : Char) (position : Nat) (rest : List Char) :
    Between (· = [c]) ⟨position, c :: rest⟩ ⟨position + 1, rest⟩ := ⟨[c], rfl, rfl, rfl⟩

theorem between_skipSpace (cursor : Cursor) : Between Blank cursor cursor.skipSpace :=
  ⟨cursor.ahead.takeWhile isSpace, fun _ member => List.all_eq_true.1 List.all_takeWhile _ member,
    List.takeWhile_append_dropWhile.symm, rfl⟩

theorem between_mark {c : Char} {position : Nat} {rest : List Char}
    (shape : cursor.skipSpace = ⟨position, c :: rest⟩) :
    Between (Followed Blank (· = [c])) cursor ⟨position + 1, rest⟩ :=
  (shape ▸ between_skipSpace cursor).append (between_cons c position rest)

end Between

/-! ## Tokens -/

section Tokens

variable {size : Char → Nat} {position : Nat} {ahead : List Char} {cursor behind : Cursor}

theorem between_skipWord {letters : List Char} (passed : skipWord letters cursor = .ok behind) :
    Between (· = letters) cursor behind := by
  obtain ⟨rest, scanned, rfl⟩ := of_map_eq_ok passed
  exact ⟨letters, rfl, scanWord_eq_ok_iff.1 scanned, rfl⟩

theorem between_skipNumeral (passed : skipNumeral cursor = .ok behind) :
    Between (fun text => ∃ n, SpellsNumber text n) cursor behind := by
  obtain ⟨⟨n, rest⟩, scanned, rfl⟩ := of_map_eq_ok passed
  obtain ⟨text, spelled, whole⟩ := spellsNumber_of_scanNumeral scanned
  exact ⟨text, ⟨n, spelled⟩, whole, by rw [Numeral.length_of_spells spelled.1]; rfl⟩

theorem between_skipString (passed : skipString size position ahead = .ok behind) :
    Between (Followed (Quoted size) (· = ['"'])) ⟨position, ahead⟩ behind := by
  -- A step that goes on puts one token in front of what is still to come.
  have go {position : Nat} {ahead : List Char} (token : List Char)
      (step : ∀ position rest,
        skipString size position (token ++ rest) = skipString size (position + token.length) rest)
      (more : Between (Followed (Quoted size) (· = ['"'])) ⟨position + token.length, ahead⟩ behind) :
      Between (Followed (Quoted size) (· = ['"'])) ⟨position, token ++ ahead⟩ behind := by
    have first : Between (· = token) ⟨position, token ++ ahead⟩ ⟨position + token.length, ahead⟩ :=
      ⟨token, rfl, rfl, rfl⟩
    refine (first.append more).imp ?_
    rintro _ ⟨_, _, rfl, ⟨inner, quote, quoted, rfl, rfl⟩, rfl⟩
    exact ⟨_, ['"'], quoted.token step, rfl, (List.append_assoc ..).symm⟩
  fun_induction skipString size position ahead with
  | case2 position rest =>
      cases passed
      exact (between_cons '"' position rest).imp fun _ quote => ⟨[], _, quoted_nil, quote, rfl⟩
  | case4 position p q r s rest read _ induction =>
      obtain ⟨number, read⟩ := Option.isSome_iff_exists.1 read
      exact go ['\\', 'u', p, q, r, s]
        (fun _ _ => skipString_unit (unit?_eq_some_iff.1 read)) (induction passed)
  | case7 position letter rest _ _ known _ induction =>
      obtain ⟨c, known⟩ := Option.isSome_iff_exists.1 known
      exact go ['\\', letter]
        (fun _ _ => skipString_escape (escapeChar?_eq_some_iff.1 known)) (induction passed)
  | case10 position c rest noQuote noEscape visible induction =>
      exact go [c] (fun _ _ => skipString_plain noQuote noEscape (Nat.not_lt.1 visible))
        (induction passed)
  | _ => cases passed

theorem between_skipKey (passed : skipKey size cursor = .ok behind) :
    Between (ClosesOver (skipKey size)) cursor behind := by
  rw [skipKey] at passed
  split at passed
  next => cases passed
  next shape =>
    obtain ⟨afterKey, inside, passed⟩ := of_bind_eq_ok passed
    generalize next : afterKey.skipSpace = colon at passed
    obtain ⟨position, ahead⟩ := colon
    simp only at passed
    split at passed
    next => cases passed
    next =>
      cases passed
      refine (((between_mark shape).append (between_skipString inside)).append
        (between_mark next)).imp ?_
      rintro _ ⟨_, _, ⟨_, _, ⟨before, _, blank, rfl, rfl⟩, ⟨text, _, quoted, rfl, rfl⟩, rfl⟩,
        ⟨after, _, blankAfter, rfl, rfl⟩, rfl⟩
      simpa using closesOver_skipKey blank quoted blankAfter
    next => cases passed
  next => cases passed

theorem between_skipScalar (passed : skipScalar size cursor = .ok behind) :
    Between (Scalar size) cursor behind := by
  obtain ⟨position, ahead⟩ := cursor
  -- A word of which one letter has been looked at.
  have word {c : Char} {rest letters : List Char} (scalar : Scalar size (c :: letters))
      (passed : skipWord letters ⟨position + 1, rest⟩ = .ok behind) :
      Between (Scalar size) ⟨position, c :: rest⟩ behind := by
    refine ((between_cons c position rest).append (between_skipWord passed)).imp ?_
    rintro _ ⟨_, _, rfl, rfl, rfl⟩
    exact scalar
  cases ahead with
  | nil => cases passed
  | cons c rest =>
      simp only [skipScalar] at passed
      split at passed
      next null => exact null ▸ word scalar_null passed
      next =>
      split at passed
      next yes => exact yes ▸ word scalar_true passed
      next =>
      split at passed
      next no => exact no ▸ word scalar_false passed
      next =>
      split at passed
      next quote =>
        refine ((between_cons c position rest).append (between_skipString passed)).imp ?_
        rintro _ ⟨_, _, rfl, ⟨text, _, quoted, rfl, rfl⟩, rfl⟩
        exact quote ▸ scalar_string quoted
      next =>
      split at passed
      next =>
        refine (between_skipNumeral passed).imp ?_
        rintro text ⟨n, spelled⟩
        exact scalar_number spelled
      next => cases passed

end Tokens

/-! ## Containers -/

section Turns

variable {item : Cursor → Except ReadError Cursor} {Item : List Char → Prop} {close : Char}
  {turns : Nat} {cursor behind : Cursor}
  (only : ∀ cursor behind, item cursor = .ok behind → Between Item cursor behind)

include only

theorem Loop.between (loop : Loop item close turns cursor behind) :
    Between (Listed Item close) cursor behind := by
  induction loop with
  | last first next =>
      refine ((only _ _ first).append (between_mark next)).imp ?_
      rintro _ ⟨text, _, kind, ⟨blanks, _, blank, rfl, rfl⟩, rfl⟩
      exact .last kind blank
  | more first next _ induction =>
      refine (((only _ _ first).append (between_mark next)).append induction).imp ?_
      rintro _ ⟨_, others, ⟨text, _, kind, ⟨blanks, _, blank, rfl, rfl⟩, rfl⟩, listed, rfl⟩
      simpa using Listed.more kind blank listed

theorem Brackets.between (brackets : Brackets item close turns cursor behind) :
    Between (Bracketed Item close) cursor behind := by
  cases brackets with
  | empty shape =>
      refine (between_mark shape).imp ?_
      rintro _ ⟨blanks, _, blank, rfl, rfl⟩
      exact .empty blank
  | items loop => exact (loop.between only).imp fun _ => .items

end Turns

section Values

variable {size : Char → Nat} {bound depth : Nat} {cursor behind : Cursor}

theorem between_skipMember {value : Cursor → Except ReadError Cursor}
    (only : ∀ cursor behind, value cursor = .ok behind → Between (Skippable size) cursor behind)
    (passed : skipMember size value cursor = .ok behind) : Between (Member size) cursor behind := by
  obtain ⟨_, keyed, passed⟩ := of_bind_eq_ok passed
  refine ((between_skipKey keyed).append (only _ _ passed)).imp ?_
  rintro _ ⟨key, value, closes, skippable, rfl⟩
  exact ⟨key, value, rfl, closes, skippable⟩

/-- What is passed over as a value anywhere, and ends in no blank. -/
def Valued (size : Char → Nat) (text : List Char) : Prop := Skippable size text ∧ EndsVisible text

theorem Between.afterSpace (between : Between (Valued size) cursor.skipSpace behind) :
    Between (Valued size) cursor behind := by
  refine ((between_skipSpace cursor).append between).imp ?_
  rintro _ ⟨blanks, text, blank, ⟨skippable, visible⟩, rfl⟩
  exact ⟨skippable.behind blank, visible.append blanks⟩

theorem valued_of_scalar {text : List Char} (scalar : Scalar size text) : Valued size text :=
  ⟨skippable_scalar scalar, scalar.last⟩

/-- Whatever a skipper passes over as a value, every skipper with room for it passes over
anywhere. -/
theorem between_skipValue (passed : skipValue size bound depth cursor = .ok behind) :
    Between (Valued size) cursor behind := by
  induction depth generalizing cursor behind with
  | zero => exact ((between_skipScalar passed).imp fun _ => valued_of_scalar).afterSpace
  | succ depth induction =>
      have value (cursor behind : Cursor) (passed : skipValue size bound depth cursor = .ok behind) :
          Between (Skippable size) cursor behind := (induction passed).imp fun _ => And.left
      rw [skipValue] at passed
      refine Between.afterSpace ?_
      split at passed
      next position rest shape =>
        have items := (skipArray_eq_ok_iff.1 passed).between value
        refine shape ▸ ((between_cons '[' position rest).append items).imp ?_
        rintro _ ⟨_, text, rfl, bracketed, rfl⟩
        exact ⟨skippable_array bracketed, (bracketed.endsVisible (by decide)).append ['[']⟩
      next position rest shape =>
        have members := (skipObject_eq_ok_iff.1 passed).between fun _ _ => between_skipMember value
        refine shape ▸ ((between_cons '\x7b' position rest).append members).imp ?_
        rintro _ ⟨_, text, rfl, bracketed, rfl⟩
        exact ⟨skippable_object bracketed, (bracketed.endsVisible (by decide)).append ['\x7b']⟩
      next => exact (between_skipScalar passed).imp fun _ => valued_of_scalar

end Values

end SignedFacts.Json.Cursor
