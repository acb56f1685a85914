import SignedFacts.Proofs.Json.Completeness

/-!
# Readers with room for more containers

A reader that may open more containers gives the same for every text, unless the
reader with less room stops at the limit (`readValue_shallower`).  So the limit is
the only thing that stops the guard at a text that spells a tree without repeated
keys (`readGuarded_of_spells`).
-/

namespace SignedFacts.Json

/-- A reader gives what another one gives, or stops at the nesting limit. -/
def Shallower {α β : Type} (reader deeper : α → Except ReadError β) : Prop :=
  ∀ text, reader text = .error .tooDeep ∨ reader text = deeper text

section Loops

variable {value deeper : List Char → Except ReadError (Json × List Char)}
  (shallower : Shallower value deeper)

include shallower

theorem readItems_shallower {turns : Nat} {done : List Json} :
    Shallower (readItems value turns done) (readItems deeper turns done) := by
  induction turns generalizing done with
  | zero => exact fun _ => .inr rfl
  | succ turns induction =>
      intro text
      rw [readItems, readItems]
      rcases shallower text with stopped | same
      · exact .inl (by rw [stopped]; rfl)
      rw [same]
      cases deeper text with
      | error e => exact .inr rfl
      | ok pair =>
          obtain ⟨item, rest⟩ := pair
          simp only [bind, Except.bind]
          split
          next => exact .inr rfl
          next => exact .inr rfl
          next =>
            split
            next => exact .inr rfl
            next => exact induction _
          next => exact .inr rfl

theorem readMembers_shallower {guardsKeys : Bool} {turns : Nat} {done : List (String × Json)} :
    Shallower (readMembers guardsKeys value turns done)
      (readMembers guardsKeys deeper turns done) := by
  induction turns generalizing done with
  | zero => exact fun _ => .inr rfl
  | succ turns induction =>
      intro text
      rw [readMembers, readMembers]
      cases readKey text with
      | error e => exact .inr rfl
      | ok pair =>
          obtain ⟨key, afterKey⟩ := pair
          simp only [bind, Except.bind]
          rcases shallower afterKey with stopped | same
          · exact .inl (by rw [stopped])
          rw [same]
          cases deeper afterKey with
          | error e => exact .inr rfl
          | ok pair =>
              obtain ⟨item, rest⟩ := pair
              simp only
              split
              next => exact .inr rfl
              next =>
                split
                next => exact .inr rfl
                next => exact .inr rfl
                next =>
                  split
                  next => exact .inr rfl
                  next => exact .inr rfl
                  next => exact induction _
                next => exact .inr rfl

theorem readArray_shallower {bound : Nat} :
    Shallower (readArray value bound) (readArray deeper bound) := by
  intro text
  rw [readArray.eq_def, readArray.eq_def]
  split
  next => exact .inr rfl
  next => exact .inr rfl
  next => exact readItems_shallower shallower _

theorem readObject_shallower {rules : Rules} {bound : Nat} :
    Shallower (readObject rules value bound) (readObject rules deeper bound) := by
  intro text
  rw [readObject.eq_def, readObject.eq_def]
  split
  next => exact .inr rfl
  next => exact .inr rfl
  next =>
    split
    next => exact readMembers_shallower shallower _
    next =>
      split
      next => exact .inr rfl
      next =>
        split
        next => exact .inr rfl
        next => exact readMembers_shallower shallower _

end Loops

/-- With more room the same is read, up to the limit. -/
theorem readValue_shallower {rules : Rules} {bound depth deeper : Nat} (room : depth ≤ deeper) :
    Shallower (readValue rules bound depth) (readValue rules bound deeper) := by
  induction depth generalizing deeper with
  | zero =>
      intro text
      rw [readValue]
      split
      next => exact .inl rfl
      next => exact .inl rfl
      next =>
        refine .inr ?_
        cases deeper <;> simp [readValue]
  | succ depth induction =>
      obtain ⟨deeper, rfl⟩ := Nat.exists_eq_add_one.2 (Nat.lt_of_lt_of_le (Nat.succ_pos _) room)
      have inner := induction (Nat.le_of_succ_le_succ room)
      intro text
      rw [readValue, readValue]
      split
      next => exact readArray_shallower inner _
      next => exact readObject_shallower inner _
      next => exact .inr rfl

/-- On a text that spells a tree without repeated keys the guard gives the tree,
or stops at the nesting limit. -/
theorem readGuarded_of_spells {text : List Char} {json : Json} (padded : SpellsPadded text json)
    (unique : json.UniqueKeys) :
    readGuarded text = if json.NestsWithin maxOpen then .ok json else .error .tooDeep := by
  split
  next nests => exact readGuarded_eq_ok_iff.2 ⟨padded, unique, nests⟩
  next deep =>
    -- A reader with room for the whole tree gives it.
    obtain ⟨top, low⟩ := exists_top json
    have admitted : json.Everywhere (guardRules.Admits (max maxOpen top)) 1 := fun node member =>
      ⟨fun _ => Nat.le_trans (low node member) (Nat.le_max_right _ _), fun _ => unique node member⟩
    obtain ⟨after, blank, given⟩ := readValue_of_padded (Nat.add_comm 1 _) padded admitted
    rw [guardRules, interpret_none, Option.map_some, toOption_eq_some_iff] at given
    rcases readValue_shallower (Nat.le_max_left maxOpen top) text with stopped | same
    · rw [readGuarded, readText, guardRules, stopped]
      rfl
    · have read : readGuarded text = .ok json := by
        rw [readGuarded, readText, guardRules, same, given]
        simp [skipSpace_of_blank blank, bind, Except.bind]
      exact absurd (readGuarded_eq_ok_iff.1 read).2.2 deep

end SignedFacts.Json
