import SignedFacts.Proofs.Json.SameTree

/-!
# Gaps in objects

A gap is what is left of the text of an object when the value of one member is taken out.
Whatever value is put in, the text spells the object with its tree in this place (`Gap`).
Every member of an object stands in such a gap (`exists_gap`), with the text of its value
(`MemberText`).

If a reader takes an object, it takes the object with a number in such a place, and gives what
it has given with the number put in (`readGuarded_exchange`, `readPlain_exchange`).
-/

namespace SignedFacts.Json

/-- A text of an object without the value under `key`, which stands between `front` and
`back`.  The other members are `first` and `last`. -/
def Gap (key : String) (front back : List Char) (first last : List (String × Json)) : Prop :=
  ∀ {text : List Char} {json : Json}, Spells text json →
    SpellsPadded (front ++ (text ++ back)) (.object (first ++ (key, json) :: last))

/-- `part` is the text of the value under `key` in the text of an object, and `json` is the
tree of this value. -/
def MemberText (key : String) (text part : List Char) (json : Json) : Prop :=
  ∃ front back first last, Gap key front back first last
    ∧ text = front ++ (part ++ back) ∧ Spells part json

variable {key : String} {text : List Char} {json : Json} {members : List (String × Json)}

/-- A member is its key and its value, and every value may stand under the key. -/
theorem exists_gap_of_spellsMember (spelled : SpellsMember text (key, json)) :
    ∃ front part back, text = front ++ (part ++ back) ∧ Spells part json
      ∧ ∀ other tree, Spells other tree →
        SpellsMember (front ++ (other ++ back)) (key, tree) := by
  cases spelled with
  | @mk before name chars after value _ blank spelled blankToo padded =>
      cases padded with
      | @mk left part right _ leftBlank spelledPart rightBlank =>
          refine ⟨before ++ '"' :: (name ++ '"' :: (after ++ ':' :: left)), part, right, by simp,
            spelledPart, fun other tree spelledOther => ?_⟩
          have member := SpellsMember.mk blank spelled blankToo
            (SpellsPadded.mk leftBlank spelledOther rightBlank)
          simpa using member

theorem exists_gap_of_spellsMembers (spelled : SpellsMembers text members)
    (among : (key, json) ∈ members) :
    ∃ front part back first last, members = first ++ (key, json) :: last
      ∧ text = front ++ (part ++ back) ∧ Spells part json
      ∧ ∀ other tree, Spells other tree →
        SpellsMembers (front ++ (other ++ back)) (first ++ (key, tree) :: last) := by
  induction members generalizing text with
  | nil => cases among
  | cons member rest induction =>
      cases spelled with
      | one spelled =>
          obtain rfl := List.mem_singleton.1 among
          obtain ⟨front, part, back, rfl, spelledPart, fill⟩ := exists_gap_of_spellsMember spelled
          exact ⟨front, part, back, [], [], rfl, rfl, spelledPart,
            fun other tree spelledOther => .one (fill other tree spelledOther)⟩
      | @more text others _ _ spelled behind =>
          rcases List.mem_cons.1 among with rfl | later
          · obtain ⟨front, part, back, rfl, spelledPart, fill⟩ :=
              exists_gap_of_spellsMember spelled
            refine ⟨front, part, back ++ ',' :: others, [], rest, rfl, by simp, spelledPart,
              fun other tree spelledOther => ?_⟩
            simpa using SpellsMembers.more (fill other tree spelledOther) behind
          · obtain ⟨front, part, back, first, last, rfl, rfl, spelledPart, fill⟩ :=
              induction behind later
            refine ⟨text ++ ',' :: front, part, back, member :: first, last, rfl, by simp,
              spelledPart, fun other tree spelledOther => ?_⟩
            simpa using SpellsMembers.more spelled (fill other tree spelledOther)

/-- Every member of an object stands in a gap. -/
theorem exists_gap (padded : SpellsPadded text (.object members)) (among : (key, json) ∈ members) :
    ∃ front part back first last, Gap key front back first last
      ∧ members = first ++ (key, json) :: last ∧ text = front ++ (part ++ back)
      ∧ Spells part json := by
  cases padded with
  | @mk before _ after _ blank spelled blankToo =>
      cases spelled with
      | emptyObject => cases among
      | @object inner _ spelled =>
          obtain ⟨front, part, back, first, last, rfl, rfl, spelledPart, fill⟩ :=
            exists_gap_of_spellsMembers spelled among
          refine ⟨before ++ '\x7b' :: front, part, back ++ '\x7d' :: after, first, last, ?_, rfl,
            by simp, spelledPart⟩
          intro other tree spelledOther
          have object := SpellsPadded.mk blank (.object (fill other tree spelledOther)) blankToo
          simpa using object

theorem exists_memberText (padded : SpellsPadded text (.object members))
    (among : (key, json) ∈ members) : ∃ part, MemberText key text part json := by
  obtain ⟨front, part, back, first, last, gap, _, shape, spelled⟩ := exists_gap padded among
  exact ⟨part, front, back, first, last, gap, shape, spelled⟩

/-- The text of the value under a key belongs to a member of the object that is spelled. -/
theorem MemberText.mem {part : List Char} (inside : MemberText key text part json)
    (padded : SpellsPadded text (.object members)) : (key, json) ∈ members := by
  obtain ⟨front, back, first, last, gap, rfl, spelled⟩ := inside
  obtain rfl := object.inj (spellsPadded_unique padded (gap spelled))
  simp

/-! ## Another value under a key -/

section Exchange

variable {key : String} {first last : List (String × Json)} {json other : Json}

/-- What holds everywhere in an object holds with another value under a key, if it holds of the
value. -/
theorem Everywhere.exchange {property : Nat → Json → Prop} {level : Nat}
    (everywhere : (Json.object (first ++ (key, json) :: last)).Everywhere property level)
    (root : property level (.object (first ++ (key, other) :: last)))
    (value : other.Everywhere property (level + 1)) :
    (Json.object (first ++ (key, other) :: last)).Everywhere property level := by
  have inside := (everywhere_object.1 everywhere).2
  simp only [List.forall_mem_append, List.forall_mem_cons] at inside
  rw [everywhere_object, List.forall_mem_append, List.forall_mem_cons]
  exact ⟨root, inside.1, value, inside.2.2⟩

theorem keys_exchange :
    (first ++ (key, other) :: last).map (·.1) = (first ++ (key, json) :: last).map (·.1) := by
  simp

theorem startsReserved_exchange :
    startsReserved (first ++ (key, other) :: last)
      = startsReserved (first ++ (key, json) :: last) := by
  cases first <;> rfl

/-- If an object with a plain key stands for something, then for an object, and one with a number
under the key stands for the same with this number. -/
theorem interpret_exchange {embedded : List Char → Except ReadError Json} {given : Json}
    (free : isReserved key = false)
    (stands : interpret (some embedded) (.object (first ++ (key, json) :: last)) = some given) :
    ∃ earlier value later, given = .object (earlier ++ (key, value) :: later)
      ∧ (earlier ++ (key, value) :: later).map (·.1) = (first ++ (key, json) :: last).map (·.1)
      ∧ ∀ other, other.isContainer = false →
        interpret (some embedded) (.object (first ++ (key, other) :: last))
          = some (.object (earlier ++ (key, other) :: later)) := by
  rw [interpret_object] at stands
  split at stands
  next reserved =>
    -- A reserved key in front would stand alone, and the key is not reserved.
    obtain ⟨name, text, single⟩ := single_of_unpack? stands
    have alone : first = [] := by
      cases first with
      | nil => rfl
      | cons => simp at single
    rw [alone, List.nil_append, startsReserved, free] at reserved
    cases reserved
  next plain =>
    obtain ⟨values, inside, rfl⟩ := Option.map_eq_some_iff.1 stands
    rw [interpretMembers_eq_some_iff, List.map_append, List.map_cons] at inside
    obtain ⟨earlier, behind, rfl, before, shape⟩ := List.map_eq_append_iff.1 inside.symm
    obtain ⟨⟨name, value⟩, later, rfl, here, after⟩ := List.map_eq_cons_iff.1 shape
    obtain rfl : name = key := (Prod.mk.inj here).1
    have keys {members values : List (String × Json)}
        (same : values.map (fun member => (member.1, some member.2))
          = members.map fun member => (member.1, interpret (some embedded) member.2)) :
        values.map (·.1) = members.map (·.1) := by
      simpa [Function.comp_def] using congrArg (List.map (·.1)) same
    refine ⟨earlier, value, later, rfl, by simp [keys before, keys after], fun other scalar => ?_⟩
    refine interpret_object_of_plain (fun _ => ?_) (interpretMembers_eq_some_iff.2 ?_)
    · rw [startsReserved_exchange]
      exact Bool.eq_false_iff.2 plain
    · simp only [List.map_append, List.map_cons, before, after, interpret_of_scalar scalar]

end Exchange

section Readers

variable {key : String} {front back part text : List Char} {first last : List (String × Json)}
  {json given : Json} {n : Numeral}

/-- A number has no keys, no levels and no strings. -/
theorem everywhere_number {property : Nat → Json → Prop} {level : Nat}
    (root : property level (.number n)) : (Json.number n).Everywhere property level :=
  everywhere_of_scalar rfl root

theorem readGuarded_exchange (gap : Gap key front back first last) (spelled : Spells part json)
    (read : readGuarded (front ++ (part ++ back)) = .ok given)
    (number : Spells text (.number n)) :
    readGuarded (front ++ (text ++ back)) = .ok (.object (first ++ (key, .number n) :: last)) := by
  obtain ⟨padded, unique, nests⟩ := readGuarded_eq_ok_iff.1 read
  obtain rfl := spellsPadded_unique padded (gap spelled)
  refine readGuarded_eq_ok_iff.2 ⟨gap number, ?_, ?_⟩
  · have keys := unique.root
    rw [KeysDistinct, ← @keys_exchange _ _ _ _ (.number n)] at keys
    exact unique.exchange keys (everywhere_number trivial)
  · exact nests.exchange (fun _ => by decide)
      (everywhere_number fun container => absurd container Bool.false_ne_true)

/-- The plain reader gives the number in its place. -/
theorem readPlain_exchange (gap : Gap key front back first last) (spelled : Spells part json)
    (free : isReserved key = false) (read : readPlain (front ++ (part ++ back)) = .ok given)
    (number : Spells text (.number n)) :
    ∃ earlier value later, given = .object (earlier ++ (key, value) :: later)
      ∧ (earlier ++ (key, value) :: later).map (·.1) = (first ++ (key, json) :: last).map (·.1)
      ∧ readPlain (front ++ (text ++ back))
        = .ok (.object (earlier ++ (key, .number n) :: later)) := by
  obtain ⟨tree, padded, nests, stands⟩ := readPlainWithin_eq_ok_iff.1 read
  obtain rfl := spellsPadded_unique padded (gap spelled)
  obtain ⟨earlier, value, later, rfl, keys, exchange⟩ := interpret_exchange free stands
  refine ⟨earlier, value, later, rfl, keys, ?_⟩
  refine readPlainWithin_eq_ok_iff.2 ⟨_, gap number, ?_, ?_⟩
  · exact nests.exchange (fun _ => by decide)
      (everywhere_number fun container => absurd container Bool.false_ne_true)
  · -- The strings of the object are shorter than both texts.
    rw [← exchange (.number n) rfl]
    have shorter : (object (first ++ (key, .number n) :: last)).Everywhere (fun _ node =>
        ∀ s, node = .string s → s.toList.length < (front ++ (part ++ back)).length) 1 :=
      (string_of_spellsPadded padded (Nat.le_refl _)).exchange nofun
        (everywhere_number fun _ same => Json.noConfusion same)
    have shorterToo := @string_of_spellsPadded _ _ _ 1 (gap number) (Nat.le_refl _)
    exact interpret_of_agree fun node member s string =>
      readPlainWithin_of_enough (shorterToo node member s string) (shorter node member s string)

end Readers

end SignedFacts.Json
