import SignedFacts.Proofs.Json.Completeness

/-!
# Texts that spell one tree

The blanks around a value belong to no tree, so a text may lose them.  Both readers
give the same for two texts that spell one tree (`readGuarded_of_same`,
`readPlain_of_same`).

The plain reader counts how deep texts are embedded in each other, and it counts down from
the length of the text, which differs.  But any number that is more than the length does
(`readPlainWithin_of_enough`): an embedded text is a string of the tree, and a string of a
tree is shorter than the text that spells the tree.
-/

namespace SignedFacts.Json

/-! ## What embedded texts stand for -/

section Interpret

variable {embedded other : List Char → Except ReadError Json}

/-- Two readings of the strings of a tree agree. -/
def AgreeOn (embedded other : List Char → Except ReadError Json) (node : Json) : Prop :=
  ∀ s, node = .string s → (embedded s.toList).toOption = (other s.toList).toOption

theorem unpack?_of_agree {members : List (String × Json)}
    (agree : ∀ member ∈ members, AgreeOn embedded other member.2) :
    unpack? embedded members = unpack? other members := by
  rw [unpack?.eq_def, unpack?.eq_def]
  split
  next key s => rw [agree (key, .string s) (.head _) s rfl]
  next => rfl

/-- What a tree stands for depends on how its own strings are read. -/
theorem interpret_of_agree {level : Nat} {json : Json}
    (agree : json.Everywhere (fun _ node => AgreeOn embedded other node) level) :
    interpret (some embedded) json = interpret (some other) json := by
  induction json using induct generalizing level with
  | array items induction =>
      have inside := (everywhere_array.1 agree).2
      have same : interpretItems (some embedded) items = interpretItems (some other) items := by
        ext values
        rw [interpretItems_eq_some_iff, interpretItems_eq_some_iff,
          List.map_congr_left fun item member => induction item member (inside item member)]
      rw [interpret, interpret, same]
  | object members induction =>
      have inside := (everywhere_object.1 agree).2
      have same : interpretMembers (some embedded) members
          = interpretMembers (some other) members := by
        ext values
        rw [interpretMembers_eq_some_iff, interpretMembers_eq_some_iff,
          List.map_congr_left fun member among =>
            congrArg (Prod.mk member.1) (induction member among (inside member among))]
      rw [interpret_object, interpret_object, same,
        unpack?_of_agree fun member among => (inside member among).root]
  | _ => rfl

end Interpret

/-! ## How deep texts are embedded -/

section Levels

variable {text : List Char}

/-- Two numbers to count down from that are both more than the length make no
difference. -/
theorem readPlainWithin_of_enough {level more : Nat} (enough : text.length < level)
    (enoughToo : text.length < more) :
    (readPlainWithin level text).toOption = (readPlainWithin more text).toOption := by
  -- The strings of a tree are shorter than its text, and are read with one less.
  induction length : text.length using Nat.strongRecOn generalizing text level more with
  | ind n induction =>
      subst length
      obtain ⟨level, rfl⟩ := Nat.exists_eq_add_one.2 (Nat.zero_lt_of_lt enough)
      obtain ⟨more, rfl⟩ := Nat.exists_eq_add_one.2 (Nat.zero_lt_of_lt enoughToo)
      have agree {json : Json} (padded : SpellsPadded text json) :
          interpret (some (readPlainWithin level)) json
            = interpret (some (readPlainWithin more)) json := by
        refine interpret_of_agree ((@string_of_spellsPadded _ _ _ 1 padded (Nat.le_refl _)).mono ?_)
        intro _ _ shorter s same
        have short := shorter s same
        exact induction _ short (by omega) (by omega) rfl
      ext given
      rw [toOption_eq_some_iff, toOption_eq_some_iff, readPlainWithin_eq_ok_iff,
        readPlainWithin_eq_ok_iff]
      exact exists_congr fun json => and_congr_right fun padded => by rw [agree padded]

end Levels

/-! ## One tree, two texts -/

section Texts

variable {text other : List Char} {json given : Json}

theorem readGuarded_of_same (padded : SpellsPadded text json) (same : SpellsPadded other json)
    (read : readGuarded text = .ok given) : readGuarded other = .ok given := by
  obtain ⟨spelled, admitted⟩ := readGuarded_eq_ok_iff.1 read
  obtain rfl := spellsPadded_unique padded spelled
  exact readGuarded_eq_ok_iff.2 ⟨same, admitted⟩

theorem readPlain_of_same (padded : SpellsPadded text json) (same : SpellsPadded other json)
    (read : readPlain text = .ok given) : readPlain other = .ok given := by
  obtain ⟨spelled, own, nests, stands⟩ := readPlainWithin_eq_ok_iff.1 read
  obtain rfl := spellsPadded_unique padded own
  refine readPlainWithin_eq_ok_iff.2 ⟨json, same, nests, ?_⟩
  rw [← stands]
  have shorter := @string_of_spellsPadded _ _ _ 1 padded (Nat.le_refl _)
  have shorterToo := @string_of_spellsPadded _ _ _ 1 same (Nat.le_refl _)
  exact interpret_of_agree fun node member s string =>
    readPlainWithin_of_enough (shorterToo node member s string) (shorter node member s string)

end Texts

end SignedFacts.Json
