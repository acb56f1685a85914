import SignedFacts.Proofs.Json.Part

/-!
# What a reader accepts

A reader accepts only texts that the grammar derives, and gives what the spelled
tree stands for.  The spelled tree keeps the nesting limit, and it repeats no key if
the reader guards keys (`spells_of_readText`).

The proof is an induction on the number of containers that may still be opened.
The loops are treated first, for any reader of one value that is `Sound`.
-/

namespace SignedFacts.Json

/-! ## What rules ask of a tree -/

/-- What a reader by these rules asks of everything in a tree, where containers
may stand at levels up to `top`. -/
def Rules.Admits (rules : Rules) (top level : Nat) (node : Json) : Prop :=
  (node.isContainer = true → level ≤ top) ∧ (rules.guardsKeys = true → node.KeysDistinct)

/-- What a reader of one value takes off the front of a text spells a tree that has a
property and stands for what the reader gives. -/
def Sound (embedded? : Option (List Char → Except ReadError Json)) (property : Json → Prop)
    (value : List Char → Except ReadError (Json × List Char)) : Prop :=
  ∀ text given rest, value text = .ok (given, rest) →
    ∃ json before spelled, interpret embedded? json = some given ∧ property json
      ∧ Blank before ∧ Spells spelled json ∧ text = before ++ (spelled ++ rest)

/-! ## Steps of the reader -/

section Steps

variable {rules : Rules} {bound depth : Nat} {text rest : List Char}

theorem readValue_scalar {c : Char} {more : List Char} (shape : skipSpace text = c :: more)
    (noArray : c ≠ '[') (noObject : c ≠ '\x7b') :
    readValue rules bound depth text = readScalar (c :: more) := by
  cases depth <;> simp [readValue, shape, noArray, noObject]

theorem readValue_array (shape : skipSpace text = '[' :: rest) :
    readValue rules bound (depth + 1) text
      = readArray (readValue rules bound depth) bound rest := by
  simp [readValue, shape]

theorem readValue_object (shape : skipSpace text = '\x7b' :: rest) :
    readValue rules bound (depth + 1) text
      = readObject rules (readValue rules bound depth) bound rest := by
  simp [readValue, shape]

end Steps

/-! ## Blanks in front -/

section Prepend

variable {blanks text : List Char}

theorem SpellsPadded.prepend {json : Json} (blank : Blank blanks)
    (spelled : SpellsPadded text json) : SpellsPadded (blanks ++ text) json := by
  cases spelled with
  | mk blankBefore value blankAfter =>
      rw [← List.append_assoc, ← List.append_assoc]
      exact .mk (blank_append blank blankBefore) value blankAfter

theorem SpellsItems.prepend {items : List Json} (blank : Blank blanks)
    (spelled : SpellsItems text items) : SpellsItems (blanks ++ text) items := by
  cases spelled with
  | one item => exact .one (item.prepend blank)
  | more item rest =>
      rw [← List.append_assoc]
      exact .more (item.prepend blank) rest

theorem SpellsMember.prepend {member : String × Json}
    (blank : Blank blanks) (spelled : SpellsMember text member) :
    SpellsMember (blanks ++ text) member := by
  cases spelled with
  | mk blankBefore key blankAfter padded =>
      rw [← List.append_assoc]
      exact .mk (blank_append blank blankBefore) key blankAfter padded

theorem SpellsMembers.prepend {members : List (String × Json)}
    (blank : Blank blanks) (spelled : SpellsMembers text members) :
    SpellsMembers (blanks ++ text) members := by
  cases spelled with
  | one member => exact .one (member.prepend blank)
  | more member rest =>
      rw [← List.append_assoc]
      exact .more (member.prepend blank) rest

end Prepend

/-! ## Loops -/

section Turns

variable {value : List Char → Except ReadError (Json × List Char)} {turns : Nat}

/-- A turn reads an item and ends the list or goes on behind a comma. -/
theorem readItems_turn {done : List Json} {text rest : List Char} {json : Json}
    (read : readItems value (turns + 1) done text = .ok (json, rest)) :
    ∃ item afterItem, value text = .ok (item, afterItem)
      ∧ ((skipSpace afterItem = ']' :: rest ∧ json = .array (done.reverse ++ [item]))
        ∨ ∃ behind, skipSpace afterItem = ',' :: behind
          ∧ readItems value turns (item :: done) behind = .ok (json, rest)) := by
  obtain ⟨⟨item, afterItem⟩, first, read⟩ := of_bind_eq_ok read
  refine ⟨item, afterItem, first, ?_⟩
  simp only at read
  split at read
  next => cases read
  next behind close =>
    cases read
    exact .inl ⟨close, by simp⟩
  next behind comma =>
    split at read
    next => cases read
    next => exact .inr ⟨behind, comma, read⟩
  next => cases read

theorem not_mem_keys {α : Type} {done : List (String × α)} {key : String}
    (fresh : done.any (·.1 = key) = false) : key ∉ done.map (·.1) := by
  intro member
  obtain ⟨entry, inside, same⟩ := List.mem_map.1 member
  have known : done.any (·.1 = key) = true :=
    List.any_eq_true.2 ⟨entry, inside, by simpa using same⟩
  rw [fresh] at known
  cases known

/-- A turn reads a key that is new if keys are guarded, reads a value, and ends
the object or goes on behind a comma. -/
theorem readMembers_turn {guardsKeys : Bool} {done : List (String × Json)}
    {text rest : List Char} {json : Json}
    (read : readMembers guardsKeys value (turns + 1) done text = .ok (json, rest)) :
    ∃ key afterKey item afterItem, readKey text = .ok (key, afterKey)
      ∧ value afterKey = .ok (item, afterItem)
      ∧ (guardsKeys = true → key ∉ done.map (·.1))
      ∧ ((skipSpace afterItem = '\x7d' :: rest ∧ json = .object (done.reverse ++ [(key, item)]))
        ∨ ∃ behind, skipSpace afterItem = ',' :: behind
          ∧ readMembers guardsKeys value turns ((key, item) :: done) (skipSpace behind)
            = .ok (json, rest)) := by
  obtain ⟨⟨key, afterKey⟩, keyed, read⟩ := of_bind_eq_ok read
  obtain ⟨⟨item, afterItem⟩, first, read⟩ := of_bind_eq_ok read
  simp only at read
  split at read
  next => cases read
  next unguarded =>
    refine ⟨key, afterKey, item, afterItem, keyed, first, fun guards => ?_, ?_⟩
    · simp only [guards, Bool.true_and, Bool.not_eq_true] at unguarded
      exact not_mem_keys unguarded
    · split at read
      next => cases read
      next behind close =>
        cases read
        exact .inl ⟨close, by simp⟩
      next behind comma =>
        split at read
        next => cases read
        next => cases read
        next => exact .inr ⟨behind, comma, read⟩
      next => cases read

end Turns

section Loops

variable {embedded? : Option (List Char → Except ReadError Json)} {property : Json → Prop}
  {value : List Char → Except ReadError (Json × List Char)}

/-- A value that was read stands with blanks around it before a comma or an
end. -/
theorem Sound.padded (sound : Sound embedded? property value) {text afterValue rest : List Char}
    {given : Json} {c : Char} (read : value text = .ok (given, afterValue))
    (visible : isSpace c = false) (next : skipSpace afterValue = c :: rest) :
    ∃ json spelled, interpret embedded? json = some given ∧ property json
      ∧ SpellsPadded spelled json ∧ text = spelled ++ c :: rest := by
  obtain ⟨json, before, spelled, stands, holds, blankBefore, spells, rfl⟩ := sound _ _ _ read
  obtain ⟨after, blankAfter, rfl⟩ := (skipSpace_eq_cons_iff visible).1 next
  exact ⟨json, _, stands, holds, .mk blankBefore spells blankAfter, by simp⟩

theorem spellsItems_of_readItems (sound : Sound embedded? property value) {turns : Nat}
    {done : List Json} {text rest : List Char} {given : Json}
    (read : readItems value turns done text = .ok (given, rest)) :
    ∃ items values spelled, interpretItems embedded? items = some values
      ∧ SpellsItems spelled items ∧ (∀ item ∈ items, property item)
      ∧ given = .array (done.reverse ++ values) ∧ text = spelled ++ ']' :: rest := by
  induction turns generalizing done text with
  | zero => cases read
  | succ turns induction =>
      obtain ⟨value, afterItem, first, turn⟩ := readItems_turn read
      rcases turn with ⟨close, rfl⟩ | ⟨behind, comma, later⟩
      · obtain ⟨item, spelled, stands, holds, spells, rfl⟩ := sound.padded first rfl close
        exact ⟨[item], [value], spelled, by simp [interpretItems, stands], .one spells,
          List.forall_mem_singleton.2 holds, rfl, rfl⟩
      · obtain ⟨item, spelled, stands, holds, spells, rfl⟩ := sound.padded first rfl comma
        obtain ⟨items, values, more, standMore, spellsMore, holdsMore, rfl, rfl⟩ := induction later
        exact ⟨item :: items, value :: values, _, by simp [interpretItems, stands, standMore],
          .more spells spellsMore, List.forall_mem_cons.2 ⟨holds, holdsMore⟩, by simp, by simp⟩

theorem spellsMembers_of_readMembers (sound : Sound embedded? property value) {guardsKeys : Bool}
    {turns : Nat} {done : List (String × Json)} {text rest : List Char} {given : Json}
    (distinct : guardsKeys = true → (done.map (·.1)).Nodup)
    (read : readMembers guardsKeys value turns done text = .ok (given, rest)) :
    ∃ members values spelled, interpretMembers embedded? members = some values
      ∧ SpellsMembers spelled members
      ∧ (∀ member ∈ members, property member.2)
      ∧ (guardsKeys = true → (done.reverse.map (·.1) ++ members.map (·.1)).Nodup)
      ∧ (∃ key afterKey, readKey text = .ok (key, afterKey)
        ∧ startsReserved members = isReserved key)
      ∧ given = .object (done.reverse ++ values) ∧ text = spelled ++ '\x7d' :: rest := by
  induction turns generalizing done text with
  | zero => cases read
  | succ turns induction =>
      obtain ⟨key, afterKey, value, afterItem, keyed, first, fresh, turn⟩ := readMembers_turn read
      obtain ⟨keyText, chars, after, spellsKey, blank, rfl, rfl⟩ := spells_of_readKey keyed
      have distinctNow (guards : guardsKeys = true) :
          (((String.ofList chars, value) :: done).map (·.1)).Nodup :=
        List.nodup_cons.2 ⟨fresh guards, distinct guards⟩
      rcases turn with ⟨close, rfl⟩ | ⟨behind, comma, later⟩
      · obtain ⟨item, spelled, stands, holds, spells, rfl⟩ := sound.padded first rfl close
        refine ⟨[(String.ofList chars, item)], [(String.ofList chars, value)], _,
          by simp [interpretMembers, stands], .one (.mk blank_nil spellsKey blank spells),
          List.forall_mem_singleton.2 holds, fun guards => ?_, ⟨_, _, keyed, rfl⟩, rfl, by simp⟩
        simpa using (List.reverse_perm _).symm.nodup (distinctNow guards)
      · obtain ⟨item, spelled, stands, holds, spells, rfl⟩ := sound.padded first rfl comma
        obtain ⟨members, values, more, standMore, spellsMore, holdsMore, distinctMore, _, rfl,
          shape⟩ := induction distinctNow later
        -- The blanks behind the comma belong to the next member.
        obtain ⟨blanks, blankMore, whole⟩ := exists_blank_skipSpace behind
        refine ⟨(String.ofList chars, item) :: members, (String.ofList chars, value) :: values, _,
          by simp [interpretMembers, stands, standMore],
          .more (.mk blank_nil spellsKey blank spells) (spellsMore.prepend blankMore),
          List.forall_mem_cons.2 ⟨holds, holdsMore⟩, by simpa using distinctMore,
          ⟨_, _, keyed, rfl⟩, by simp, ?_⟩
        rw [whole, shape]
        simp

end Loops

/-! ## Reserved keys -/

section Reserved

variable {text rest : List Char}

theorem string_of_readStringFor {expected : String} {chars : List Char}
    (read : readStringFor expected text = .ok (chars, rest)) :
    ∃ before quoted, Blank before ∧ SpellsString quoted chars
      ∧ text = before ++ '"' :: (quoted ++ '"' :: rest) := by
  rw [readStringFor.eq_def] at read
  split at read
  next behind quote =>
    obtain ⟨before, blank, rfl⟩ := (skipSpace_eq_cons_iff rfl).1 quote
    obtain ⟨quoted, spelled, rfl⟩ := spellsString_of_scanString_nil read
    exact ⟨before, quoted, blank, spelled, rfl⟩
  next => cases read

/-- Behind a reserved key stands a string, and it is the last thing in the object. -/
theorem spells_of_readReserved {embedded : List Char → Except ReadError Json} {key : String}
    {given : Json} (read : readReserved embedded key text = .ok (given, rest)) :
    ∃ content spelled, unpack? embedded [(key, .string content)] = some given
      ∧ SpellsPadded spelled (.string content) ∧ text = spelled ++ '\x7d' :: rest := by
  have padded {expected : String} {chars behind : List Char}
      (opened : readStringFor expected text = .ok (chars, behind))
      (closed : closeObject behind = .ok rest) :
      ∃ spelled, SpellsPadded spelled (.string (String.ofList chars))
        ∧ text = spelled ++ '\x7d' :: rest := by
    obtain ⟨before, quoted, blank, spells, rfl⟩ := string_of_readStringFor opened
    obtain ⟨after, blankAfter, rfl⟩ := closeObject_eq_ok_iff.1 closed
    exact ⟨_, .mk blank (.string spells) blankAfter, by simp⟩
  rw [readReserved] at read
  split at read
  next number =>
    obtain ⟨⟨chars, behind⟩, opened, read⟩ := of_bind_eq_ok read
    obtain ⟨value, numberRead, read⟩ := of_bind_eq_ok read
    obtain ⟨last, closed, same⟩ := of_bind_eq_ok read
    cases same
    obtain ⟨spelled, spells, shape⟩ := padded opened closed
    exact ⟨_, spelled, by simp [unpack?, number, numberRead, Except.toOption], spells, shape⟩
  next other =>
    obtain ⟨⟨chars, behind⟩, opened, read⟩ := of_bind_eq_ok read
    obtain ⟨value, textRead, read⟩ := of_bind_eq_ok read
    obtain ⟨last, closed, same⟩ := of_bind_eq_ok read
    cases same
    obtain ⟨spelled, spells, shape⟩ := padded opened closed
    exact ⟨_, spelled, by simp [unpack?, other, textRead, Except.toOption], spells, shape⟩

end Reserved

/-! ## Values and texts -/

section Values

variable {rules : Rules} {bound top : Nat}

theorem scalar_sound {level : Nat} {text rest before : List Char} {given : Json}
    (blank : Blank before) (read : readScalar text = .ok (given, rest)) :
    ∃ json blanks spelled, interpret rules.embedded? json = some given
      ∧ json.Everywhere (rules.Admits top) level ∧ Blank blanks ∧ Spells spelled json
      ∧ before ++ text = blanks ++ (spelled ++ rest) := by
  obtain ⟨scalar, spelled, spells, rfl⟩ := spells_of_readScalar read
  refine ⟨given, before, spelled, interpret_of_scalar scalar,
    everywhere_of_scalar scalar ⟨by simp [scalar], fun _ => ?_⟩, blank, spells, rfl⟩
  cases given with
  | object => cases scalar
  | _ => trivial

theorem array_sound {level : Nat} {value : List Char → Except ReadError (Json × List Char)}
    (room : level ≤ top)
    (sound : Sound rules.embedded? (fun json => json.Everywhere (rules.Admits top) (level + 1))
      value)
    {text rest : List Char} {given : Json} (read : readArray value bound text = .ok (given, rest)) :
    ∃ json spelled, interpret rules.embedded? json = some given
      ∧ json.Everywhere (rules.Admits top) level ∧ Spells spelled json
      ∧ '[' :: text = spelled ++ rest := by
  have root (items : List Json) : rules.Admits top level (.array items) :=
    ⟨fun _ => room, fun _ => trivial⟩
  rw [readArray.eq_def] at read
  split at read
  next => cases read
  next behind close =>
    cases read
    obtain ⟨blanks, blank, rfl⟩ := (skipSpace_eq_cons_iff rfl).1 close
    exact ⟨.array [], _, rfl, everywhere_array.2 ⟨root [], by simp⟩, .emptyArray blank, by simp⟩
  next =>
    obtain ⟨items, values, spelled, stand, spells, holds, rfl, shape⟩ :=
      spellsItems_of_readItems sound read
    obtain ⟨blanks, blank, whole⟩ := exists_blank_skipSpace text
    refine ⟨.array items, _, by rw [interpret, stand]; rfl, everywhere_array.2 ⟨root _, holds⟩,
      .array (spells.prepend blank), ?_⟩
    rw [whole, shape]
    simp

section Objects

variable {level : Nat} {text rest : List Char} {given : Json}

theorem members_sound {value : List Char → Except ReadError (Json × List Char)}
    (room : level ≤ top)
    (sound : Sound rules.embedded? (fun json => json.Everywhere (rules.Admits top) (level + 1))
      value)
    (front : rules.embedded?.isSome = true →
      ∀ key afterKey, readKey (skipSpace text) = .ok (key, afterKey) → isReserved key = false)
    (read : readMembers rules.guardsKeys value bound [] (skipSpace text) = .ok (given, rest)) :
    ∃ json spelled, interpret rules.embedded? json = some given
      ∧ json.Everywhere (rules.Admits top) level ∧ Spells spelled json
      ∧ '\x7b' :: text = spelled ++ rest := by
  obtain ⟨members, values, spelled, stand, spells, holds, distinct, ⟨key, afterKey, keyed, first⟩,
    rfl, shape⟩ := spellsMembers_of_readMembers sound (by simp) read
  obtain ⟨blanks, blank, whole⟩ := exists_blank_skipSpace text
  have plain (meaning : rules.embedded?.isSome = true) : startsReserved members = false :=
    first.trans (front meaning key afterKey keyed)
  refine ⟨.object members, _, interpret_object_of_plain plain stand,
    everywhere_object.2 ⟨⟨fun _ => room, distinct⟩, holds⟩, .object (spells.prepend blank), ?_⟩
  rw [whole, shape]
  simp

theorem reserved_sound {embedded : List Char → Except ReadError Json} {key : String}
    {afterKey : List Char} (room : level ≤ top)
    (keyed : readKey (skipSpace text) = .ok (key, afterKey)) (reserved : isReserved key = true)
    (read : readReserved embedded key afterKey = .ok (given, rest)) :
    ∃ json spelled, interpret (some embedded) json = some given
      ∧ json.Everywhere (rules.Admits top) level ∧ Spells spelled json
      ∧ '\x7b' :: text = spelled ++ rest := by
  obtain ⟨content, inner, unpacked, padded, rfl⟩ := spells_of_readReserved read
  obtain ⟨keyText, chars, after, spellsKey, blankAfter, rfl, shape⟩ := spells_of_readKey keyed
  obtain ⟨blanks, blank, whole⟩ := exists_blank_skipSpace text
  have member := SpellsMember.mk blank spellsKey blankAfter padded
  refine ⟨_, _, ?_, ?_, .object (.one member), ?_⟩
  · rw [interpret_object, startsReserved, if_pos reserved, unpacked]
  · exact everywhere_object.2 ⟨⟨fun _ => room, fun _ => by simp [KeysDistinct]⟩,
      List.forall_mem_singleton.2 (everywhere_of_scalar rfl ⟨nofun, fun _ => trivial⟩)⟩
  · rw [whole, shape]
    simp

theorem object_sound {value : List Char → Except ReadError (Json × List Char)}
    (room : level ≤ top)
    (sound : Sound rules.embedded? (fun json => json.Everywhere (rules.Admits top) (level + 1))
      value)
    (read : readObject rules value bound text = .ok (given, rest)) :
    ∃ json spelled, interpret rules.embedded? json = some given
      ∧ json.Everywhere (rules.Admits top) level ∧ Spells spelled json
      ∧ '\x7b' :: text = spelled ++ rest := by
  rw [readObject.eq_def] at read
  split at read
  next => cases read
  next behind close =>
    cases read
    obtain ⟨blanks, blank, rfl⟩ := (skipSpace_eq_cons_iff rfl).1 close
    exact ⟨.object [], _, interpret_object_of_plain (fun _ => rfl) rfl,
      everywhere_object.2 ⟨⟨fun _ => room, fun _ => List.nodup_nil⟩, by simp⟩, .emptyObject blank,
      by simp⟩
  next =>
    split at read
    next plain => exact members_sound room sound (by simp [plain]) read
    next embedded meaning =>
      split at read
      next => cases read
      next key afterKey keyed =>
        split at read
        next reserved =>
          rw [meaning]
          exact reserved_sound room keyed reserved read
        next other =>
          refine members_sound room sound (fun _ again afterAgain same => ?_) read
          cases keyed.symm.trans same
          exact Bool.eq_false_iff.2 other

end Objects

theorem readValue_sound {depth level : Nat} (room : level + depth = top + 1) :
    Sound rules.embedded? (fun json => json.Everywhere (rules.Admits top) level)
      (readValue rules bound depth) := by
  induction depth generalizing level with
  | zero =>
      intro text given rest read
      obtain ⟨before, blank, whole⟩ := exists_blank_skipSpace text
      rw [readValue] at read
      split at read
      next => cases read
      next => cases read
      next =>
        rw [whole]
        exact scalar_sound blank read
  | succ depth induction =>
      have inner := @induction (level + 1) (by omega)
      intro text given rest read
      obtain ⟨before, blank, whole⟩ := exists_blank_skipSpace text
      rw [readValue] at read
      split at read
      next behind bracket =>
        obtain ⟨json, spelled, stands, holds, spells, same⟩ := array_sound (by omega) inner read
        exact ⟨json, before, spelled, stands, holds, blank, spells, by rw [whole, bracket, same]⟩
      next behind brace =>
        obtain ⟨json, spelled, stands, holds, spells, same⟩ := object_sound (by omega) inner read
        exact ⟨json, before, spelled, stands, holds, blank, spells, by rw [whole, brace, same]⟩
      next =>
        rw [whole]
        exact scalar_sound blank read

/-- A text that a reader accepts spells a tree that the rules admit and that stands for
what the reader gives. -/
theorem spells_of_readText {text : List Char} {given : Json}
    (read : readText rules text = .ok given) :
    ∃ json, SpellsPadded text json ∧ json.Everywhere (rules.Admits maxOpen) 1
      ∧ interpret rules.embedded? json = some given := by
  obtain ⟨⟨value, after⟩, first, read⟩ := of_bind_eq_ok read
  simp only at read
  split at read
  next ends =>
    cases read
    obtain ⟨json, before, spelled, stands, holds, blank, spells, whole⟩ :=
      readValue_sound (Nat.add_comm 1 maxOpen) text given after first
    obtain ⟨blanks, blankAfter, same⟩ := exists_blank_skipSpace after
    rw [List.isEmpty_iff.1 ends, List.append_nil] at same
    subst same
    rw [← List.append_assoc] at whole
    exact ⟨json, whole ▸ .mk blank spells blankAfter, holds, stands⟩
  next => cases read

end Values

end SignedFacts.Json
