import SignedFacts.Proofs.Json.Soundness

/-!
# What a reader makes of a text

On a text that the grammar derives, a reader by any rules gives the tree of the
text, interpreted by its rules, or refuses the text if there is no such tree
(`readText_of_spells`).  The tree must keep what the rules ask of it.

The induction is on the levels that are left.  A level reads its values by the
level below, and the loops of a level take one turn for each item.
`readItems_last`, `readItems_more` and their like for members say what a turn
does with whatever the reader of values gives.

At the end stand what the guard accepts (`readGuarded_eq_ok_iff`), what the
plain reader makes of such a text (`readPlain_eq_ok_iff`), and that no text
spells two trees (`spellsPadded_unique`).
-/

namespace SignedFacts.Json

/-! ## The front of a text -/

/-- A value begins with a character that is no blank, no bracket that closes
and no quote unless it is a string. -/
theorem head_of_spells {text : List Char} {json : Json} (spelled : Spells text json) :
    ∃ c more, text = c :: more ∧ isSpace c = false ∧ c ≠ ']'
      ∧ (c = '"' → ∃ s, json = .string s) := by
  cases spelled with
  | number spelled =>
      obtain ⟨c, more, rfl, head⟩ := head_of_spellsNumber spelled
      have other : c ≠ ']' ∧ c ≠ '"' := by
        constructor <;> rintro rfl <;> revert head <;> decide
      exact ⟨c, more, rfl, (of_scalarHead (.inr (.inr (.inr (.inr head))))).1, other.1,
        fun quote => absurd quote other.2⟩
  | string spelled => exact ⟨_, _, rfl, by decide, by decide, fun _ => ⟨_, rfl⟩⟩
  | _ => exact ⟨_, _, rfl, by decide, by decide, fun quote => absurd quote (by decide)⟩

theorem endsNumber_cons {c : Char} (other : c.isDigit = false ∧ c ≠ '.'
    ∧ Numeral.isExponentMark c = false) (rest : List Char) : EndsNumber (c :: rest) :=
  fun _ first => Option.some.inj first ▸ other

/-- Blanks are no part of a number. -/
theorem endsNumber_append {blanks rest : List Char} (blank : Blank blanks)
    (ends : EndsNumber rest) : EndsNumber (blanks ++ rest) := by
  cases blanks with
  | nil => exact ends
  | cons c blanks =>
      refine endsNumber_cons ?_ _
      have space := blank c (.head _)
      simp only [isSpace, Bool.or_eq_true, decide_eq_true_eq] at space
      rcases space with ((rfl | rfl) | rfl) | rfl <;> decide

theorem skipSpace_ne_nil {c : Char} (visible : isSpace c = false) (text rest : List Char) :
    skipSpace (text ++ c :: rest) ≠ [] := by
  intro ends
  obtain ⟨blanks, blank, whole⟩ := exists_blank_skipSpace (text ++ c :: rest)
  rw [ends, List.append_nil] at whole
  have space := blank c (whole ▸ List.mem_append_right _ (.head _))
  rw [visible] at space
  cases space

theorem skipSpace_idem (text : List Char) : skipSpace (skipSpace text) = skipSpace text := by
  obtain ⟨blanks, blank, whole⟩ := exists_blank_skipSpace text
  exact (skipSpace_append blank _).symm.trans (congrArg skipSpace whole.symm)

theorem readValue_skipSpace {rules : Rules} {bound depth : Nat} (text : List Char) :
    readValue rules bound depth (skipSpace text) = readValue rules bound depth text := by
  cases depth <;> simp only [readValue, skipSpace_idem]

theorem readItems_skipSpace {rules : Rules} {bound depth turns : Nat} {done : List Json}
    (text : List Char) :
    readItems (readValue rules bound depth) turns done (skipSpace text)
      = readItems (readValue rules bound depth) turns done text := by
  cases turns <;> simp only [readItems, readValue_skipSpace]

/-! ## Turns of the loops -/

theorem unguarded_of_fresh {α : Type} {guardsKeys : Bool} {done : List (String × α)}
    {key : String} (fresh : guardsKeys = true → key ∉ done.map (·.1)) :
    (guardsKeys && done.any (·.1 = key)) = false := by
  cases guardsKeys with
  | false => rfl
  | true =>
      rw [Bool.true_and, ← Bool.not_eq_true, List.any_eq_true]
      rintro ⟨entry, inside, same⟩
      exact fresh rfl (List.mem_map.2 ⟨entry, inside, of_decide_eq_true same⟩)

section Turns

variable {value : List Char → Except ReadError (Json × List Char)} {turns : Nat}
  {text after rest : List Char} {value? : Option Json}

theorem of_toOption_eq_map {ε α β : Type} {result : Except ε (α × β)} {value? : Option α}
    {rest : β} (given : result.toOption = value?.map (·, rest)) :
    (value? = none ∧ ∃ e, result = .error e)
      ∨ ∃ a, value? = some a ∧ result = .ok (a, rest) := by
  cases result with
  | error e =>
      cases value? with
      | none => exact Or.inl ⟨rfl, e, rfl⟩
      | some a => cases given
  | ok pair =>
      cases value? with
      | none => cases given
      | some a => exact Or.inr ⟨a, rfl, congrArg Except.ok (Option.some.inj given)⟩

theorem readItems_last {done : List Json} (blank : Blank after)
    (given : (value text).toOption = value?.map (·, after ++ ']' :: rest)) :
    (readItems value (turns + 1) done text).toOption
      = value?.map fun item => (.array (item :: done).reverse, rest) := by
  have close : skipSpace (after ++ ']' :: rest) = ']' :: rest :=
    (skipSpace_eq_cons_iff rfl).2 ⟨after, blank, rfl⟩
  rcases of_toOption_eq_map given with ⟨rfl, e, failed⟩ | ⟨item, rfl, read⟩
  · simp [readItems, failed, bind, Except.bind, Except.toOption]
  · simp [readItems, read, close, bind, Except.bind, Except.toOption]

theorem readItems_more {done : List Json} (blank : Blank after)
    (open_ : ∀ more, skipSpace rest ≠ ']' :: more)
    (given : (value text).toOption = value?.map (·, after ++ ',' :: rest)) :
    (readItems value (turns + 1) done text).toOption
      = value?.bind fun item => (readItems value turns (item :: done) rest).toOption := by
  have comma : skipSpace (after ++ ',' :: rest) = ',' :: rest :=
    (skipSpace_eq_cons_iff rfl).2 ⟨after, blank, rfl⟩
  rcases of_toOption_eq_map given with ⟨rfl, e, failed⟩ | ⟨item, rfl, read⟩
  · simp [readItems, failed, bind, Except.bind, Except.toOption]
  · simp only [readItems, read, comma, bind, Except.bind, Option.bind_some]

variable {guardsKeys : Bool} {done : List (String × Json)} {key : String} {valueText : List Char}

theorem readMembers_last (keyed : readKey text = .ok (key, valueText))
    (fresh : guardsKeys = true → key ∉ done.map (·.1)) (blank : Blank after)
    (given : (value valueText).toOption = value?.map (·, after ++ '\x7d' :: rest)) :
    (readMembers guardsKeys value (turns + 1) done text).toOption
      = value?.map fun item => (.object ((key, item) :: done).reverse, rest) := by
  have close : skipSpace (after ++ '\x7d' :: rest) = '\x7d' :: rest :=
    (skipSpace_eq_cons_iff rfl).2 ⟨after, blank, rfl⟩
  rcases of_toOption_eq_map given with ⟨rfl, e, failed⟩ | ⟨item, rfl, read⟩
  · simp [readMembers, keyed, failed, bind, Except.bind, Except.toOption]
  · simp [readMembers, keyed, read, close, unguarded_of_fresh fresh, bind, Except.bind,
      Except.toOption]

theorem readMembers_more (keyed : readKey text = .ok (key, valueText))
    (fresh : guardsKeys = true → key ∉ done.map (·.1)) (blank : Blank after) {more : List Char}
    (quote : skipSpace rest = '"' :: more)
    (given : (value valueText).toOption = value?.map (·, after ++ ',' :: rest)) :
    (readMembers guardsKeys value (turns + 1) done text).toOption
      = value?.bind fun item =>
          (readMembers guardsKeys value turns ((key, item) :: done) ('"' :: more)).toOption := by
  have comma : skipSpace (after ++ ',' :: rest) = ',' :: rest :=
    (skipSpace_eq_cons_iff rfl).2 ⟨after, blank, rfl⟩
  rcases of_toOption_eq_map given with ⟨rfl, e, failed⟩ | ⟨item, rfl, read⟩
  · simp [readMembers, keyed, failed, bind, Except.bind, Except.toOption]
  · simp [readMembers, keyed, read, comma, quote, unguarded_of_fresh fresh, bind, Except.bind]

end Turns

/-! ## Reserved keys -/

section Reserved

variable {text : List Char} {json : Json} {key : String}
  {embedded : List Char → Except ReadError Json}

theorem readStringFor_string {after chars rest : List Char} {before : List Char}
    (expected : String) (blank : Blank before) (spelled : SpellsString text chars) :
    readStringFor expected (before ++ ('"' :: text ++ ['"']) ++ after ++ rest)
      = .ok (chars, after ++ rest) := by
  rw [readStringFor.eq_def]
  simp [skipSpace_append blank, skipSpace_cons, isSpace, scanString_append spelled]

theorem readStringFor_other (expected : String) (padded : SpellsPadded text json)
    (other : ∀ s, json ≠ .string s) (rest : List Char) :
    ∃ e, readStringFor expected (text ++ rest) = .error e := by
  cases padded with
  | mk blank spelled _ =>
      obtain ⟨c, more, rfl, visible, _, quote⟩ := head_of_spells spelled
      rw [readStringFor.eq_def]
      simp only [List.append_assoc, List.cons_append, skipSpace_append blank,
        skipSpace_cons visible]
      split
      next same =>
        obtain ⟨s, rfl⟩ := quote (List.cons.inj same).1
        exact absurd rfl (other s)
      next => exact ⟨_, rfl⟩

/-- A padded string is blanks, quotes and blanks. -/
theorem string_of_padded {s : String} (padded : SpellsPadded text (.string s)) :
    ∃ before quoted after, Blank before ∧ Blank after ∧ SpellsString quoted s.toList
      ∧ text = before ++ ('"' :: quoted ++ ['"']) ++ after := by
  cases padded with
  | mk blankBefore spelled blankAfter =>
      cases spelled with
      | string spelled =>
          rw [String.toList_ofList]
          exact ⟨_, _, _, blankBefore, blankAfter, spelled, rfl⟩

/-- Behind a reserved key a string that closes the object stands for its
content. -/
theorem readReserved_last (padded : SpellsPadded text json) (rest : List Char) :
    (readReserved embedded key (text ++ '\x7d' :: rest)).toOption
      = (unpack? embedded [(key, json)]).map (·, rest) := by
  cases json with
  | string s =>
      obtain ⟨before, quoted, after, blankBefore, blankAfter, spelled, rfl⟩ :=
        string_of_padded padded
      have close : closeObject (after ++ '\x7d' :: rest) = .ok rest :=
        closeObject_eq_ok_iff.2 ⟨after, blankAfter, rfl⟩
      simp only [readReserved, unpack?, readStringFor_string _ blankBefore spelled, bind,
        Except.bind]
      split
      · cases readNumberText s.toList <;> simp [close, Except.toOption]
      · cases embedded s.toList <;> simp [close, Except.toOption]
  | _ =>
      simp only [readReserved, unpack?, bind, Except.bind]
      split
      · obtain ⟨e, failed⟩ := readStringFor_other "string containing a number" padded
          (by simp) ('\x7d' :: rest)
        simp [failed, Except.toOption]
      · obtain ⟨e, failed⟩ := readStringFor_other "raw value" padded (by simp) ('\x7d' :: rest)
        simp [failed, Except.toOption]

/-- Behind a reserved key no second member may follow. -/
theorem readReserved_more (padded : SpellsPadded text json) (rest : List Char) :
    (readReserved embedded key (text ++ ',' :: rest)).toOption = none := by
  cases json with
  | string s =>
      obtain ⟨before, quoted, after, blankBefore, blankAfter, spelled, rfl⟩ :=
        string_of_padded padded
      have comma : skipSpace (after ++ ',' :: rest) = ',' :: rest :=
        (skipSpace_eq_cons_iff rfl).2 ⟨after, blankAfter, rfl⟩
      have close : closeObject (after ++ ',' :: rest) = .error .trailingComma := by
        simp [closeObject, comma]
      simp only [readReserved, readStringFor_string _ blankBefore spelled, bind, Except.bind]
      split
      · cases readNumberText s.toList <;> simp [close, Except.toOption]
      · cases embedded s.toList <;> simp [close, Except.toOption]
  | _ =>
      simp only [readReserved, bind, Except.bind]
      split
      · obtain ⟨e, failed⟩ := readStringFor_other "string containing a number" padded
          (by simp) (',' :: rest)
        simp [failed, Except.toOption]
      · obtain ⟨e, failed⟩ := readStringFor_other "raw value" padded (by simp) (',' :: rest)
        simp [failed, Except.toOption]

end Reserved

/-! ## Loops -/

/-- A reader of one value gives what a tree stands for, from any text of at most
`bound` characters that spells it, if the tree has a property. -/
def Complete (embedded? : Option (List Char → Except ReadError Json)) (bound : Nat)
    (property : Json → Prop) (value : List Char → Except ReadError (Json × List Char)) : Prop :=
  ∀ before text rest json, Blank before → Spells text json → text.length ≤ bound →
    property json → EndsNumber rest →
      (value (before ++ (text ++ rest))).toOption = (interpret embedded? json).map (·, rest)

section Loops

variable {embedded? : Option (List Char → Except ReadError Json)} {bound : Nat}
  {property : Json → Prop} {value : List Char → Except ReadError (Json × List Char)}

theorem Complete.padded (complete : Complete embedded? bound property value)
    {text : List Char} {json : Json} (padded : SpellsPadded text json)
    (room : text.length ≤ bound) (holds : property json) (c : Char) (rest : List Char)
    (other : c.isDigit = false ∧ c ≠ '.' ∧ Numeral.isExponentMark c = false) :
    ∃ after, Blank after ∧ (value (text ++ c :: rest)).toOption
      = (interpret embedded? json).map (·, after ++ c :: rest) := by
  cases padded with
  | @mk before inner after json blankBefore spelled blankAfter =>
      refine ⟨after, blankAfter, ?_⟩
      simp only [List.append_assoc]
      refine complete before inner _ json blankBefore spelled ?_ holds
        (endsNumber_append blankAfter (endsNumber_cons other rest))
      simp only [List.length_append] at room
      omega

/-- A text of items begins with a character that is no blank and closes no
list. -/
theorem head_of_spellsItems {text : List Char} {items : List Json}
    (spelled : SpellsItems text items) (rest more : List Char) :
    skipSpace (text ++ rest) ≠ ']' :: more := by
  have head {text : List Char} {json : Json} (padded : SpellsPadded text json)
      (rest : List Char) : skipSpace (text ++ rest) ≠ ']' :: more := by
    cases padded with
    | mk blank spelled _ =>
        obtain ⟨c, _, rfl, visible, noBracket, _⟩ := head_of_spells spelled
        simp only [List.append_assoc, List.cons_append, skipSpace_append blank,
          skipSpace_cons visible]
        exact fun same => noBracket (List.cons.inj same).1
  cases spelled with
  | one padded => exact head padded rest
  | more padded _ =>
      rw [List.append_assoc]
      exact head padded _

theorem length_of_spellsItems {text : List Char} {items : List Json}
    (spelled : SpellsItems text items) : items.length ≤ text.length + 1 := by
  induction items generalizing text with
  | nil => exact Nat.zero_le _
  | cons item items induction =>
      cases spelled with
      | one => simp
      | more _ others =>
          have := induction others
          simp only [List.length_append, List.length_cons]
          omega

/-- The loop over items gives what they stand for. -/
theorem readItems_of_spells (complete : Complete embedded? bound property value)
    {items : List Json} {turns : Nat} {done : List Json} {text rest : List Char}
    (spelled : SpellsItems text items) (room : text.length ≤ bound)
    (holds : ∀ item ∈ items, property item) (enough : items.length ≤ turns) :
    (readItems value turns done (text ++ ']' :: rest)).toOption
      = (interpretItems embedded? items).map fun values =>
          (.array (done.reverse ++ values), rest) := by
  induction items generalizing turns done text with
  | nil => cases spelled
  | cons item items induction =>
      obtain ⟨turns, rfl⟩ : ∃ fewer, turns = fewer + 1 :=
        Nat.exists_eq_add_one.2 (Nat.lt_of_lt_of_le (by simp) enough)
      obtain ⟨first, others⟩ := List.forall_mem_cons.1 holds
      cases spelled with
      | one padded =>
          obtain ⟨after, blank, given⟩ :=
            complete.padded padded room first ']' rest (by decide)
          rw [readItems_last blank given, interpretItems]
          cases interpret embedded? item <;> simp [interpretItems]
      | @more text more _ _ padded spelled =>
          simp only [List.length_append, List.length_cons] at room enough
          obtain ⟨after, blank, given⟩ :=
            complete.padded padded (by omega) first ',' (more ++ ']' :: rest) (by decide)
          rw [List.append_assoc, List.cons_append,
            readItems_more blank (head_of_spellsItems spelled _) given, interpretItems]
          cases interpret embedded? item with
          | none => rfl
          | some value =>
              rw [Option.bind_some, induction spelled (by omega) others (by omega)]
              simp [Function.comp_def]

/-- The text of members begins with the key of the first. -/
theorem key_of_spellsMembers {text : List Char} {key : String} {json : Json}
    {members : List (String × Json)} (spelled : SpellsMembers text ((key, json) :: members)) :
    ∃ more valueText, (∀ rest, skipSpace (text ++ rest) = '"' :: (more ++ rest))
      ∧ (∀ rest, readKey ('"' :: (more ++ rest)) = .ok (key, valueText ++ rest))
      ∧ valueText.length ≤ text.length
      ∧ ((SpellsPadded valueText json ∧ members = [])
        ∨ ∃ first others, valueText = first ++ ',' :: others ∧ SpellsPadded first json
          ∧ SpellsMembers others members) := by
  cases spelled with
  | one member =>
      cases member with
      | @mk before keyText chars after valueText json blank spelled blankAfter padded =>
          refine ⟨keyText ++ '"' :: (after ++ ':' :: valueText), valueText, fun rest => ?_,
            fun rest => ?_, ?_, .inl ⟨padded, rfl⟩⟩
          · simp [skipSpace_append blank, skipSpace_cons, isSpace]
          · simpa using readKey_append spelled blankAfter (valueText ++ rest)
          · simp only [List.length_append, List.length_cons]
            omega
  | @more text others _ _ member spelledOthers =>
      cases member with
      | @mk before keyText chars after valueText json blank spelled blankAfter padded =>
          refine ⟨keyText ++ '"' :: (after ++ ':' :: (valueText ++ ',' :: others)),
            valueText ++ ',' :: others, fun rest => ?_, fun rest => ?_, ?_,
            .inr ⟨valueText, others, rfl, padded, spelledOthers⟩⟩
          · simp [skipSpace_append blank, skipSpace_cons, isSpace]
          · simpa using readKey_append spelled blankAfter (valueText ++ ',' :: (others ++ rest))
          · simp only [List.length_append, List.length_cons]
            omega

theorem quote_of_spellsMembers {text : List Char} {members : List (String × Json)}
    (spelled : SpellsMembers text members) :
    ∃ more, ∀ rest, skipSpace (text ++ rest) = '"' :: (more ++ rest) := by
  cases members with
  | nil => cases spelled
  | cons member members =>
      obtain ⟨more, _, front, _⟩ := key_of_spellsMembers spelled
      exact ⟨more, front⟩

theorem length_of_spellsMembers {text : List Char} {members : List (String × Json)}
    (spelled : SpellsMembers text members) : members.length ≤ text.length + 1 := by
  induction members generalizing text with
  | nil => exact Nat.zero_le _
  | cons member members induction =>
      cases spelled with
      | one => simp
      | more _ others =>
          have := induction others
          simp only [List.length_append, List.length_cons]
          omega

/-- The loop over members gives what they stand for. -/
theorem readMembers_of_spells (complete : Complete embedded? bound property value)
    {guardsKeys : Bool} {members : List (String × Json)} {turns : Nat}
    {done : List (String × Json)} {text rest : List Char}
    (spelled : SpellsMembers text members) (room : text.length ≤ bound)
    (holds : ∀ member ∈ members, property member.2) (enough : members.length ≤ turns)
    (distinct : guardsKeys = true → ((done.reverse ++ members).map (·.1)).Nodup) :
    (readMembers guardsKeys value turns done (skipSpace (text ++ '\x7d' :: rest))).toOption
      = (interpretMembers embedded? members).map fun values =>
          (.object (done.reverse ++ values), rest) := by
  induction members generalizing turns done text with
  | nil => cases spelled
  | cons member members induction =>
      obtain ⟨key, json⟩ := member
      obtain ⟨turns, rfl⟩ : ∃ fewer, turns = fewer + 1 :=
        Nat.exists_eq_add_one.2 (Nat.lt_of_lt_of_le (Nat.zero_lt_succ _) enough)
      obtain ⟨first, others⟩ := List.forall_mem_cons.1 holds
      obtain ⟨more, valueText, front, keyed, shorter, shape⟩ := key_of_spellsMembers spelled
      have fresh : guardsKeys = true → key ∉ done.map (·.1) := by
        intro guards known
        have nodup := distinct guards
        rw [List.map_append, List.map_cons, List.nodup_append] at nodup
        exact nodup.2.2 key (by simpa using known) key (.head _) rfl
      rw [front, interpretMembers]
      rcases shape with ⟨padded, rfl⟩ | ⟨text, following, rfl, padded, spelled⟩
      · obtain ⟨after, blank, given⟩ :=
          complete.padded padded (Nat.le_trans shorter room) first '\x7d' rest (by decide)
        rw [readMembers_last (keyed _) fresh blank given]
        cases interpret embedded? json <;> simp [interpretMembers]
      · simp only [List.length_append, List.length_cons] at shorter enough
        obtain ⟨after, blank, given⟩ :=
          complete.padded padded (by omega) first ',' (following ++ '\x7d' :: rest) (by decide)
        obtain ⟨behind, quote⟩ := quote_of_spellsMembers spelled
        have keyed := keyed ('\x7d' :: rest)
        rw [List.append_assoc, List.cons_append] at keyed
        rw [readMembers_more keyed fresh blank (quote _) given, ← quote]
        cases interpret embedded? json with
        | none => rfl
        | some value =>
            rw [Option.bind_some,
              induction spelled (by omega) others (by omega) (by simpa using distinct)]
            simp [Function.comp_def]

end Loops

/-! ## Values and texts -/

section Values

variable {rules : Rules} {bound depth : Nat} {property : Json → Prop}

section Steps

variable {value : List Char → Except ReadError (Json × List Char)} {text more : List Char}

theorem readObject_members (plain : rules.embedded? = none)
    (front : skipSpace text = '"' :: more) :
    readObject rules value bound text
      = readMembers rules.guardsKeys value bound [] ('"' :: more) := by
  rw [readObject.eq_def, front, plain]
  simp

theorem readObject_key {embedded : List Char → Except ReadError Json}
    (meaning : rules.embedded? = some embedded) (front : skipSpace text = '"' :: more)
    {key : String} {rest : List Char} (keyed : readKey ('"' :: more) = .ok (key, rest)) :
    readObject rules value bound text
      = if isReserved key then readReserved embedded key rest
        else readMembers rules.guardsKeys value bound [] ('"' :: more) := by
  rw [readObject.eq_def, front, meaning]
  simp [keyed]

end Steps

theorem readArray_of_spells
    (complete : Complete rules.embedded? bound property (readValue rules bound depth))
    {text rest : List Char} {items : List Json} (spelled : Spells text (.array items))
    (room : text.length ≤ bound) (holds : ∀ item ∈ items, property item) :
    ∃ inner, text = '[' :: inner
      ∧ (readArray (readValue rules bound depth) bound (inner ++ rest)).toOption
        = (interpret rules.embedded? (.array items)).map (·, rest) := by
  cases spelled with
  | @emptyArray blanks blank =>
      refine ⟨blanks ++ [']'], rfl, ?_⟩
      have close : skipSpace (blanks ++ ']' :: rest) = ']' :: rest :=
        (skipSpace_eq_cons_iff rfl).2 ⟨blanks, blank, rfl⟩
      simp [readArray, close, interpret, interpretItems, Except.toOption]
  | @array inner _ spelled =>
      refine ⟨inner ++ [']'], rfl, ?_⟩
      have enough := length_of_spellsItems spelled
      simp only [List.length_append, List.length_cons, List.length_nil] at room
      rw [readArray.eq_def, List.append_assoc, List.singleton_append]
      split
      next ends => exact absurd ends (skipSpace_ne_nil rfl _ _)
      next behind close => exact absurd close (head_of_spellsItems spelled _ _)
      next =>
        rw [readItems_skipSpace, readItems_of_spells complete spelled (by omega) holds (by omega)]
        simp [interpret, Function.comp_def]

/-- An object whose first key is reserved is read as what it stands for. -/
theorem readReserved_of_spellsMembers {embedded : List Char → Except ReadError Json}
    {key : String} {valueText rest : List Char} {json : Json} {members : List (String × Json)}
    (shape : (SpellsPadded valueText json ∧ members = [])
      ∨ ∃ first others, valueText = first ++ ',' :: others ∧ SpellsPadded first json
        ∧ SpellsMembers others members) :
    (readReserved embedded key (valueText ++ '\x7d' :: rest)).toOption
      = (unpack? embedded ((key, json) :: members)).map (·, rest) := by
  rcases shape with ⟨padded, rfl⟩ | ⟨first, others, rfl, padded, spelled⟩
  · exact readReserved_last padded rest
  · cases members with
    | nil => cases spelled
    | cons second members =>
        simpa [unpack?] using readReserved_more padded (others ++ '\x7d' :: rest)

theorem readObject_of_spells
    (complete : Complete rules.embedded? bound property (readValue rules bound depth))
    {text rest : List Char} {members : List (String × Json)}
    (spelled : Spells text (.object members)) (room : text.length ≤ bound)
    (holds : ∀ member ∈ members, property member.2)
    (distinct : rules.guardsKeys = true → (members.map (·.1)).Nodup) :
    ∃ inner, text = '\x7b' :: inner
      ∧ (readObject rules (readValue rules bound depth) bound (inner ++ rest)).toOption
        = (interpret rules.embedded? (.object members)).map (·, rest) := by
  cases spelled with
  | @emptyObject blanks blank =>
      refine ⟨blanks ++ ['\x7d'], rfl, ?_⟩
      have close : skipSpace (blanks ++ '\x7d' :: rest) = '\x7d' :: rest :=
        (skipSpace_eq_cons_iff rfl).2 ⟨blanks, blank, rfl⟩
      simp [readObject, close, interpret, startsReserved, interpretMembers, Except.toOption]
  | @object inner _ spelled =>
      refine ⟨inner ++ ['\x7d'], rfl, ?_⟩
      have enough := length_of_spellsMembers spelled
      simp only [List.length_append, List.length_cons, List.length_nil] at room
      have read := @readMembers_of_spells _ _ _ _ complete rules.guardsKeys members bound [] inner
        rest spelled (by omega) holds (by omega) distinct
      cases members with
      | nil => cases spelled
      | cons member members =>
          obtain ⟨key, json⟩ := member
          obtain ⟨more, valueText, front, keyed, _, shape⟩ := key_of_spellsMembers spelled
          rw [front] at read
          rw [List.append_assoc, List.singleton_append]
          cases meaning : rules.embedded? with
          | none =>
              rw [meaning] at read
              rw [readObject_members meaning (front _)]
              simpa [interpret, Function.comp_def] using read
          | some embedded =>
              rw [readObject_key meaning (front _) (keyed _)]
              simp only [interpret, startsReserved]
              cases reserved : isReserved key with
              | false =>
                  rw [meaning] at read
                  simpa [Function.comp_def] using read
              | true => simpa using readReserved_of_spellsMembers shape

theorem skipSpace_front {before : List Char} {c : Char} (blank : Blank before)
    (visible : isSpace c = false) (inner rest : List Char) :
    skipSpace (before ++ (c :: inner ++ rest)) = c :: (inner ++ rest) := by
  rw [skipSpace_append blank, List.cons_append, skipSpace_cons visible]

theorem readValue_of_scalar {before text rest : List Char} {json : Json} (blank : Blank before)
    (spelled : Spells text json) (scalar : json.isContainer = false) (ends : EndsNumber rest) :
    (readValue rules bound depth (before ++ (text ++ rest))).toOption
      = (interpret rules.embedded? json).map (·, rest) := by
  obtain ⟨read, c, more, rfl, visible, noArray, noObject⟩ := readScalar_append spelled scalar ends
  rw [List.cons_append] at read
  rw [readValue_scalar (skipSpace_front blank visible _ _) noArray noObject, read]
  cases json with
  | array => cases scalar
  | object => cases scalar
  | _ => rfl

/-- A reader gives what a tree stands for, if the tree keeps its rules. -/
theorem readValue_complete {top level : Nat} (room : level + depth = top + 1) :
    Complete rules.embedded? bound (fun json => json.Everywhere (rules.Admits top) level)
      (readValue rules bound depth) := by
  induction depth generalizing level with
  | zero =>
      intro before text rest json blank spelled _ holds ends
      refine readValue_of_scalar blank spelled ?_ ends
      cases container : json.isContainer with
      | false => rfl
      | true =>
          have := holds.root.1 container
          omega
  | succ depth induction =>
      have inner := @induction (level + 1) (by omega)
      intro before text rest json blank spelled short holds ends
      cases json with
      | array items =>
          obtain ⟨_, inside⟩ := everywhere_array.1 holds
          obtain ⟨behind, rfl, read⟩ := readArray_of_spells inner spelled short inside
          rw [readValue_array (skipSpace_front blank rfl _ _), read]
      | object members =>
          obtain ⟨root, inside⟩ := everywhere_object.1 holds
          obtain ⟨behind, rfl, read⟩ := readObject_of_spells inner spelled short inside root.2
          rw [readValue_object (skipSpace_front blank rfl _ _), read]
      | _ => exact readValue_of_scalar blank spelled rfl ends

theorem readValue_of_padded {top : Nat} (room : 1 + depth = top + 1) {text : List Char}
    {json : Json} (padded : SpellsPadded text json)
    (holds : json.Everywhere (rules.Admits top) 1) :
    ∃ after, Blank after ∧ (readValue rules text.length depth text).toOption
      = (interpret rules.embedded? json).map (·, after) := by
  cases padded with
  | @mk before inner after json blankBefore spelled blankAfter =>
      refine ⟨after, blankAfter, ?_⟩
      have ends : EndsNumber after := List.append_nil after ▸ endsNumber_append blankAfter nofun
      rw [List.append_assoc]
      exact readValue_complete room before inner after json blankBefore spelled (by simp; omega)
        holds ends

/-- On a text that spells a tree by its rules, a reader gives what the tree
stands for. -/
theorem readText_of_spells {text : List Char} {json : Json} (padded : SpellsPadded text json)
    (holds : json.Everywhere (rules.Admits maxOpen) 1) :
    (readText rules text).toOption = interpret rules.embedded? json := by
  obtain ⟨after, blank, given⟩ := readValue_of_padded (Nat.add_comm 1 maxOpen) padded holds
  rw [readText]
  rcases of_toOption_eq_map given with ⟨nothing, e, failed⟩ | ⟨value, something, read⟩
  · rw [failed, nothing]
    rfl
  · rw [read, something]
    simp [skipSpace_of_blank blank, bind, Except.bind, Except.toOption]

end Values

/-! ## The two sets of rules -/

section Rules

variable {text : List Char} {json : Json}

theorem admits_guard_iff : json.Everywhere (guardRules.Admits maxOpen) 1
    ↔ json.UniqueKeys ∧ json.NestsWithin maxOpen := by
  constructor
  · intro admitted
    exact ⟨admitted.mono fun _ _ both => both.2 rfl, admitted.mono fun _ _ both => both.1⟩
  · rintro ⟨unique, nests⟩ node member
    exact ⟨nests node member, fun _ => unique node member⟩

/-- The guard accepts exactly the texts that spell a tree without repeated keys
and with few enough containers inside each other, and gives that tree. -/
theorem readGuarded_eq_ok_iff : readGuarded text = .ok json
    ↔ SpellsPadded text json ∧ json.UniqueKeys ∧ json.NestsWithin maxOpen := by
  rw [← admits_guard_iff]
  constructor
  · intro read
    obtain ⟨spelled, padded, admitted, stands⟩ := spells_of_readText read
    rw [guardRules, interpret_none] at stands
    obtain rfl := Option.some.inj stands
    exact ⟨padded, admitted⟩
  · rintro ⟨padded, admitted⟩
    have given := readText_of_spells padded admitted
    rw [guardRules, interpret_none] at given
    exact toOption_eq_some_iff.1 given

/-- What the guard finds in a text is the tree that the text spells. -/
theorem spells_of_found (found : (readGuarded text).toOption = some json) :
    SpellsPadded text json ∧ json.UniqueKeys ∧ json.NestsWithin maxOpen :=
  readGuarded_eq_ok_iff.1 (toOption_eq_some_iff.1 found)

/-- On a text that spells a tree, the plain reader gives what the tree stands
for. -/
theorem readPlainWithin_of_spells {level : Nat} (padded : SpellsPadded text json)
    (nests : json.NestsWithin maxOpen) :
    (readPlainWithin (level + 1) text).toOption
      = interpret (some (readPlainWithin level)) json :=
  @readText_of_spells ⟨false, some (readPlainWithin level)⟩ _ _ padded
    fun node member => ⟨nests node member, nofun⟩

/-- The plain reader gives something exactly for the texts that spell a tree with few
enough containers inside each other, and then what the tree stands for. -/
theorem readPlainWithin_eq_ok_iff {level : Nat} {given : Json} :
    readPlainWithin (level + 1) text = .ok given
      ↔ ∃ json, SpellsPadded text json ∧ json.NestsWithin maxOpen
        ∧ interpret (some (readPlainWithin level)) json = some given := by
  constructor
  · intro read
    obtain ⟨json, padded, admitted, stands⟩ := spells_of_readText read
    exact ⟨json, padded, admitted.mono fun _ _ both => both.1, stands⟩
  · rintro ⟨json, padded, nests, stands⟩
    rw [← toOption_eq_some_iff, readPlainWithin_of_spells padded nests, stands]

/-- The plain reader gives what the tree of a text stands for. -/
theorem readPlain_eq_ok_iff {given : Json} (padded : SpellsPadded text json)
    (nests : json.NestsWithin maxOpen) :
    readPlain text = .ok given
      ↔ interpret (some (readPlainWithin text.length)) json = some given := by
  rw [← toOption_eq_some_iff, readPlain, readPlainWithin_of_spells padded nests]

/-- Without reserved keys both readers give the same tree. -/
theorem readPlain_of_readGuarded (read : readGuarded text = .ok json)
    (plain : json.AvoidsReserved) : readPlain text = .ok json := by
  obtain ⟨padded, _, nests⟩ := readGuarded_eq_ok_iff.1 read
  exact (readPlain_eq_ok_iff padded nests).2
    (interpret_eq_self (plain.mono fun _ _ keys _ => frontPlain_of_keysPlain keys))

theorem exists_top (json : Json) : ∃ top, ∀ node ∈ json.nodes 1, node.1 ≤ top := by
  exact ⟨_, fun node member => List.le_max?_getD_of_mem (k := 0) (List.mem_map_of_mem member)⟩

/-- No text spells two trees. -/
theorem spellsPadded_unique {other : Json} (first : SpellsPadded text json)
    (second : SpellsPadded text other) : json = other := by
  obtain ⟨firstTop, firstLow⟩ := exists_top json
  obtain ⟨secondTop, secondLow⟩ := exists_top other
  -- One reader with room for both trees gives each of them.
  have given {json : Json} (padded : SpellsPadded text json)
      (low : ∀ node ∈ json.nodes 1, node.1 ≤ max firstTop secondTop) :
      ∃ rest, readValue ⟨false, none⟩ text.length (max firstTop secondTop) text
        = .ok (json, rest) := by
    have admitted : json.Everywhere (Rules.Admits ⟨false, none⟩ (max firstTop secondTop)) 1 :=
      fun node member => ⟨fun _ => low node member, nofun⟩
    obtain ⟨after, _, read⟩ := readValue_of_padded (Nat.add_comm 1 _) padded admitted
    rw [interpret_none] at read
    exact ⟨after, toOption_eq_some_iff.1 read⟩
  obtain ⟨_, gives⟩ := given first fun node member =>
    Nat.le_trans (firstLow node member) (Nat.le_max_left _ _)
  obtain ⟨_, givesOther⟩ := given second fun node member =>
    Nat.le_trans (secondLow node member) (Nat.le_max_right _ _)
  rw [gives] at givesOther
  exact (Prod.mk.inj (Except.ok.inj givesOther)).1

end Rules

end SignedFacts.Json
