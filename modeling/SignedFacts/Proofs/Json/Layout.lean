import SignedFacts.Proofs.Json.Local

/-!
# Where the parts of a text stand

The text of an object is told apart into its keys and the texts of its values, and the text of a
list into those of its items (`ObjectText`, `ArrayText`).  What is between the parts is said here
and what they are is not, so that more texts have parts than the grammar derives.

If every value is one that can be passed over, the whole text is (`ObjectText.valued`), and
then it is laid out in one way: two layouts of one text have the same keys and values, also where
a key spells no string (`looseObject_unique`).
-/

namespace SignedFacts.Json

/-! ## Texts -/

section Texts

variable {α : Type}

/-- Items with blanks behind them and commas between, and the closing mark. -/
inductive Row (Item : List Char → α → Prop) (close : Char) : List Char → List α → Prop where
  | last {text blanks : List Char} {item : α} :
      Item text item → Blank blanks → Row Item close (text ++ (blanks ++ [close])) [item]
  | more {text blanks rest : List Char} {item : α} {items : List α} :
      Item text item → Blank blanks → Row Item close rest items →
      Row Item close (text ++ (blanks ++ ',' :: rest)) (item :: items)

/-- What stands behind an opening bracket, the closing one included. -/
inductive Enclosed (Item : List Char → α → Prop) (close : Char) : List Char → List α → Prop where
  | empty {blanks : List Char} : Blank blanks → Enclosed Item close (blanks ++ [close]) []
  | items {text : List Char} {items : List α} :
      Row Item close text items → Enclosed Item close text items

/-- The text of a member, with the text of its value. -/
def KeyedText (text : List Char) (entry : String × List Char) : Prop :=
  ∃ before spelled after, Blank before ∧ SpellsString spelled entry.1.toList ∧ Blank after
    ∧ text = before ++ '"' :: (spelled ++ '"' :: (after ++ ':' :: entry.2))

/-- The text of an object, with the texts of its values. -/
def ObjectText (text : List Char) (entries : List (String × List Char)) : Prop :=
  ∃ blanks inside, Blank blanks ∧ text = blanks ++ '\x7b' :: inside
    ∧ Enclosed KeyedText '\x7d' inside entries

/-- The text of a list, with the texts of its items. -/
def ArrayText (text : List Char) (parts : List (List Char)) : Prop :=
  ∃ blanks inside, Blank blanks ∧ text = blanks ++ '[' :: inside ∧ Enclosed Eq ']' inside parts

/-- The text of an object, or of a list whose items belong to the first of some names. -/
def FieldsText (names : List String) (text : List Char) (entries : List (String × List Char)) :
    Prop :=
  ObjectText text entries
    ∨ ∃ parts, ArrayText text parts ∧ parts.length ≤ names.length ∧ entries = names.zip parts

theorem Row.behind {Item : List Char → α → Prop} {close : Char} {blanks text : List Char}
    {items : List α}
    (stays : ∀ text item, Item text item → Item (blanks ++ text) item)
    (row : Row Item close text items) : Row Item close (blanks ++ text) items := by
  cases row with
  | last item blank =>
      rw [← List.append_assoc]
      exact .last (stays _ _ item) blank
  | more item blank others =>
      rw [← List.append_assoc]
      exact .more (stays _ _ item) blank others

theorem KeyedText.behind {blanks text : List Char} {entry : String × List Char}
    (blank : Blank blanks) (keyed : KeyedText text entry) : KeyedText (blanks ++ text) entry := by
  obtain ⟨before, spelled, after, blankBefore, spells, blankAfter, rfl⟩ := keyed
  exact ⟨blanks ++ before, spelled, after, blank_append blank blankBefore, spells, blankAfter,
    (List.append_assoc ..).symm⟩

theorem front_of_row {close : Char} {part : List Char} {entries : List (String × List Char)}
    (row : Row KeyedText close part entries) (rest : List Char) :
    ∃ inside, skipSpace (part ++ rest) = '"' :: inside := by
  have front {text : List Char} {entry : String × List Char} (keyed : KeyedText text entry)
      (tail : List Char) : ∃ inside, skipSpace (text ++ tail) = '"' :: inside := by
    obtain ⟨before, spelled, gap, blank, _, _, rfl⟩ := keyed
    rw [List.append_assoc, skipSpace_append blank]
    exact ⟨_, skipSpace_cons rfl _⟩
  cases row with
  | last keyed _ =>
      rw [List.append_assoc]
      exact front keyed _
  | more keyed _ _ =>
      rw [List.append_assoc]
      exact front keyed _

/-- What stands behind the first item of a row. -/
theorem Row.tail {close : Char} {item tail : List Char} {parts : List (List Char)}
    (row : Row Eq close (item ++ tail) (item :: parts)) :
    ∃ blanks, Blank blanks ∧ (parts = [] ∧ tail = blanks ++ [close]
      ∨ ∃ part others more, parts = part :: others ∧ tail = blanks ++ ',' :: (part ++ more)
        ∧ Row Eq close (part ++ more) (part :: others)) := by
  generalize shape : item ++ tail = whole at row
  cases row with
  | @last text blanks _ same blank =>
      subst same
      exact ⟨blanks, blank, .inl ⟨rfl, List.append_cancel_left shape⟩⟩
  | @more text blanks rest _ parts same blank row =>
      subst same
      have first : ∃ part others more, parts = part :: others ∧ rest = part ++ more := by
        cases row with
        | last same _ => exact ⟨_, _, _, rfl, by rw [same]⟩
        | more same _ _ => exact ⟨_, _, _, rfl, by rw [same]⟩
      obtain ⟨part, others, more, rfl, rfl⟩ := first
      exact ⟨blanks, blank, .inr ⟨part, others, more, rfl, List.append_cancel_left shape, row⟩⟩

theorem Row.endsNumber {item tail : List Char} {parts : List (List Char)}
    (row : Row Eq ']' (item ++ tail) (item :: parts)) (rest : List Char) :
    EndsNumber (tail ++ rest) := by
  obtain ⟨blanks, blank, ⟨_, rfl⟩ | ⟨part, _, more, _, rfl, _⟩⟩ := row.tail
  · rw [List.append_assoc]
    exact endsNumber_append blank (endsNumber_cons (by decide) rest)
  · rw [List.append_assoc]
    exact endsNumber_append blank (endsNumber_cons (by decide) _)

end Texts

/-! ## Values -/

section Values

variable {α : Type} {text : List Char} {entries : List (String × List Char)}

/-- A text is blanks and then a spelled tree. -/
def Holds (text : List Char) (json : Json) : Prop :=
  ∃ blanks spelled, Blank blanks ∧ text = blanks ++ spelled ∧ Spells spelled json

theorem Holds.front {json : Json} (holds : Holds text json) :
    ∃ blanks c more, Blank blanks ∧ text = blanks ++ c :: more ∧ isSpace c = false ∧ c ≠ ']' := by
  obtain ⟨blanks, _, blank, rfl, spelled⟩ := holds
  obtain ⟨c, more, rfl, visible, noClose, _⟩ := head_of_spells spelled
  exact ⟨blanks, c, more, blank, rfl, visible, noClose⟩

theorem valued_of_spells {json : Json} (spelled : Spells text json) :
    Cursor.Valued Char.utf8Size text := by
  refine ⟨Cursor.skippable_of_spells json text spelled, ?_⟩
  cases json with
  | array items => cases spelled <;> exact ⟨_, ']', rfl, rfl⟩
  | object members => cases spelled <;> exact ⟨_, '\x7d', rfl, rfl⟩
  | _ => exact (@Cursor.scalar_of_spells Char.utf8Size _ _ spelled rfl).last

theorem Holds.valued {json : Json} (holds : Holds text json) :
    Cursor.Valued Char.utf8Size text := by
  obtain ⟨blanks, _, blank, rfl, spelled⟩ := holds
  obtain ⟨skippable, visible⟩ := valued_of_spells spelled
  exact ⟨skippable.behind blank, visible.append blanks⟩

section Containers

variable {Item : List Char → α → Prop} {Other : List Char → Prop} {close : Char} {items : List α}

theorem Row.listed (weaker : ∀ item ∈ items, ∀ text, Item text item → Other text)
    (row : Row Item close text items) : Cursor.Listed Other close text := by
  induction row with
  | last item blank => exact .last (weaker _ (.head _) _ item) blank
  | more item blank _ induction =>
      exact .more (weaker _ (.head _) _ item) blank
        (induction fun item among => weaker item (.tail _ among))

theorem Enclosed.bracketed (weaker : ∀ item ∈ items, ∀ text, Item text item → Other text)
    (enclosed : Enclosed Item close text items) : Cursor.Bracketed Other close text := by
  cases enclosed with
  | empty blank => exact .empty blank
  | items row => exact .items (row.listed weaker)

theorem ObjectText.valued (each : ∀ entry ∈ entries, Cursor.Valued Char.utf8Size entry.2)
    (object : ObjectText text entries) : Cursor.Valued Char.utf8Size text := by
  obtain ⟨blanks, inside, blank, rfl, enclosed⟩ := object
  have bracketed : Cursor.Bracketed (Cursor.Member Char.utf8Size) '\x7d' inside := by
    refine enclosed.bracketed fun entry among text keyed => ?_
    obtain ⟨before, spelled, after, blankBefore, spells, blankAfter, rfl⟩ := keyed
    exact ⟨before ++ '"' :: (spelled ++ '"' :: (after ++ [':'])), entry.2, by simp,
      Cursor.closesOver_skipKey blankBefore (Cursor.quoted_of_spells spells) blankAfter,
      (each entry among).1⟩
  exact ⟨(Cursor.skippable_object bracketed).behind blank,
    ((bracketed.endsVisible (by decide)).append ['\x7b']).append blanks⟩

theorem ArrayText.valued {parts : List (List Char)}
    (each : ∀ part ∈ parts, Cursor.Valued Char.utf8Size part) (array : ArrayText text parts) :
    Cursor.Valued Char.utf8Size text := by
  obtain ⟨blanks, inside, blank, rfl, enclosed⟩ := array
  have bracketed : Cursor.Bracketed (Cursor.Skippable Char.utf8Size) ']' inside :=
    enclosed.bracketed fun part among text (same : text = part) => same ▸ (each part among).1
  exact ⟨(Cursor.skippable_array bracketed).behind blank,
    ((bracketed.endsVisible (by decide)).append ['[']).append blanks⟩

end Containers

end Values

/-! ## One layout -/

section Layout

variable {text other value tail rest name : List Char} {raw another : List Char × List Char}
  {raws others : List (List Char × List Char)} {entries : List (String × List Char)}
  {members : List (String × Json)}

/-- The text of a member with the text of its key.  The key need not spell a string, and the value
is any text that is passed over as one. -/
def LooseText (text : List Char) (raw : List Char × List Char) : Prop :=
  ∃ before after, Blank before ∧ Cursor.Quoted Char.utf8Size raw.1 ∧ Blank after
    ∧ Cursor.Valued Char.utf8Size raw.2
    ∧ text = before ++ '"' :: (raw.1 ++ '"' :: (after ++ ':' :: raw.2))

/-- The text of an object, with the texts of its keys and of its values. -/
def LooseObject (text : List Char) (raws : List (List Char × List Char)) : Prop :=
  ∃ blanks inside, Blank blanks ∧ text = blanks ++ '\x7b' :: inside
    ∧ Enclosed LooseText '\x7d' inside raws

theorem mark_unique {c d : Char} {blanks gap : List Char} (visible : isSpace c = false)
    (visibleToo : isSpace d = false) (blank : Blank blanks) (blankToo : Blank gap)
    (same : blanks ++ c :: tail = gap ++ d :: rest) : c = d ∧ tail = rest := by
  have front := congrArg skipSpace same
  rw [skipSpace_mark visible blank, skipSpace_mark visibleToo blankToo] at front
  exact List.cons.inj front

/-- Where a value ends is seen without knowing where it ends. -/
theorem valued_unique (valued : Cursor.Valued Char.utf8Size value)
    (valuedToo : Cursor.Valued Char.utf8Size other) (same : value ++ tail = other ++ rest)
    (ends : EndsNumber tail) (endsToo : EndsNumber rest) : value = other ∧ tail = rest := by
  have first := valued.1 (value.length + other.length) (value.length + other.length) (by omega)
    (by omega) 0 tail ends
  have second := valuedToo.1 (value.length + other.length) (value.length + other.length) (by omega)
    (by omega) 0 rest endsToo
  rw [same, second] at first
  have behind : rest = tail := congrArg Cursor.ahead (Except.ok.inj first)
  subst behind
  exact ⟨List.append_cancel_right same, rfl⟩

theorem quoted_unique (quoted : Cursor.Quoted Char.utf8Size name)
    (quotedToo : Cursor.Quoted Char.utf8Size other)
    (same : name ++ '"' :: tail = other ++ '"' :: rest) : name = other ∧ tail = rest := by
  have first := quoted 0 tail
  rw [same, quotedToo 0 rest] at first
  have behind : rest = tail := congrArg Cursor.ahead (Except.ok.inj first)
  subst behind
  exact ⟨List.append_cancel_right same, rfl⟩

theorem looseText_unique (loose : LooseText text raw) (looseToo : LooseText other another)
    (same : text ++ tail = other ++ rest) (ends : EndsNumber tail) (endsToo : EndsNumber rest) :
    raw = another ∧ tail = rest := by
  obtain ⟨before, after, blank, quoted, blankAfter, valued, rfl⟩ := loose
  obtain ⟨beforeToo, afterToo, blankToo, quotedToo, blankAfterToo, valuedToo, rfl⟩ := looseToo
  simp only [List.append_assoc, List.cons_append] at same
  obtain ⟨_, inside⟩ := mark_unique rfl rfl blank blankToo same
  obtain ⟨names, behind⟩ := quoted_unique quoted quotedToo inside
  obtain ⟨_, behind⟩ := mark_unique rfl rfl blankAfter blankAfterToo behind
  obtain ⟨values, behind⟩ := valued_unique valued valuedToo behind ends endsToo
  exact ⟨Prod.ext names values, behind⟩

theorem row_unique (row : Row LooseText '\x7d' text raws)
    (rowToo : Row LooseText '\x7d' other others) (same : text ++ tail = other ++ rest) :
    raws = others := by
  have ends {c : Char} (noNumber : c.isDigit = false ∧ c ≠ '.' ∧ Numeral.isExponentMark c = false)
      {blanks : List Char} (blank : Blank blanks) (behind : List Char) :
      EndsNumber (blanks ++ c :: behind) :=
    endsNumber_append blank (endsNumber_cons noNumber behind)
  have comma : ','.isDigit = false ∧ ',' ≠ '.' ∧ Numeral.isExponentMark ',' = false := by decide
  have brace : '\x7d'.isDigit = false ∧ '\x7d' ≠ '.' ∧ Numeral.isExponentMark '\x7d' = false := by
    decide
  induction row generalizing other others with
  | @last text blanks raw loose blank =>
      cases rowToo with
      | last looseToo blankToo =>
          simp only [List.append_assoc, List.cons_append] at same
          obtain ⟨rfl, _⟩ := looseText_unique loose looseToo same (ends brace blank _)
            (ends brace blankToo _)
          rfl
      | more looseToo blankToo _ =>
          simp only [List.append_assoc, List.cons_append] at same
          obtain ⟨_, behind⟩ := looseText_unique loose looseToo same (ends brace blank _)
            (ends comma blankToo _)
          cases (mark_unique rfl rfl blank blankToo behind).1
  | @more text blanks later raw raws loose blank row induction =>
      cases rowToo with
      | last looseToo blankToo =>
          simp only [List.append_assoc, List.cons_append] at same
          obtain ⟨_, behind⟩ := looseText_unique loose looseToo same (ends comma blank _)
            (ends brace blankToo _)
          cases (mark_unique rfl rfl blank blankToo behind).1
      | more looseToo blankToo rowToo =>
          simp only [List.append_assoc, List.cons_append] at same
          obtain ⟨rfl, behind⟩ := looseText_unique loose looseToo same (ends comma blank _)
            (ends comma blankToo _)
          rw [induction rowToo (mark_unique rfl rfl blank blankToo behind).2]

/-- A row of members begins with a quote, and so it is no end of an object. -/
theorem LooseText.not_closed {blanks : List Char} (row : Row LooseText '\x7d' text raws)
    (blank : Blank blanks) (same : text ++ tail = blanks ++ '\x7d' :: rest) : False := by
  have front {first behind : List Char} {raw : List Char × List Char} (loose : LooseText first raw)
      (same : first ++ behind = blanks ++ '\x7d' :: rest) : False := by
    obtain ⟨before, after, blankBefore, _, _, _, rfl⟩ := loose
    rw [List.append_assoc, List.cons_append] at same
    cases (mark_unique rfl rfl blankBefore blank same).1
  cases row with
  | last loose _ =>
      rw [List.append_assoc] at same
      exact front loose same
  | more loose _ _ =>
      rw [List.append_assoc] at same
      exact front loose same

/-- A text is laid out as an object in one way. -/
theorem looseObject_unique (loose : LooseObject text raws) (looseToo : LooseObject other others)
    (same : text ++ tail = other ++ rest) : raws = others := by
  obtain ⟨blanks, inside, blank, rfl, enclosed⟩ := loose
  obtain ⟨gap, insideToo, blankToo, rfl, enclosedToo⟩ := looseToo
  simp only [List.append_assoc, List.cons_append] at same
  obtain ⟨_, behind⟩ := mark_unique rfl rfl blank blankToo same
  cases enclosed with
  | empty blankInside =>
      rw [List.append_assoc] at behind
      cases enclosedToo with
      | empty _ => rfl
      | items row => exact (LooseText.not_closed row blankInside behind.symm).elim
  | items row =>
      cases enclosedToo with
      | empty blankInside =>
          rw [List.append_assoc] at behind
          exact (LooseText.not_closed row blankInside behind).elim
      | items rowToo => exact row_unique row rowToo behind

/-! ## Layouts of objects -/

theorem looseText_of_keyedText {entry : String × List Char} (keyed : KeyedText text entry)
    (valued : Cursor.Valued Char.utf8Size entry.2) :
    ∃ name, SpellsString name entry.1.toList ∧ LooseText text (name, entry.2) := by
  obtain ⟨before, name, after, blank, spells, blankAfter, rfl⟩ := keyed
  exact ⟨name, spells, before, after, blank, Cursor.quoted_of_spells spells, blankAfter, valued,
    rfl⟩

theorem row_of_keyed {close : Char} (row : Row KeyedText close text entries)
    (each : ∀ entry ∈ entries, Cursor.Valued Char.utf8Size entry.2) :
    ∃ raws, Row LooseText close text raws
      ∧ ∀ raw ∈ raws, ∃ entry ∈ entries, SpellsString raw.1 entry.1.toList := by
  induction row with
  | @last text blanks entry keyed blank =>
      obtain ⟨name, spells, loose⟩ := looseText_of_keyedText keyed (each entry (.head _))
      exact ⟨[(name, entry.2)], .last loose blank,
        List.forall_mem_singleton.2 ⟨entry, .head _, spells⟩⟩
  | @more text blanks later entry entries keyed blank _ induction =>
      obtain ⟨valued, others⟩ := List.forall_mem_cons.1 each
      obtain ⟨name, spells, loose⟩ := looseText_of_keyedText keyed valued
      obtain ⟨raws, rowLater, named⟩ := induction others
      refine ⟨(name, entry.2) :: raws, .more loose blank rowLater,
        List.forall_mem_cons.2 ⟨⟨entry, .head _, spells⟩, fun raw among => ?_⟩⟩
      obtain ⟨other, isEntry, spells⟩ := named raw among
      exact ⟨other, .tail _ isEntry, spells⟩

theorem ObjectText.loose (object : ObjectText text entries)
    (each : ∀ entry ∈ entries, Cursor.Valued Char.utf8Size entry.2) :
    ∃ raws, LooseObject text raws
      ∧ ∀ raw ∈ raws, ∃ entry ∈ entries, SpellsString raw.1 entry.1.toList := by
  obtain ⟨blanks, inside, blank, rfl, enclosed⟩ := object
  cases enclosed with
  | empty blankInside =>
      exact ⟨[], ⟨blanks, _, blank, rfl, .empty blankInside⟩, List.forall_mem_nil _⟩
  | items row =>
      obtain ⟨raws, rowLoose, named⟩ := row_of_keyed row each
      exact ⟨raws, ⟨blanks, _, blank, rfl, .items rowLoose⟩, named⟩

theorem looseText_of_spellsMember {member : String × Json} (spelled : SpellsMember text member) :
    ∃ front after raw, text = front ++ after ∧ Blank after ∧ LooseText front raw
      ∧ SpellsString raw.1 member.1.toList := by
  cases spelled with
  | @mk before name chars gap value json blank spells blankGap padded =>
      cases padded with
      | @mk left inner right _ blankLeft spelled blankRight =>
          have valued : Cursor.Valued Char.utf8Size (left ++ inner) :=
            Holds.valued ⟨left, inner, blankLeft, rfl, spelled⟩
          refine ⟨before ++ '"' :: (name ++ '"' :: (gap ++ ':' :: (left ++ inner))), right,
            (name, left ++ inner), by simp, blankRight,
            ⟨before, gap, blank, Cursor.quoted_of_spells spells, blankGap, valued, rfl⟩, ?_⟩
          rwa [String.toList_ofList]

theorem row_of_spellsMembers (spelled : SpellsMembers text members) :
    ∃ raws, Row LooseText '\x7d' (text ++ ['\x7d']) raws
      ∧ ∀ member ∈ members, ∃ raw ∈ raws, SpellsString raw.1 member.1.toList := by
  induction members generalizing text with
  | nil => cases spelled
  | cons member members induction =>
      cases spelled with
      | one spelled =>
          obtain ⟨front, after, raw, rfl, blank, loose, spells⟩ :=
            looseText_of_spellsMember spelled
          rw [List.append_assoc]
          exact ⟨[raw], .last loose blank, List.forall_mem_singleton.2 ⟨raw, .head _, spells⟩⟩
      | more spelled others =>
          obtain ⟨front, after, raw, rfl, blank, loose, spells⟩ :=
            looseText_of_spellsMember spelled
          obtain ⟨raws, row, named⟩ := induction others
          rw [List.append_assoc, List.append_assoc]
          refine ⟨raw :: raws, .more loose blank row,
            List.forall_mem_cons.2 ⟨⟨raw, .head _, spells⟩, fun member among => ?_⟩⟩
          obtain ⟨other, isRaw, spells⟩ := named member among
          exact ⟨other, .tail _ isRaw, spells⟩

/-- An object that the grammar derives is laid out with the keys of the tree. -/
theorem loose_of_spellsPadded (padded : SpellsPadded text (.object members)) :
    ∃ part after raws, text = part ++ after ∧ LooseObject part raws
      ∧ ∀ member ∈ members, ∃ raw ∈ raws, SpellsString raw.1 member.1.toList := by
  cases padded with
  | @mk before _ after _ blank spelled _ =>
      cases spelled with
      | @emptyObject gap blankGap =>
          exact ⟨_, after, [], rfl, ⟨before, gap ++ ['\x7d'], blank, rfl, .empty blankGap⟩,
            List.forall_mem_nil _⟩
      | @object inside _ spelled =>
          obtain ⟨raws, row, named⟩ := row_of_spellsMembers spelled
          exact ⟨_, after, raws, rfl, ⟨before, inside ++ ['\x7d'], blank, rfl, .items row⟩, named⟩

end Layout

end SignedFacts.Json
