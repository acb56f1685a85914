import SignedFacts.Proofs.Json.Skip
import SignedFacts.Proofs.Peer.View
import SignedFacts.Proofs.Value.Tree

/-!
# Splitting what was joined

A list of elements, with or without blanks around them, is split into the texts of the
elements (`elementsOf_parts`).  A text is an element if it is passed over as a value, and
texts that spell a value are (`isElement_of_spells`).  So the answer that serves records
is split into the texts of the records (`split_ofRecords`).
-/

namespace SignedFacts.Response

open Json (Spells Cursor EndsNumber)
open Json.Cursor (Skippable)

/-! ## Elements -/

/-- A text that may stand as an element of a list. -/
structure IsElement (text : List Char) : Prop where
  front : ∃ c more, seen text = c :: more ∧ Json.isSpace c = false ∧ c ≠ ']'
  skippable : Skippable octetSize (seen text)

theorem isElement_of_spells {text : List Char} {json : Json} (spelled : Spells text json) :
    IsElement text := by
  obtain ⟨other, spelled⟩ := spells_seen json text spelled
  obtain ⟨c, more, shape, visible, open_, _⟩ := Json.head_of_spells spelled
  exact ⟨⟨c, more, shape, visible, open_⟩, Cursor.skippable_of_spells other _ spelled⟩

/-- What is seen of an element with blanks around it, and the text of the element. -/
inductive Part : List Char → List Char → Prop where
  | mk {before text after : List Char} :
      Json.Blank before → IsElement text → Json.Blank after →
      Part (before ++ (seen text ++ after)) text

theorem IsElement.part {text : List Char} (element : IsElement text) : Part (seen text) text := by
  simpa using Part.mk Json.blank_nil element Json.blank_nil

section Parts

variable {part text : List Char}

/-- Behind its blanks a part begins with a character that closes no list. -/
theorem Part.front (isPart : Part part text) (rest : List Char) :
    ∃ c more, Json.skipSpace (part ++ rest) = c :: more ∧ c ≠ ']' := by
  obtain @⟨before, text, after, blank, element, _⟩ := isPart
  obtain ⟨c, more, shape, visible, open_⟩ := element.front
  refine ⟨c, more ++ after ++ rest, ?_, open_⟩
  rw [List.append_assoc, Json.skipSpace_append blank, shape, List.cons_append, List.cons_append,
    Json.skipSpace_cons visible]

/-- The text of an element is seen from behind its blanks up to where it ends, and only
blanks stand before the next mark. -/
theorem Part.passed (isPart : Part part text) {bound : Nat} (enough : part.length ≤ bound)
    (position : Nat) {c : Char} (visible : Json.isSpace c = false) {rest : List Char}
    (ends : EndsNumber (c :: rest)) :
    ∃ behind, element bound ⟨position, part ++ c :: rest⟩ = .ok (String.ofList text, behind)
      ∧ behind.skipSpace = ⟨position + part.length, c :: rest⟩ := by
  obtain @⟨before, text, after, blank, isElement, blankAfter⟩ := isPart
  simp only [List.length_append] at enough
  obtain ⟨d, more, shape, visibleFirst, _⟩ := isElement.front
  have begin_ : Cursor.skipSpace ⟨position, before ++ (seen text ++ after) ++ c :: rest⟩
      = ⟨position + before.length, seen text ++ (after ++ c :: rest)⟩ := by
    rw [List.append_assoc, List.append_assoc, shape]
    exact Cursor.skipSpace_blank blank visibleFirst
  have passed := isElement.skippable bound bound (by omega) (Nat.le_refl bound)
    (position + before.length) (after ++ c :: rest) (Json.endsNumber_append blankAfter ends)
  refine ⟨⟨position + before.length + (seen text).length, after ++ c :: rest⟩, ?_, ?_⟩
  · simp only [element, begin_, passed, bind, Except.bind, Nat.add_sub_cancel_left,
      List.take_left, unview_seen]
  · rw [Cursor.skipSpace_blank blankAfter visible]
    simp only [List.length_append, Cursor.mk.injEq, and_true]
    omega

end Parts

/-! ## Lists -/

theorem elements_parts {part text : List Char} {pairs : List (List Char × List Char)}
    {bound position : Nat} {done : List String}
    (each : ∀ pair ∈ (part, text) :: pairs, Part pair.1 pair.2)
    (enough : (part ++ joinRest (pairs.map Prod.fst)).length ≤ bound) :
    elements bound done ⟨position, part ++ joinRest (pairs.map Prod.fst)⟩
      = .ok (done.reverse ++ ((part, text) :: pairs).map fun pair => String.ofList pair.2, []) := by
  induction pairs generalizing part text bound position done with
  | nil =>
      obtain ⟨isPart, _⟩ := List.forall_mem_cons.1 each
      simp only [List.map_nil, joinRest, List.length_append, List.length_singleton] at enough ⊢
      obtain ⟨fewer, rfl⟩ := Nat.exists_eq_add_one.2 (show 0 < bound by omega)
      obtain ⟨behind, passed, close⟩ := isPart.passed (show part.length ≤ fewer + 1 by omega)
        position (show Json.isSpace ']' = false from rfl) (Json.endsNumber_cons (by decide) [])
      simp only [elements, passed, close, bind, Except.bind]
      simp
  | cons next pairs induction =>
      obtain ⟨isPart, later⟩ := List.forall_mem_cons.1 each
      obtain ⟨isNext, _⟩ := List.forall_mem_cons.1 later
      simp only [List.map_cons, joinRest, List.length_append, List.length_cons] at enough ⊢
      obtain ⟨fewer, rfl⟩ := Nat.exists_eq_add_one.2 (show 0 < bound by omega)
      obtain ⟨behind, passed, comma⟩ := isPart.passed (show part.length ≤ fewer + 1 by omega)
        position (show Json.isSpace ',' = false from rfl)
        (Json.endsNumber_cons (by decide) (next.1 ++ joinRest (pairs.map Prod.fst)))
      obtain ⟨c, more, front, open_⟩ := isNext.front (joinRest (pairs.map Prod.fst))
      have rest := @induction next.1 next.2 fewer (position + part.length + 1)
        (String.ofList text :: done) later (by simp only [List.length_append]; omega)
      simp only [List.cons_append, elements, passed, comma, front, bind, Except.bind]
      split
      next ends => cases ends
      next close => exact absurd (List.cons.inj close).1 open_
      next =>
        rw [rest]
        simp

/-- A list of elements is split into the texts of the elements. -/
theorem elementsOf_parts {body : List UInt8} {pairs : List (List Char × List Char)}
    (each : ∀ pair ∈ pairs, Part pair.1 pair.2) (whole : view body = join (pairs.map Prod.fst)) :
    elementsOf body = .ok (pairs.map fun pair => String.ofList pair.2) := by
  cases pairs with
  | nil => simp [elementsOf, whole, join, Json.skipSpace, Json.isSpace, bind, Except.bind]
  | cons pair pairs =>
      obtain ⟨isPart, _⟩ := List.forall_mem_cons.1 each
      obtain ⟨c, more, front, open_⟩ := isPart.front (joinRest (pairs.map Prod.fst))
      have length := congrArg List.length whole
      simp only [view, join, List.map_cons, List.length_map, List.length_cons,
        List.cons_append] at length
      have read := @elements_parts pair.1 pair.2 pairs (body.length + 1) 0 [] each (by omega)
      rw [List.map_cons, join, List.cons_append] at whole
      simp only [elementsOf, whole, Json.skipSpace_cons (show Json.isSpace '[' = false from rfl),
        front, read, bind, Except.bind]
      split
      next ends => cases ends
      next close => exact absurd (List.cons.inj close).1 open_
      next => rfl

theorem seen_joinRest (texts : List (List Char)) :
    seen (joinRest texts) = joinRest (texts.map seen) := by
  induction texts with
  | nil => exact seen_of_small (List.forall_mem_singleton.2 (by decide))
  | cons text texts induction =>
      rw [joinRest, List.cons_append, seen_cons_of_small (by decide), seen_append, induction]
      rfl

/-- What is seen of a list is the list of what is seen of its elements. -/
theorem seen_join (texts : List (List Char)) : seen (join texts) = join (texts.map seen) := by
  cases texts with
  | nil =>
      exact seen_of_small
        (List.forall_mem_cons.2 ⟨by decide, List.forall_mem_singleton.2 (by decide)⟩)
  | cons text texts =>
      rw [join, List.cons_append, seen_cons_of_small (by decide), seen_append, seen_joinRest]
      rfl

/-- The list of texts that spell values is split into these texts. -/
theorem elementsOf_join {texts : List (List Char)}
    (each : ∀ text ∈ texts, ∃ json, Spells text json) :
    elementsOf (Utf8.octets (join texts)) = .ok (texts.map String.ofList) := by
  have parts : ∀ pair ∈ texts.map (fun text => (seen text, text)), Part pair.1 pair.2 := by
    refine List.forall_mem_map.2 fun text member => ?_
    obtain ⟨json, spelled⟩ := each text member
    exact (isElement_of_spells spelled).part
  have whole := seen_join texts
  rw [elementsOf_parts parts (whole.trans (by rw [List.map_map]; rfl)), List.map_map]
  rfl

/-- A list of one text loses the blanks around the text when it is split. -/
theorem elementsOf_single {before text after : List Char} {json : Json}
    (blank : Json.Blank before) (spelled : Spells text json) (blankAfter : Json.Blank after) :
    elementsOf (Utf8.octets (join [before ++ text ++ after])) = .ok [String.ofList text] := by
  have part := Part.mk blank (isElement_of_spells spelled) blankAfter
  refine @elementsOf_parts _ [(_, text)] (List.forall_mem_singleton.2 part) ?_
  refine (seen_join _).trans ?_
  simp only [List.map_cons, List.map_nil, seen_append, seen_blank blank, seen_blank blankAfter,
    List.append_assoc]

/-- The answer that serves records is the list of their texts. -/
theorem elementsOf_ofRecords (records : List Record) :
    elementsOf (Utf8.octets (ofRecords records)) = .ok (records.map Record.text) := by
  have each : ∀ text ∈ records.map Record.chars, ∃ json, Spells text json :=
    List.forall_mem_map.2 fun record _ => ⟨_, record.toValue.spells_chars⟩
  rw [ofRecords, elementsOf_join each, List.map_map]
  rfl

theorem split_ofRecords (records : List Record) (limit : Nat) :
    split (Utf8.octets (ofRecords records)) limit
      = if limit < records.length then .error (.oversized limit records.length)
        else .ok (records.map Record.text) := by
  rw [split, elementsOf_ofRecords]
  simp only [List.length_map]

end SignedFacts.Response
