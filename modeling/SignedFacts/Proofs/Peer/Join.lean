import SignedFacts.Proofs.Json.Local
import SignedFacts.Proofs.Peer.Split

/-!
# Splitting undoes joining

What splits as the one element of a list is an element of every list it is joined into, and
gives the same text there (`split_joined`).  It need not be anything that the grammar
derives.  The splitter passed over it once, and so passes over it again among others.
-/

namespace SignedFacts.Response

open Json (Blank Cursor ReadError of_bind_eq_ok)
open Json.Cursor (Between Followed Valued EndsVisible between_skipSpace between_mark
  between_skipValue)

/-! ## Octets -/

/-- The list of some parts, in octets. -/
def bracketed (parts : List (List UInt8)) : List UInt8 :=
  0x5B :: (List.intercalate [0x2C] parts ++ [0x5D])

/-- Octets without the blanks around them. -/
def trimmed (octets : List UInt8) : List UInt8 :=
  let isBlank (octet : UInt8) := Json.isSpace (Char.ofUInt8 octet)
  ((octets.dropWhile isBlank).reverse.dropWhile isBlank).reverse

theorem view_inj {first second : List UInt8} : view first = view second ↔ first = second :=
  List.map_inj_right fun a b same => by
    rw [← UInt8.toNat_inj, ← toNat_ofUInt8, same, toNat_ofUInt8]

theorem unview_view_eq_ok_iff {octets : List UInt8} {text : List Char} :
    unview (view octets) = .ok text ↔ octets = Utf8.octets text := by
  have back : (view octets).map (fun c => UInt8.ofNat c.toNat) = octets := by
    simp [view, toNat_ofUInt8, Function.comp_def]
  rw [unview, back, ← Utf8.decode_eq_ok_iff]
  cases Utf8.decode octets with
  | ok read => simp
  | error _ => simp

/-- What is seen of a list of parts is the list of what is seen of them. -/
theorem view_bracketed (parts : List (List UInt8)) :
    view (bracketed parts) = join (parts.map view) := by
  have rest (part : List UInt8) (parts : List (List UInt8)) :
      view (List.intercalate [0x2C] (part :: parts) ++ [0x5D])
        = view part ++ joinRest (parts.map view) := by
    induction parts generalizing part with
    | nil => rw [List.intercalate_singleton, view, List.map_append]; rfl
    | cons next parts induction =>
        have behind := induction next
        rw [view] at behind
        rw [List.intercalate_cons_cons, List.append_assoc, List.append_assoc, view, List.map_append,
          List.map_append, behind]
        rfl
  cases parts with
  | nil => rfl
  | cons part parts => exact congrArg ('[' :: ·) (rest part parts)

/-- A text is what is left of it with blanks around it, if it neither begins nor ends
with one. -/
theorem trimmed_eq {octets text : List UInt8} {before after : List Char} (blank : Blank before)
    (blankAfter : Blank after) (whole : view octets = before ++ (view text ++ after))
    (front : ∃ c more, view text = c :: more ∧ Json.isSpace c = false)
    (last : EndsVisible (view text)) : trimmed octets = text := by
  have seen : view (trimmed octets)
      = (Json.skipSpace (Json.skipSpace (view octets)).reverse).reverse := by
    simp only [trimmed, view, Json.skipSpace, ← List.map_reverse, List.dropWhile_map]
    rfl
  obtain ⟨c, more, shape, visible⟩ := front
  obtain ⟨inner, d, shapeLast, visibleLast⟩ := last
  have blankReverse : Blank after.reverse := fun c member => blankAfter c (List.mem_reverse.1 member)
  have left : Json.skipSpace (view octets) = view text ++ after := by
    rw [whole, Json.skipSpace_append blank, shape, List.cons_append, Json.skipSpace_cons visible]
  have right : Json.skipSpace (view text ++ after).reverse = (view text).reverse := by
    rw [List.reverse_append, Json.skipSpace_append blankReverse, shapeLast, List.reverse_append,
      List.reverse_singleton, List.singleton_append, Json.skipSpace_cons visibleLast]
  rw [← view_inj, seen, left, right, List.reverse_reverse]

/-! ## One element -/

/-- What was passed over as an element stands behind its blanks, is one anywhere, and its
octets are the text that was given back. -/
theorem between_element {bound : Nat} {cursor behind : Cursor} {document : String}
    (passed : element bound cursor = .ok (document, behind)) :
    Between (Followed Blank fun text => (∃ c more, text = c :: more ∧ Json.isSpace c = false
        ∧ c ≠ ']') ∧ Valued octetSize text ∧ unview text = .ok document.toList) cursor behind := by
  obtain ⟨middle, value, passed⟩ := of_bind_eq_ok passed
  obtain ⟨characters, given, same⟩ := of_bind_eq_ok passed
  cases same
  obtain ⟨text, valued, ahead, place⟩ := between_skipValue value
  rw [ahead, place, Nat.add_sub_cancel_left, List.take_left] at given
  -- The text is not empty, so its front is what stands behind the blanks.
  obtain ⟨position, c, rest, shape, open_⟩ := Cursor.front_of_skipValue value
  rw [Cursor.skipSpace_idem] at shape
  have front : ∃ more, text = c :: more := by
    rw [shape] at ahead
    obtain ⟨_, ⟨inner, d, rfl, _⟩⟩ := valued
    cases inner with
    | nil => exact ⟨[], by simpa using (List.cons.inj ahead).1.symm⟩
    | cons e inner => exact ⟨inner ++ [d], by simpa using (List.cons.inj ahead).1.symm⟩
  obtain ⟨more, rfl⟩ := front
  have visible := Cursor.visible_of_skipSpace shape
  have between : Between (· = c :: more) cursor.skipSpace behind := ⟨_, rfl, ahead, place⟩
  refine ((between_skipSpace cursor).append between).imp ?_
  rintro _ ⟨blanks, _, blank, rfl, rfl⟩
  exact ⟨blanks, c :: more, blank, ⟨⟨c, more, rfl, visible, open_⟩, valued, by simpa using given⟩, rfl⟩

/-- Every element counts. -/
theorem length_lt_of_elements {bound : Nat} {done texts : List String} {cursor : Cursor}
    {behind : List Char} (passed : elements bound done cursor = .ok (texts, behind)) :
    done.length < texts.length := by
  induction bound generalizing done cursor with
  | zero => cases passed
  | succ bound induction =>
      obtain ⟨⟨text, after⟩, _, passed⟩ := of_bind_eq_ok passed
      simp only at passed
      split at passed
      next => cases passed
      next =>
        cases passed
        simp
      next =>
        split at passed
        next => cases passed
        next => cases passed
        next =>
          have more := induction passed
          rw [List.length_cons] at more
          omega
      next => cases passed

theorem element_of_elements {bound : Nat} {document : String} {cursor : Cursor}
    {behind : List Char} (passed : elements bound [] cursor = .ok ([document], behind)) :
    ∃ middle position, element bound cursor = .ok (document, middle)
      ∧ middle.skipSpace = ⟨position, ']' :: behind⟩ := by
  cases bound with
  | zero => cases passed
  | succ bound =>
      obtain ⟨⟨text, middle⟩, first, passed⟩ := of_bind_eq_ok passed
      simp only at passed
      generalize next : middle.skipSpace = after at passed
      split at passed
      next => cases passed
      next =>
        cases passed
        exact ⟨middle, _, first, next⟩
      next =>
        split at passed
        next => cases passed
        next => cases passed
        next => exact absurd (length_lt_of_elements passed) (by simp)
      next => cases passed

/-- The list of one part that is cut into one document is passed over as one element, and
only blanks stand behind it. -/
theorem elements_of_elementsOf {characters : List Char} {body : List UInt8} {document : String}
    (whole : view body = '[' :: characters) (listed : elementsOf body = .ok [document]) :
    ∃ behind, elements (body.length + 1) [] ⟨0, characters⟩ = .ok ([document], behind)
      ∧ Json.skipSpace behind = [] := by
  simp only [elementsOf, whole, Json.skipSpace_cons (show Json.isSpace '[' = false from rfl)]
    at listed
  split at listed
  next => cases listed
  next =>
    obtain ⟨_, none, listed⟩ := of_bind_eq_ok listed
    cases none
    split at listed <;> cases listed
  next =>
    obtain ⟨⟨texts, behind⟩, read, ended⟩ := of_bind_eq_ok listed
    simp only at ended
    split at ended
    next empty =>
      cases ended
      exact ⟨behind, read, List.isEmpty_iff.1 empty⟩
    next => cases ended

/-- Of two closing brackets with blanks behind the second, the second is the last one. -/
theorem eq_of_close {first second blanks : List Char}
    (same : first ++ [']'] = second ++ [']'] ++ blanks) (ended : Json.skipSpace blanks = []) :
    first = second := by
  obtain ⟨_, blank, whole⟩ := Json.exists_blank_skipSpace blanks
  rw [ended, List.append_nil] at whole
  subst whole
  rcases List.eq_nil_or_concat blanks with rfl | ⟨front, c, rfl⟩
  · simpa using same
  · rw [List.concat_eq_append, ← List.append_assoc] at same
    have last : ']' = c := (List.cons.inj (List.append_inj' same rfl).2).1
    have space := blank c (by simp)
    rw [← last] at space
    cases space

/-- A part that splits on its own holds one element, which is given back without the
blanks around it. -/
theorem part_of_elementsOf {octets : List UInt8} {document : String}
    (listed : elementsOf (bracketed [octets]) = .ok [document]) :
    Part (view octets) document.toList ∧ trimmed octets = Utf8.encode document := by
  have whole : view (bracketed [octets]) = '[' :: (view octets ++ [']']) := view_bracketed [octets]
  obtain ⟨rest, read, ended⟩ := elements_of_elementsOf whole listed
  obtain ⟨middle, position, first, close⟩ := element_of_elements read
  obtain ⟨_, ⟨_, _, ⟨before, text, blank, ⟨front, valued, given⟩, rfl⟩,
    ⟨after, _, blankAfter, rfl, rfl⟩, rfl⟩, ahead, _⟩ :=
    (between_element first).append (between_mark close)
  have inside : view octets = before ++ text ++ after := by
    refine eq_of_close ?_ ended
    simpa using ahead
  obtain ⟨_, octetsAfter, rfl, left, rfl⟩ := List.map_eq_append_iff.1 inside
  obtain ⟨octetsBefore, octets, rfl, rfl, rfl⟩ := List.map_eq_append_iff.1 left
  obtain rfl : octets = Utf8.encode document := unview_view_eq_ok_iff.1 given
  obtain ⟨c, more, shape, visible, open_⟩ := front
  have isElement : IsElement document.toList := ⟨⟨c, more, shape, visible, open_⟩, valued.1⟩
  have padded := Part.mk blank isElement blankAfter
  refine ⟨?_, trimmed_eq blank blankAfter ?_ ⟨c, more, shape, visible⟩ valued.2⟩
  · simpa [view, seen, Utf8.encode] using padded
  · simp [view]

/-! ## Many elements -/

theorem elementsOf_of_split {body : List UInt8} {limit : Nat} {documents : List String}
    (cut : split body limit = .ok documents) : elementsOf body = .ok documents := by
  rw [split] at cut
  split at cut
  next => cases cut
  next listed =>
    split at cut
    next => cases cut
    next =>
      cases cut
      exact listed

theorem elementsOf_bracketed {parts : List (List UInt8 × String)}
    (alone : ∀ part ∈ parts, elementsOf (bracketed [part.1]) = .ok [part.2]) :
    elementsOf (bracketed (parts.map Prod.fst)) = .ok (parts.map Prod.snd) := by
  have each : ∀ pair ∈ parts.map (fun part => (view part.1, part.2.toList)), Part pair.1 pair.2 :=
    List.forall_mem_map.2 fun part member => (part_of_elementsOf (alone part member)).1
  have whole := view_bracketed (parts.map Prod.fst)
  rw [List.map_map] at whole
  rw [elementsOf_parts each (whole.trans (by rw [List.map_map]; rfl)), List.map_map]
  simp [Function.comp_def]

/-- Parts that each split alone, into one document, split the same when they are joined, and
each document is its part without the blanks around it.  Only the number of parts can be
too large.  The list that serves records is such a list, whatever the records are. -/
theorem split_joined (parts : List (List UInt8 × String))
    (alone : ∀ part ∈ parts, ∃ limit, split (bracketed [part.1]) limit = .ok [part.2]) :
    (∀ limit, split (bracketed (parts.map Prod.fst)) limit
        = if parts.length ≤ limit then .ok (parts.map Prod.snd)
          else .error (.oversized limit parts.length))
      ∧ (∀ part ∈ parts, Utf8.encode part.2 = trimmed part.1)
      ∧ ∀ (records : List Record) (limit : Nat), records.length ≤ limit →
          split (Utf8.octets (ofRecords records)) limit = .ok (records.map Record.text) := by
  have listed (part : List UInt8 × String) (member : part ∈ parts) :
      elementsOf (bracketed [part.1]) = .ok [part.2] := by
    obtain ⟨limit, cut⟩ := alone part member
    exact elementsOf_of_split cut
  refine ⟨fun limit => ?_, fun part member => ?_, fun records limit few => ?_⟩
  · simp only [split, elementsOf_bracketed listed, List.length_map]
    rcases Nat.lt_or_ge limit parts.length with many | few
    · rw [if_pos many, if_neg (Nat.not_le.2 many)]
    · rw [if_neg (Nat.not_lt.2 few), if_pos few]
  · exact (part_of_elementsOf (listed part member)).2.symm
  · rw [split_ofRecords, if_neg (Nat.not_lt.2 few)]

/-- An object with a repeated key and half a surrogate pair, with brackets and an escaped
quote inside a string and blanks around it, then a number and a string. -/
def oddParts : List (List UInt8 × String) :=
  [(Utf8.encode " \x7b\"k\":[1,\"]\\\",\\ud800\"],\"k\":2\x7d\n",
      "\x7b\"k\":[1,\"]\\\",\\ud800\"],\"k\":2\x7d"),
    (Utf8.encode "7", "7"), (Utf8.encode "\t\"x\\\\\"", "\"x\\\\\"")]

theorem split_joined_oddParts :
    (∀ part ∈ oddParts, ∃ limit, split (bracketed [part.1]) limit = .ok [part.2])
      ∧ split (bracketed (oddParts.map Prod.fst)) 3 = .ok (oddParts.map Prod.snd)
      ∧ split (bracketed (oddParts.map Prod.fst)) 2 = .error (.oversized 2 3) := by
  have alone : ∀ part ∈ oddParts, ∃ limit, split (bracketed [part.1]) limit = .ok [part.2] := by
    simp only [oddParts, List.forall_mem_cons]
    exact ⟨⟨1, by decide +kernel⟩, ⟨1, by decide +kernel⟩, ⟨1, by decide +kernel⟩,
      List.forall_mem_nil _⟩
  obtain ⟨cut, _⟩ := split_joined oddParts alone
  exact ⟨alone, (cut 3).trans (if_pos (by decide)), (cut 2).trans (if_neg (by decide))⟩

end SignedFacts.Response
