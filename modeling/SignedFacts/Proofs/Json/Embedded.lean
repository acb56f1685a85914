import SignedFacts.Proofs.Json.Reserved

/-!
# Texts embedded in a text

The guard sees the tree that a text spells.  The plain reader puts other trees in
place of embedded texts, and the guard has not seen those.  They are the only
place where a repeated key can come from: what the plain reader makes of a tree
without repeated keys repeats none either exactly if no embedded text is read as
a tree that does (`uniqueKeys_interpret_iff`).
-/

namespace SignedFacts.Json

/-- A text is embedded in a tree, alone behind the key for it. -/
def Embeds (json : Json) (text : String) : Prop :=
  ∃ level, (level, .object [(textKey, .string text)]) ∈ json.nodes 1

/-- A tree is no object that stands for a text with a repeated key. -/
def StandsForUnique (embedded : List Char → Except ReadError Json) (node : Json) : Prop :=
  ∀ text, node = .object [(textKey, .string text)] →
    ∀ given, embedded text.toList = .ok given → given.UniqueKeys

theorem standsForUnique_of_ne {embedded : List Char → Except ReadError Json} {node : Json}
    (other : ∀ members, node ≠ .object members) : node.StandsForUnique embedded :=
  fun _ same => absurd same (other _)

section Levels

variable {property : Json → Prop}

/-- A property of nodes alone holds everywhere at whatever level the tree
stands. -/
theorem everywhere_level {json : Json} {level : Nat}
    (everywhere : json.Everywhere (fun _ node => property node) level) (other : Nat) :
    json.Everywhere (fun _ node => property node) other := by
  induction json using induct generalizing level other with
  | array items induction =>
      obtain ⟨root, inside⟩ := everywhere_array.1 everywhere
      exact everywhere_array.2
        ⟨root, fun item member => induction item member (inside item member) _⟩
  | object members induction =>
      obtain ⟨root, inside⟩ := everywhere_object.1 everywhere
      exact everywhere_object.2
        ⟨root, fun member among => induction member among (inside member among) _⟩
  | _ => exact everywhere_of_scalar rfl everywhere.root

end Levels

/-! ## Interpreted parts -/

theorem forall_interpreted_iff {α β : Type} {f : α → Option β} {p : α → Prop} {q : β → Prop}
    {parts : List α} {values : List β} (same : parts.map f = values.map some)
    (each : ∀ part ∈ parts, ∀ value, f part = some value → (q value ↔ p part)) :
    (∀ value ∈ values, q value) ↔ ∀ part ∈ parts, p part := by
  induction parts generalizing values with
  | nil =>
      cases values with
      | nil => simp
      | cons => cases same
  | cons part rest induction =>
      cases values with
      | nil => cases same
      | cons value values =>
          obtain ⟨first, others⟩ := List.cons.inj same
          obtain ⟨here, behind⟩ := List.forall_mem_cons.1 each
          rw [List.forall_mem_cons, List.forall_mem_cons, here value first,
            induction others behind]

section Unpacked

variable {embedded : List Char → Except ReadError Json} {members : List (String × Json)}
  {given : Json} {level : Nat}

/-- What stands in place of an object repeats no key unless an embedded text
does. -/
theorem unique_of_unpack?_iff (front : startsReserved members = true)
    (unpacked : unpack? embedded members = some given) :
    given.Everywhere (fun _ node => node.KeysDistinct) level
      ↔ (Json.object members).Everywhere (fun _ node => node.StandsForUnique embedded) level := by
  obtain ⟨key, text, rfl⟩ := single_of_unpack? unpacked
  have inside : ∀ member ∈ [(key, Json.string text)],
      member.2.Everywhere (fun _ node => node.StandsForUnique embedded) (level + 1) :=
    List.forall_mem_singleton.2 (everywhere_of_scalar rfl (standsForUnique_of_ne (by simp)))
  rw [everywhere_object, and_iff_left inside]
  rw [unpack?] at unpacked
  split at unpacked
  next number =>
    have scalar := scalar_of_readNumberText (toOption_eq_some_iff.1 unpacked)
    refine iff_of_true (everywhere_of_scalar scalar ?_) fun other same => ?_
    · cases given with
      | object => cases scalar
      | _ => trivial
    · obtain ⟨rfl, _⟩ : key = textKey ∧ text = other := by simpa using same
      exact absurd number (by decide)
  next noNumber =>
    obtain rfl : key = textKey := by simpa [startsReserved, isReserved, noNumber] using front
    have read := toOption_eq_some_iff.1 unpacked
    constructor
    · rintro unique _ ⟨⟩ other again
      obtain rfl := Except.ok.inj (read.symm.trans again)
      exact everywhere_level unique 1
    · exact fun stands => everywhere_level (stands text rfl given read) level

end Unpacked

/-- The same of whole trees. -/
theorem unique_of_interpret_iff {embedded : List Char → Except ReadError Json} {level : Nat}
    {json given : Json} (unique : json.Everywhere (fun _ node => node.KeysDistinct) level)
    (interpreted : interpret (some embedded) json = some given) :
    given.Everywhere (fun _ node => node.KeysDistinct) level
      ↔ json.Everywhere (fun _ node => node.StandsForUnique embedded) level := by
  induction json using induct generalizing level given with
  | array items induction =>
      rw [interpret, Option.map_eq_some_iff] at interpreted
      obtain ⟨values, inside, rfl⟩ := interpreted
      have unique := (everywhere_array.1 unique).2
      rw [everywhere_array, everywhere_array, forall_interpreted_iff
        (interpretItems_eq_some_iff.1 inside) fun item member value read =>
          induction item member (unique item member) read]
      exact and_congr_left fun _ => iff_of_true trivial (standsForUnique_of_ne (by simp))
  | object members induction =>
      rw [interpret_object] at interpreted
      split at interpreted
      next front => exact unique_of_unpack?_iff front interpreted
      next front =>
        obtain ⟨values, inside, rfl⟩ := Option.map_eq_some_iff.1 interpreted
        rw [interpretMembers_eq_some_iff] at inside
        obtain ⟨keys, unique⟩ := everywhere_object.1 unique
        have sameKeys : members.map (·.1) = values.map (·.1) := by
          simpa [Function.comp_def] using congrArg (List.map (·.1)) inside
        have keysToo : (values.map (·.1)).Nodup := by
          rw [← sameKeys]
          exact keys
        have results : members.map (fun member => interpret (some embedded) member.2)
            = (values.map (·.2)).map some := by
          simpa [Function.comp_def] using congrArg (List.map (·.2)) inside
        have each := forall_interpreted_iff results fun member among value read =>
          induction member among (unique member among) read
        rw [List.forall_mem_map] at each
        rw [everywhere_object, everywhere_object, each]
        refine and_congr_left fun _ => iff_of_true keysToo fun text same => ?_
        cases same
        exact absurd rfl front
  | _ =>
      cases interpreted
      exact iff_of_true unique (everywhere_of_scalar rfl (standsForUnique_of_ne (by simp)))

/-- In place of a tree that repeats no key the plain rules put one that repeats
none either, unless an embedded text is read as a tree that does. -/
theorem uniqueKeys_interpret_iff {embedded : List Char → Except ReadError Json} {json given : Json}
    (unique : json.UniqueKeys) (interpreted : interpret (some embedded) json = some given) :
    given.UniqueKeys
      ↔ ∀ text, json.Embeds text → ∀ tree, embedded text.toList = .ok tree → tree.UniqueKeys := by
  rw [UniqueKeys, unique_of_interpret_iff unique interpreted]
  constructor
  · rintro stands text ⟨level, among⟩
    exact stands _ among text rfl
  · rintro all ⟨level, node⟩ among text rfl
    exact all text ⟨level, among⟩

end SignedFacts.Json
