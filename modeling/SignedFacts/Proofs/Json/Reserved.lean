import SignedFacts.Proofs.Json.Completeness

/-!
# What the plain reader never gives

An object whose first key is reserved gives way to what it stands for, and this
has been read by the same rules.  So no object in a tree that the plain reader
gives begins with a reserved key (`frontsPlain_of_readPlainWithin`).
-/

namespace SignedFacts.Json

/-- No object in a tree begins with a reserved key. -/
def FrontsPlain (json : Json) : Prop :=
  ∀ level, json.Everywhere (fun _ node => node.FrontPlain) level

theorem frontsPlain_of_scalar {json : Json} (scalar : json.isContainer = false) :
    json.FrontsPlain := by
  refine fun level => everywhere_of_scalar scalar ?_
  cases json with
  | object => cases scalar
  | _ => trivial

theorem scalar_of_readNumberText {text : List Char} {json : Json}
    (read : readNumberText text = .ok json) : json.isContainer = false := by
  obtain ⟨⟨n, rest⟩, _, read⟩ := of_bind_eq_ok read
  simp only at read
  split at read
  next => cases read; rfl
  next => cases read

/-- Members with the keys of others begin with a reserved key if these do. -/
theorem startsReserved_of_interpretMembers
    {embedded? : Option (List Char → Except ReadError Json)} {members values : List (String × Json)}
    (inside : interpretMembers embedded? members = some values) :
    startsReserved values = startsReserved members := by
  rw [interpretMembers_eq_some_iff] at inside
  cases members with
  | nil =>
      obtain rfl : values = [] := by simpa using inside.symm
      rfl
  | cons member members =>
      cases values with
      | nil => cases inside
      | cons value values =>
          have keys : member.1 = value.1 := (Prod.mk.inj (List.cons.inj inside).1).1
          exact (congrArg isReserved keys).symm

section Plain

variable {embedded : List Char → Except ReadError Json}
  (plain : ∀ {text json}, embedded text = .ok json → json.FrontsPlain)

include plain

theorem frontsPlain_of_unpack? {members : List (String × Json)} {given : Json}
    (unpacked : unpack? embedded members = some given) : given.FrontsPlain := by
  obtain ⟨key, text, rfl⟩ := single_of_unpack? unpacked
  rw [unpack?] at unpacked
  split at unpacked
  next => exact frontsPlain_of_scalar (scalar_of_readNumberText (toOption_eq_some_iff.1 unpacked))
  next => exact plain (toOption_eq_some_iff.1 unpacked)

/-- If no embedded text brings a reserved key to a front, nothing else does. -/
theorem frontsPlain_of_interpret {json given : Json}
    (interpreted : interpret (some embedded) json = some given) : given.FrontsPlain := by
  induction json using induct generalizing given with
  | array items induction =>
      rw [interpret, Option.map_eq_some_iff] at interpreted
      obtain ⟨values, inside, rfl⟩ := interpreted
      rw [interpretItems_eq_some_iff] at inside
      refine fun level => everywhere_array.2 ⟨trivial, fun value member => ?_⟩
      have stands : some value ∈ items.map (interpret (some embedded)) :=
        inside ▸ List.mem_map_of_mem member
      obtain ⟨item, among, same⟩ := List.mem_map.1 stands
      exact induction item among same (level + 1)
  | object members induction =>
      rw [interpret_object] at interpreted
      split at interpreted
      next => exact frontsPlain_of_unpack? plain interpreted
      next front =>
        obtain ⟨values, inside, rfl⟩ := Option.map_eq_some_iff.1 interpreted
        have same := startsReserved_of_interpretMembers inside
        rw [interpretMembers_eq_some_iff] at inside
        refine fun level => everywhere_object.2
          ⟨same.trans (Bool.eq_false_iff.2 front), fun value member => ?_⟩
        have stands : (value.1, some value.2)
            ∈ members.map fun member => (member.1, interpret (some embedded) member.2) :=
          inside ▸ List.mem_map.2 ⟨value, member, rfl⟩
        obtain ⟨entry, among, same⟩ := List.mem_map.1 stands
        exact induction entry among (Prod.mk.inj same).2 (level + 1)
  | _ =>
      cases interpreted
      exact frontsPlain_of_scalar rfl

end Plain

/-- No object that the plain reader gives begins with a reserved key, nor does an
object inside. -/
theorem frontsPlain_of_readPlainWithin {level : Nat} {text : List Char} {json : Json}
    (read : readPlainWithin level text = .ok json) : json.FrontsPlain := by
  induction level generalizing text json with
  | zero => cases read
  | succ level induction =>
      obtain ⟨_, _, _, stands⟩ := readPlainWithin_eq_ok_iff.1 read
      exact frontsPlain_of_interpret induction stands

end SignedFacts.Json
