import SignedFacts.Json.Read

/-!
# Properties of JSON trees

Trees are compared with `same`, which makes their equality decidable.

`nodes` lists everything in a tree with the level it stands at, and
`Everywhere` says that a property holds of all of it.  The nesting limit, the
rule that no key is repeated and the absence of reserved keys are such
properties.

`interpret` is what the plain rules make of a tree that a text spells.  An
object whose first key is reserved gives way to what it stands for, or to
nothing.  Without reserved keys in front the tree stays as it is
(`interpret_eq_self`).  With more behind such a key it stands for nothing
(`reservedAlone_of_interpret`).
-/

namespace SignedFacts.Json

/-! ## Equality -/

mutual

/-- Whether two trees are the same. -/
def same : Json → Json → Bool
  | .null, .null => true
  | .bool a, .bool b => a == b
  | .number m, .number n => m = n
  | .string a, .string b => a = b
  | .array a, .array b => sameItems a b
  | .object a, .object b => sameMembers a b
  | _, _ => false

/-- Whether two lists hold the same trees. -/
def sameItems : List Json → List Json → Bool
  | [], [] => true
  | a :: as, b :: bs => same a b && sameItems as bs
  | _, _ => false

/-- Whether two objects have the same members in the same order. -/
def sameMembers : List (String × Json) → List (String × Json) → Bool
  | [], [] => true
  | (j, a) :: as, (k, b) :: bs => decide (j = k) && same a b && sameMembers as bs
  | _, _ => false

end

mutual

theorem same_iff : ∀ a b : Json, same a b = true ↔ a = b
  | .null, b => by cases b <;> simp [same]
  | .bool a, b => by cases b <;> simp [same]
  | .number a, b => by cases b <;> simp [same]
  | .string a, b => by cases b <;> simp [same]
  | .array a, b => by
      cases b with
      | array b => simpa [same] using sameItems_iff a b
      | _ => simp [same]
  | .object a, b => by
      cases b with
      | object b => simpa [same] using sameMembers_iff a b
      | _ => simp [same]

theorem sameItems_iff : ∀ a b : List Json, sameItems a b = true ↔ a = b
  | [], b => by cases b <;> simp [sameItems]
  | a :: as, b => by
      cases b with
      | nil => simp [sameItems]
      | cons b bs => simp [sameItems, same_iff a b, sameItems_iff as bs]

theorem sameMembers_iff : ∀ a b : List (String × Json), sameMembers a b = true ↔ a = b
  | [], b => by cases b <;> simp [sameMembers]
  | (j, a) :: as, b => by
      cases b with
      | nil => simp [sameMembers]
      | cons b bs =>
          obtain ⟨k, b⟩ := b
          simp [sameMembers, same_iff a b, sameMembers_iff as bs]

end

instance : DecidableEq Json := fun a b => decidable_of_iff _ (same_iff a b)

/-! ## Induction -/

/-- Induction over trees, where a list or an object may use what it contains. -/
@[elab_as_elim] theorem induct {motive : Json → Prop} (null : motive .null)
    (bool : ∀ value, motive (.bool value)) (number : ∀ numeral, motive (.number numeral))
    (string : ∀ text, motive (.string text))
    (array : ∀ items, (∀ item ∈ items, motive item) → motive (.array items))
    (object : ∀ members : List (String × Json),
      (∀ member ∈ members, motive member.2) → motive (.object members)) :
    ∀ json : Json, motive json :=
  @Json.rec motive (fun items => ∀ item ∈ items, motive item)
    (fun members => ∀ member ∈ members, motive member.2) (fun member => motive member.2)
    null bool number string array object
    nofun (fun _ _ first others => List.forall_mem_cons.2 ⟨first, others⟩)
    nofun (fun _ _ first others => List.forall_mem_cons.2 ⟨first, others⟩)
    fun _ _ value => value

/-! ## Everything in a tree -/

mutual

/-- Everything in a tree with its level, where the tree itself stands at
`level`. -/
def nodes (level : Nat) : Json → List (Nat × Json)
  | .array items => (level, .array items) :: itemNodes (level + 1) items
  | .object members => (level, .object members) :: memberNodes (level + 1) members
  | json => [(level, json)]

/-- Everything in some trees with its level. -/
def itemNodes (level : Nat) : List Json → List (Nat × Json)
  | [] => []
  | item :: rest => nodes level item ++ itemNodes level rest

/-- Everything in the values of some members with its level. -/
def memberNodes (level : Nat) : List (String × Json) → List (Nat × Json)
  | [] => []
  | (_, json) :: rest => nodes level json ++ memberNodes level rest

end

/-- A property holds everywhere in a tree that stands at `level`. -/
def Everywhere (property : Nat → Json → Prop) (level : Nat) (json : Json) : Prop :=
  ∀ node ∈ json.nodes level, property node.1 node.2

section Everywhere

variable {property other : Nat → Json → Prop} {level : Nat}

theorem mem_itemNodes {node : Nat × Json} {items : List Json} :
    node ∈ itemNodes level items ↔ ∃ item ∈ items, node ∈ item.nodes level := by
  induction items with
  | nil => simp [itemNodes]
  | cons item rest induction => simp [itemNodes, induction]

theorem mem_memberNodes {node : Nat × Json} {members : List (String × Json)} :
    node ∈ memberNodes level members ↔ ∃ member ∈ members, node ∈ member.2.nodes level := by
  induction members with
  | nil => simp [memberNodes]
  | cons member rest induction => simp [memberNodes, induction]

theorem everywhere_array {items : List Json} :
    (Json.array items).Everywhere property level
      ↔ property level (.array items)
        ∧ ∀ item ∈ items, item.Everywhere property (level + 1) := by
  simp only [Everywhere, nodes, List.forall_mem_cons, mem_itemNodes]
  exact and_congr_right fun _ =>
    ⟨fun all item member node inside => all node ⟨item, member, inside⟩,
      fun all node ⟨item, member, inside⟩ => all item member node inside⟩

theorem everywhere_object {members : List (String × Json)} :
    (Json.object members).Everywhere property level
      ↔ property level (.object members)
        ∧ ∀ member ∈ members, member.2.Everywhere property (level + 1) := by
  simp only [Everywhere, nodes, List.forall_mem_cons, mem_memberNodes]
  exact and_congr_right fun _ =>
    ⟨fun all item member node inside => all node ⟨item, member, inside⟩,
      fun all node ⟨item, member, inside⟩ => all item member node inside⟩

theorem Everywhere.root {json : Json} (everywhere : json.Everywhere property level) :
    property level json :=
  everywhere (level, json) (by cases json <;> simp [nodes])

theorem Everywhere.mono {json : Json} (everywhere : json.Everywhere property level)
    (weaker : ∀ level node, property level node → other level node) :
    json.Everywhere other level :=
  fun node member => weaker _ _ (everywhere node member)

end Everywhere

/-- Whether a tree is a list or an object. -/
def isContainer : Json → Bool
  | .array _ => true
  | .object _ => true
  | _ => false

theorem everywhere_of_scalar {property : Nat → Json → Prop} {level : Nat} {json : Json}
    (scalar : json.isContainer = false) (root : property level json) :
    json.Everywhere property level := by
  intro node member
  cases json with
  | array => cases scalar
  | object => cases scalar
  | _ => obtain rfl := List.mem_singleton.1 member; exact root

/-! ## The properties in use -/

/-- A tree is no object with two members of one key. -/
def KeysDistinct : Json → Prop
  | .object members => (members.map (·.1)).Nodup
  | _ => True

/-- A tree is no object with a reserved key. -/
def KeysPlain : Json → Prop
  | .object members => ∀ member ∈ members, isReserved member.1 = false
  | _ => True

/-- Whether the first member has a reserved key. -/
def startsReserved : List (String × Json) → Bool
  | [] => false
  | (key, _) :: _ => isReserved key

/-- A tree is no object whose first key is reserved. -/
def FrontPlain : Json → Prop
  | .object members => startsReserved members = false
  | _ => True

/-- A tree is no object that holds more behind a reserved first key. -/
def ReservedAlone : Json → Prop
  | .object members => startsReserved members = true → members.length = 1
  | _ => True

/-- No object in a tree repeats a key. -/
def UniqueKeys (json : Json) : Prop := json.Everywhere (fun _ node => node.KeysDistinct) 1

/-- No object in a tree has a reserved key. -/
def AvoidsReserved (json : Json) : Prop := json.Everywhere (fun _ node => node.KeysPlain) 1

/-- At most `limit` containers stand inside each other. -/
def NestsWithin (limit : Nat) (json : Json) : Prop :=
  json.Everywhere (fun level node => node.isContainer = true → level ≤ limit) 1

section Decidable

instance {property : Nat → Json → Prop} [∀ level node, Decidable (property level node)]
    (level : Nat) (json : Json) : Decidable (json.Everywhere property level) :=
  inferInstanceAs (Decidable (∀ node ∈ json.nodes level, property node.1 node.2))

instance : DecidablePred KeysDistinct
  | .object members => inferInstanceAs (Decidable (members.map (·.1)).Nodup)
  | .null | .bool _ | .number _ | .string _ | .array _ => isTrue trivial

instance : DecidablePred KeysPlain
  | .object members => inferInstanceAs (Decidable (∀ member ∈ members, isReserved member.1 = false))
  | .null | .bool _ | .number _ | .string _ | .array _ => isTrue trivial

instance : DecidablePred FrontPlain
  | .object members => inferInstanceAs (Decidable (startsReserved members = false))
  | .null | .bool _ | .number _ | .string _ | .array _ => isTrue trivial

instance : DecidablePred UniqueKeys := fun json =>
  inferInstanceAs (Decidable (json.Everywhere (fun _ node => node.KeysDistinct) 1))

instance : DecidablePred AvoidsReserved := fun json =>
  inferInstanceAs (Decidable (json.Everywhere (fun _ node => node.KeysPlain) 1))

instance (limit : Nat) : DecidablePred (NestsWithin limit) := fun json =>
  inferInstanceAs (Decidable (json.Everywhere
    (fun level node => node.isContainer = true → level ≤ limit) 1))

end Decidable

theorem frontPlain_of_keysPlain {json : Json} (plain : json.KeysPlain) : json.FrontPlain := by
  cases json with
  | object members =>
      cases members with
      | nil => rfl
      | cons member rest => exact plain member (.head _)
  | _ => trivial

/-! ## What the plain rules make of a tree -/

/-- What the members of an object stand for whose first key is reserved. -/
def unpack? (embedded : List Char → Except ReadError Json) :
    List (String × Json) → Option Json
  | [(key, .string text)] =>
      if key = numberKey then (readNumberText text.toList).toOption
      else (embedded text.toList).toOption
  | _ => none

mutual

/-- What a tree stands for, if reserved keys have the meaning `embedded?`. -/
def interpret (embedded? : Option (List Char → Except ReadError Json)) : Json → Option Json
  | .array items => (interpretItems embedded? items).map .array
  | .object members =>
      match embedded?, startsReserved members with
      | some embedded, true => unpack? embedded members
      | _, _ => (interpretMembers embedded? members).map .object
  | json => some json

/-- What some trees stand for. -/
def interpretItems (embedded? : Option (List Char → Except ReadError Json)) :
    List Json → Option (List Json)
  | [] => some []
  | item :: rest =>
      match interpret embedded? item with
      | none => none
      | some value => (interpretItems embedded? rest).map (value :: ·)

/-- What the values of some members stand for. -/
def interpretMembers (embedded? : Option (List Char → Except ReadError Json)) :
    List (String × Json) → Option (List (String × Json))
  | [] => some []
  | (key, json) :: rest =>
      match interpret embedded? json with
      | none => none
      | some value => (interpretMembers embedded? rest).map ((key, value) :: ·)

end

section Interpret

variable {embedded? : Option (List Char → Except ReadError Json)}

theorem interpret_object (embedded : List Char → Except ReadError Json)
    (members : List (String × Json)) :
    interpret (some embedded) (.object members)
      = if startsReserved members then unpack? embedded members
        else (interpretMembers (some embedded) members).map .object := by
  rw [interpret.eq_def]
  simp only
  cases startsReserved members <;> rfl

theorem interpretItems_eq_some_iff {items values : List Json} :
    interpretItems embedded? items = some values
      ↔ items.map (interpret embedded?) = values.map some := by
  induction items generalizing values with
  | nil => cases values <;> simp [interpretItems]
  | cons item rest induction =>
      rw [interpretItems]
      cases values with
      | nil =>
          cases interpret embedded? item <;> cases interpretItems embedded? rest <;> simp
      | cons value values =>
          rw [List.map_cons, List.map_cons, List.cons.injEq, ← induction]
          cases interpret embedded? item <;> cases interpretItems embedded? rest <;> simp

theorem interpretMembers_eq_some_iff {members values : List (String × Json)} :
    interpretMembers embedded? members = some values
      ↔ members.map (fun member => (member.1, interpret embedded? member.2))
        = values.map fun member => (member.1, some member.2) := by
  induction members generalizing values with
  | nil => cases values <;> simp [interpretMembers]
  | cons member rest induction =>
      rw [interpretMembers]
      cases values with
      | nil =>
          cases interpret embedded? member.2 <;> cases interpretMembers embedded? rest <;> simp
      | cons value values =>
          rw [List.map_cons, List.map_cons, List.cons.injEq, ← induction]
          cases interpret embedded? member.2 <;> cases interpretMembers embedded? rest <;>
            simp [Prod.ext_iff]

theorem interpret_of_scalar {json : Json} (scalar : json.isContainer = false) :
    interpret embedded? json = some json := by
  cases json with
  | array => cases scalar
  | object => cases scalar
  | _ => rfl

/-- An object without a reserved key in front stands for the object of what its members
stand for. -/
theorem interpret_object_of_plain {members values : List (String × Json)}
    (plain : embedded?.isSome = true → startsReserved members = false)
    (inside : interpretMembers embedded? members = some values) :
    interpret embedded? (.object members) = some (.object values) := by
  rw [interpret.eq_def]
  simp only
  split
  next embedded reserved =>
    rw [plain rfl] at reserved
    cases reserved
  next => rw [inside, Option.map_some]

/-- Without reserved keys in front a tree stands for itself. -/
theorem interpret_eq_self {level : Nat} {json : Json}
    (plain : json.Everywhere (fun _ node => embedded?.isSome = true → node.FrontPlain) level) :
    interpret embedded? json = some json := by
  induction json using induct generalizing level with
  | array items induction =>
      have inside := (everywhere_array.1 plain).2
      have same := interpretItems_eq_some_iff.2
        (List.map_congr_left fun item member => induction item member (inside item member))
      rw [interpret, same, Option.map_some]
  | object members induction =>
      obtain ⟨front, inside⟩ := everywhere_object.1 plain
      have same := interpretMembers_eq_some_iff.2 (List.map_congr_left fun member among =>
        congrArg (Prod.mk member.1) (induction member among (inside member among)))
      exact interpret_object_of_plain front same
  | _ => rfl

theorem single_of_unpack? {embedded : List Char → Except ReadError Json}
    {members : List (String × Json)} {json : Json}
    (unpacked : unpack? embedded members = some json) :
    ∃ key text, members = [(key, .string text)] := by
  rw [unpack?.eq_def] at unpacked
  split at unpacked
  next key text => exact ⟨key, text, rfl⟩
  next => cases unpacked

/-- In a tree that stands for something, reserved first keys are alone. -/
theorem reservedAlone_of_interpret {embedded : List Char → Except ReadError Json} {level : Nat}
    {json given : Json} (interpreted : interpret (some embedded) json = some given) :
    json.Everywhere (fun _ node => node.ReservedAlone) level := by
  induction json using induct generalizing level given with
  | array items induction =>
      rw [interpret, Option.map_eq_some_iff] at interpreted
      obtain ⟨values, inside, rfl⟩ := interpreted
      rw [interpretItems_eq_some_iff] at inside
      refine everywhere_array.2 ⟨trivial, fun item member => ?_⟩
      have stands : interpret (some embedded) item ∈ values.map some :=
        inside ▸ List.mem_map_of_mem member
      obtain ⟨value, _, same⟩ := List.mem_map.1 stands
      exact induction item member same.symm
  | object members induction =>
      rw [interpret_object] at interpreted
      split at interpreted
      next =>
        obtain ⟨key, text, rfl⟩ := single_of_unpack? interpreted
        exact everywhere_object.2
          ⟨fun _ => rfl, List.forall_mem_singleton.2 (everywhere_of_scalar rfl trivial)⟩
      next front =>
        obtain ⟨values, inside, rfl⟩ := Option.map_eq_some_iff.1 interpreted
        rw [interpretMembers_eq_some_iff] at inside
        refine everywhere_object.2 ⟨fun reserved => absurd reserved front, ?_⟩
        intro member among
        have stands : (member.1, interpret (some embedded) member.2)
            ∈ values.map fun value => (value.1, some value.2) :=
          inside ▸ List.mem_map.2 ⟨member, among, rfl⟩
        obtain ⟨value, _, same⟩ := List.mem_map.1 stands
        exact induction member among (Prod.mk.inj same).2.symm
  | _ => exact everywhere_of_scalar rfl trivial

theorem interpret_none (json : Json) : interpret none json = some json :=
  @interpret_eq_self none 1 json fun _ _ meaning => nomatch meaning

end Interpret

end SignedFacts.Json
