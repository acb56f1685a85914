import SignedFacts.Json.Basic
import SignedFacts.Value.Basic

/-!
# Values of JSON trees

A tree has a value if its levels are few enough and every number in it has a
decimal of acceptable length.  The first fault is told, where the members of an
object are looked at in order of their keys, and each one through all its levels
before the next.

`isOrdered_of_ofJson` says that the value of a tree has its mappings in order.
-/

namespace SignedFacts.Value

/-- Why a tree has no value. -/
inductive OfJsonError where
  /-- A level past the limit. -/
  | tooDeep (limit : Nat)
  /-- A number that has no decimal. -/
  | number (cause : Decimal.ParseError)
  deriving DecidableEq, Repr

/-- The error in words. -/
def OfJsonError.message : OfJsonError → String
  | tooDeep limit => s!"nesting deeper than {limit} levels"
  | number cause => cause.message

/-- The members whose results are all there, or the first error. -/
def allMembers {ε α : Type} : List (String × Except ε α) → Except ε (List (String × α))
  | [] => .ok []
  | (key, result) :: rest =>
      match result with
      | .error e => .error e
      | .ok value => (allMembers rest).map ((key, value) :: ·)

mutual

/-- The value of a tree that stands at level `depth`.  `keep` says which of
several members with one key counts. -/
def ofJson (keep : Sorted.Occurrence) (limit depth : Nat) (json : Json) :
    Except OfJsonError Value :=
  if limit < depth then .error (.tooDeep limit)
  else
    match json with
    | .null => .ok .null
    | .bool value => .ok (.bool value)
    | .number numeral =>
        match Decimal.ofNumeral numeral with
        | .ok x => .ok (.number x)
        | .error cause => .error (.number cause)
    | .string text => .ok (.string text)
    | .array items => (ofItems keep limit (depth + 1) items).map .sequence
    | .object members =>
        (allMembers (Sorted.collect keep (ofMembers keep limit (depth + 1) members))).map .mapping

/-- The values of items at level `depth`. -/
def ofItems (keep : Sorted.Occurrence) (limit depth : Nat) :
    List Json → Except OfJsonError (List Value)
  | [] => .ok []
  | item :: rest =>
      match ofJson keep limit depth item with
      | .error e => .error e
      | .ok value => (ofItems keep limit depth rest).map (value :: ·)

/-- The results for members at level `depth`, in the order given. -/
def ofMembers (keep : Sorted.Occurrence) (limit depth : Nat) :
    List (String × Json) → List (String × Except OfJsonError Value)
  | [] => []
  | (key, json) :: rest => (key, ofJson keep limit depth json) :: ofMembers keep limit depth rest

end

/-- The members of an object that stands at level `depth`, in order of their
keys. -/
def membersOfJson (keep : Sorted.Occurrence) (limit depth : Nat)
    (members : List (String × Json)) : Except OfJsonError (List (String × Value)) :=
  allMembers (Sorted.collect keep (ofMembers keep limit (depth + 1) members))

/-! ## The value of a tree is in order -/

theorem allMembers_eq_ok {ε α : Type} {results : List (String × Except ε α)}
    {members : List (String × α)} (all : allMembers results = .ok members) :
    results = members.map fun member => (member.1, .ok member.2) := by
  induction results generalizing members with
  | nil =>
      cases all
      rfl
  | cons head rest induction =>
      obtain ⟨key, result⟩ := head
      cases result with
      | error e => simp [allMembers] at all
      | ok value =>
          simp only [allMembers] at all
          cases more : allMembers rest with
          | error e => simp [more, Except.map] at all
          | ok others =>
              simp only [more, Except.map, Except.ok.injEq] at all
              subst all
              simp [induction more]

theorem ascending_of_map {α β : Type} {f : α → β} {members : List (String × α)}
    (ascending : Sorted.Ascending (members.map fun member => (member.1, f member.2))) :
    Sorted.Ascending members := by
  simpa [Sorted.Ascending, List.pairwise_map] using ascending

theorem isOrdered_of_members {keep : Sorted.Occurrence}
    {results : List (String × Except OfJsonError Value)} {members : List (String × Value)}
    (each : ∀ key value, (key, .ok value) ∈ results → isOrdered value = true)
    (all : allMembers (Sorted.collect keep results) = .ok members) :
    (Value.mapping members).isOrdered = true := by
  have shape := allMembers_eq_ok all
  simp only [isOrdered, Bool.and_eq_true, decide_eq_true_eq]
  constructor
  · have ascending := Sorted.ascending_collect keep results
    rw [shape] at ascending
    exact ascending_of_map ascending
  · refine membersOrdered_iff.2 fun member inside => ?_
    have among : (member.1, .ok member.2) ∈ Sorted.collect keep results := by
      rw [shape]
      exact List.mem_map.2 ⟨member, inside, rfl⟩
    exact each _ _ (Sorted.mem_collect among)

mutual

theorem isOrdered_of_ofJson {keep : Sorted.Occurrence} {limit : Nat} :
    ∀ {depth : Nat} (json : Json) {value : Value},
      ofJson keep limit depth json = .ok value → isOrdered value = true
  | depth, json, value => by
      intro result
      unfold ofJson at result
      split at result
      · cases result
      · cases json with
        | null => cases result; rfl
        | bool => cases result; rfl
        | number numeral =>
            simp only at result
            split at result
            · cases result; rfl
            · cases result
        | string => cases result; rfl
        | array items =>
            cases converted : ofItems keep limit (depth + 1) items with
            | error e => simp [converted, Except.map] at result
            | ok values =>
                simp only [converted, Except.map, Except.ok.injEq] at result
                subst result
                exact areOrdered_of_ofItems items converted
        | object members =>
            cases converted :
                allMembers (Sorted.collect keep (ofMembers keep limit (depth + 1) members)) with
            | error e => simp [converted, Except.map] at result
            | ok values =>
                simp only [converted, Except.map, Except.ok.injEq] at result
                subst result
                exact isOrdered_of_members (ordered_of_mem_ofMembers members) converted

theorem areOrdered_of_ofItems {keep : Sorted.Occurrence} {limit : Nat} :
    ∀ {depth : Nat} (items : List Json) {values : List Value},
      ofItems keep limit depth items = .ok values → areOrdered values = true
  | _, [], values => by
      intro result
      cases result
      rfl
  | depth, item :: rest, values => by
      intro result
      unfold ofItems at result
      cases first : ofJson keep limit depth item with
      | error e => simp [first] at result
      | ok value =>
          cases others : ofItems keep limit depth rest with
          | error e => simp [first, others, Except.map] at result
          | ok more =>
              simp only [first, others, Except.map, Except.ok.injEq] at result
              subst result
              simp [areOrdered, isOrdered_of_ofJson item first, areOrdered_of_ofItems rest others]

theorem ordered_of_mem_ofMembers {keep : Sorted.Occurrence} {limit : Nat} :
    ∀ {depth : Nat} (members : List (String × Json)) (key : String) (value : Value),
      (key, .ok value) ∈ ofMembers keep limit depth members → isOrdered value = true
  | _, [], _, _ => by simp [ofMembers]
  | depth, (name, json) :: rest, key, value => by
      intro inside
      simp only [ofMembers, List.mem_cons, Prod.mk.injEq] at inside
      rcases inside with ⟨_, same⟩ | later
      · exact isOrdered_of_ofJson json same.symm
      · exact ordered_of_mem_ofMembers rest key value later

end

end SignedFacts.Value

namespace SignedFacts.Payload

/-- The payload of the members of an object that stands at level `depth`. -/
def ofJson (keep : Sorted.Occurrence) (limit depth : Nat) (members : List (String × Json)) :
    Except Value.OfJsonError Payload :=
  match converted : Value.membersOfJson keep limit depth members with
  | .error e => .error e
  | .ok values =>
      .ok ⟨values, Value.isOrdered_of_members (Value.ordered_of_mem_ofMembers members) converted⟩

end SignedFacts.Payload
