import SignedFacts.Proofs.Json.Rearranged
import SignedFacts.Proofs.Record.Document

/-!
# Records of rearranged trees

The order of members decides nothing in a tree that repeats no key, and neither
does which occurrence of a key counts.  Two such trees that are rearrangements
of each other give the same value or the same error (`Value.ofJson_rearranged`),
and the same record or the same error (`Record.ofJson_rearranged`).
-/

namespace SignedFacts

/-! ## Collecting members -/

namespace Json

variable {members inPlace : List (String × Json)} {json other : Json} {key : String}

theorem RearrangedMembers.insert (same : RearrangedMembers members inPlace)
    (values : Rearranged json other) :
    RearrangedMembers (Sorted.insert key json members) (Sorted.insert key other inPlace) := by
  induction members generalizing inPlace with
  | nil => cases same; exact .cons values .nil
  | cons member rest induction =>
      cases same with
      | cons here behind =>
          simp only [Sorted.insert]
          split
          next => exact .cons values (.cons here behind)
          next => exact .cons values behind
          next => exact .cons here (induction behind)

theorem RearrangedMembers.collect (same : RearrangedMembers members inPlace) :
    RearrangedMembers (Sorted.collect .first members) (Sorted.collect .first inPlace) := by
  induction members generalizing inPlace with
  | nil => cases same; exact .nil
  | cons member rest induction =>
      cases same with
      | cons here behind => exact (induction behind).insert here

/-- Under a key there are rearrangements of one tree, or nothing. -/
theorem RearrangedMembers.find? (same : RearrangedMembers members inPlace) (key : String) :
    Option.Rel Rearranged (Sorted.find? key members) (Sorted.find? key inPlace) := by
  induction members generalizing inPlace with
  | nil => cases same; exact .none
  | cons member rest induction =>
      cases same with
      | cons here behind =>
          simp only [Sorted.find?]
          split
          next => exact .none
          next => exact .some here
          next => exact induction behind

end Json

/-! ## Values -/

namespace Value

variable {keep other : Sorted.Occurrence} {limit depth : Nat}

theorem ofItems_congr {items others : List Json}
    (same : items.map (ofJson keep limit depth) = others.map (ofJson other limit depth)) :
    ofItems keep limit depth items = ofItems other limit depth others := by
  induction items generalizing others with
  | nil =>
      cases others with
      | nil => rfl
      | cons => cases same
  | cons item rest induction =>
      cases others with
      | nil => cases same
      | cons second others =>
          obtain ⟨first, later⟩ := List.cons.inj same
          rw [ofItems, ofItems, first, induction later]

/-- The results for the members of two objects are collected to the same. -/
theorem collect_ofMembers_congr {members others : List (String × Json)}
    (distinct : (members.map (·.1)).Nodup)
    (perm : (members.map fun member => (member.1, ofJson keep limit depth member.2)).Perm
      (others.map fun member => (member.1, ofJson other limit depth member.2))) :
    Sorted.collect keep (ofMembers keep limit depth members)
      = Sorted.collect other (ofMembers other limit depth others) := by
  rw [ofMembers_eq_map, ofMembers_eq_map]
  exact Sorted.collect_eq_of_perm (by rwa [List.map_map]) perm

/-- Without a repeated key the value of a tree, or the error, does not depend on
the order of members. -/
theorem ofJson_rearranged {json arranged : Json} (same : json.Rearranged arranged)
    (distinct : json.Everywhere (fun _ node => node.KeysDistinct) depth) :
    ofJson keep limit depth json = ofJson other limit depth arranged := by
  induction json using Json.induct generalizing arranged depth with
  | array items induction =>
      cases same with
      | array inside =>
          have distinct := (Json.everywhere_array.1 distinct).2
          have results := inside.map_eq fun item member other here =>
            induction item member here (distinct item member)
          rw [ofJson, ofJson, ofItems_congr results]
  | object members induction =>
      cases same with
      | object inPlace perm =>
          obtain ⟨keys, distinct⟩ := Json.everywhere_object.1 distinct
          have results := inPlace.map_eq fun member among other here =>
            induction member among here (distinct member among)
          rw [ofJson, ofJson, collect_ofMembers_congr keys (results ▸ perm.map _)]
  | _ => cases same; rfl

end Value

/-! ## Records -/

theorem Payload.ofJson_congr {keep other : Sorted.Occurrence} {limit depth : Nat}
    {members others : List (String × Json)}
    (same : Value.membersOfJson keep limit depth members
      = Value.membersOfJson other limit depth others) :
    Payload.ofJson keep limit depth members = Payload.ofJson other limit depth others := by
  unfold Payload.ofJson
  split
  next failed => split <;> simp_all
  next values converted => split <;> simp_all

namespace Record

variable {keep other : Sorted.Occurrence} {json arranged : Json}

theorem payloadOf_rearranged (same : json.Rearranged arranged)
    (distinct : json.Everywhere (fun _ node => node.KeysDistinct) 2) :
    payloadOf keep json = payloadOf other arranged := by
  cases same with
  | object inPlace perm =>
      obtain ⟨keys, distinct⟩ := Json.everywhere_object.1 distinct
      have results := inPlace.map_eq fun member among arranged here =>
        @Value.ofJson_rearranged keep other maxDepth 3 member.2 arranged here
          (distinct member among)
      have collected := Value.collect_ofMembers_congr keys (results ▸ perm.map _)
      rw [payloadOf, payloadOf, Payload.ofJson_congr (congrArg Value.allMembers collected)]
  | _ => rfl

theorem timestampOf_rearranged (same : json.Rearranged arranged) :
    timestampOf json = timestampOf arranged := by
  cases same <;> rfl

theorem keyTextOf_rearranged (same : json.Rearranged arranged) (field : Field) :
    keyTextOf field json = keyTextOf field arranged := by
  cases same <;> rfl

/-- A field is missing from both objects, or the trees under it are rearrangements
of each other. -/
theorem fieldOf_rearranged {fields others : List (String × Json)}
    (same : Json.RearrangedMembers fields others) (field : Field) :
    (fieldOf fields field = .error (.missingField field.name)
        ∧ fieldOf others field = .error (.missingField field.name))
      ∨ ∃ json arranged, fieldOf fields field = .ok json ∧ fieldOf others field = .ok arranged
        ∧ json.Rearranged arranged := by
  rw [fieldOf, fieldOf]
  have found := same.find? field.name
  cases first : Sorted.find? field.name fields with
  | none =>
      rw [first] at found
      cases second : Sorted.find? field.name others with
      | none => exact .inl ⟨rfl, rfl⟩
      | some => rw [second] at found; cases found
  | some json =>
      rw [first] at found
      cases second : Sorted.find? field.name others with
      | none => rw [second] at found; cases found
      | some arranged =>
          rw [second] at found
          cases found with
          | some here => exact .inr ⟨json, arranged, rfl, rfl, here⟩

/-- The field that is reported as unknown is found among the keys. -/
theorem find?_unknown_eq (fields : List (String × Json)) :
    (fields.find? fun (key, _) => !Field.all.any (·.name = key)).map (·.1)
      = (fields.map (·.1)).find? fun key => !Field.all.any (·.name = key) := by
  rw [List.find?_map]
  rfl

/-- Without a repeated key the record of a tree, or the error, does not depend on
the order of members. -/
theorem ofJson_rearranged (same : json.Rearranged arranged) (unique : json.UniqueKeys) :
    ofJson keep json = ofJson other arranged := by
  cases same with
  | @object members middle others inPlace perm =>
      obtain ⟨keys, distinct⟩ := Json.everywhere_object.1 unique
      have fields : Json.RearrangedMembers (Sorted.collect keep members)
          (Sorted.collect other others) := by
        have first : Sorted.collect keep members = Sorted.collect .first members :=
          Sorted.collect_eq_of_perm keys (.refl _)
        have second : Sorted.collect .first middle = Sorted.collect other others :=
          Sorted.collect_eq_of_perm (inPlace.keys ▸ keys) perm
        exact first ▸ second ▸ inPlace.collect
      have unknown := (find?_unknown_eq (Sorted.collect keep members)).trans
        ((congrArg _ fields.keys).trans (find?_unknown_eq (Sorted.collect other others)).symm)
      simp only [ofJson]
      cases found : (Sorted.collect keep members).find? fun (key, _) =>
          !Field.all.any (·.name = key) with
      | some member =>
          rw [found, Option.map_some, eq_comm, Option.map_eq_some_iff] at unknown
          obtain ⟨⟨key, _⟩, foundToo, rfl⟩ := unknown
          rw [foundToo]
      | none =>
          rw [found, Option.map_none, eq_comm, Option.map_eq_none_iff] at unknown
          rw [unknown]
          -- A missing field is reported before any field is looked into.
          rcases fieldOf_rearranged fields .payload with
            ⟨absent, absentToo⟩ | ⟨payload, _, present, presentToo, samePayload⟩
          · rw [absent, absentToo]; rfl
          rcases fieldOf_rearranged fields .createdAt with
            ⟨absent, absentToo⟩ | ⟨createdAt, _, timed, timedToo, sameTime⟩
          · rw [present, presentToo, absent, absentToo]; rfl
          rcases fieldOf_rearranged fields .signerKey with
            ⟨absent, absentToo⟩ | ⟨signerKey, _, keyed, keyedToo, sameKey⟩
          · rw [present, presentToo, timed, timedToo, absent, absentToo]; rfl
          rcases fieldOf_rearranged fields .signature with
            ⟨absent, absentToo⟩ | ⟨signature, _, signed, signedToo, sameSignature⟩
          · rw [present, presentToo, timed, timedToo, keyed, keyedToo, absent, absentToo]; rfl
          have among : (Field.payload.name, payload) ∈ members :=
            Sorted.mem_collect ((Sorted.find?_eq_some_iff (Sorted.ascending_collect _ _)).1
              (fieldOf_eq_ok_iff.1 present))
          rw [present, presentToo, timed, timedToo, keyed, keyedToo, signed, signedToo]
          simp only [bind, Except.bind, timestampOf_rearranged sameTime,
            keyTextOf_rearranged sameKey, keyTextOf_rearranged sameSignature,
            @payloadOf_rearranged keep other _ _ samePayload (distinct _ among)]
  | _ => rfl

end Record

end SignedFacts
