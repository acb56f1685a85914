import SignedFacts.Engine.Settings
import SignedFacts.Proofs.Json.Fields

/-!
# What stands inside `sync`

A setting is read from the text of its value, and the other settings stay
(`exact_readSetting`).  The members inside `sync` are read one after the other, each with its
own effect (`Configures`), and what they come to is said without an order: `Declared`.  A setting
is given once at most and has the value that is given, and what is not given is as it was.

The reader keeps the keys of the settings that have been given, and that is the one thing in which
an object and a list differ for it (`steps_of_adds`, `steps_of_keeps`).  Both come to the same in
`exact_readSync`.
-/

namespace SignedFacts

open Json (Blank ExactItem Exact Named Steps BehindColon FieldsTaken FieldsText Holds)

/-! ## Names -/

namespace Setting

theorem ofName?_eq_some_iff {key : String} {setting : Setting} :
    ofName? key = some setting ↔ key = setting.name := by
  constructor
  · intro found
    rw [ofName?] at found
    simpa [eq_comm] using List.find?_some found
  · rintro rfl
    cases setting <;> rfl

theorem ofName?_eq_none_iff {key : String} :
    ofName? key = none ↔ ∀ setting : Setting, key ≠ setting.name := by
  rw [Option.eq_none_iff_forall_ne_some]
  exact forall_congr' fun setting => not_congr ofName?_eq_some_iff

theorem name_injective : Function.Injective name := by
  intro setting other same
  have found := ofName?_eq_some_iff.2 same
  rw [ofName?_eq_some_iff.2 rfl] at found
  exact Option.some.inj found

end Setting

namespace Settings

/-! ## One setting of several -/

/-- A setting as a value. -/
def value (settings : Settings) : Setting → Value
  | .fetchTimeout => .number (.ofInt settings.fetchTimeout)
  | .maxResponseOctets => .number (.ofInt settings.maxResponseOctets)
  | .maxRecords => .number (.ofInt settings.maxRecords)
  | .recordsPath => .string settings.recordsPath
  | .userAgent => .string settings.userAgent

/-- Settings with one of them taken from others. -/
def adopt (settings : Settings) (setting : Setting) (others : Settings) : Settings :=
  match setting with
  | .fetchTimeout => { settings with fetchTimeout := others.fetchTimeout }
  | .maxResponseOctets => { settings with maxResponseOctets := others.maxResponseOctets }
  | .maxRecords => { settings with maxRecords := others.maxRecords }
  | .recordsPath => { settings with recordsPath := others.recordsPath }
  | .userAgent => { settings with userAgent := others.userAgent }

section Adopt

variable {settings others : Settings} {setting other : Setting}

theorem value_adopt_self :
    (settings.adopt setting others).value setting = others.value setting := by
  cases setting <;> rfl

theorem value_adopt_other (different : other ≠ setting) :
    (settings.adopt setting others).value other = settings.value other := by
  cases setting <;> cases other <;> first | rfl | exact absurd rfl different

theorem adopt_adopt :
    settings.adopt setting (settings.adopt setting others) = settings.adopt setting others := by
  cases setting <;> rfl

theorem count_injective {n m : ℕ} (same : Value.number (.ofInt n) = .number (.ofInt m)) :
    n = m :=
  Int.ofNat.inj (congrArg Decimal.units (Value.number.inj same))

/-- Settings are the same if each of them is. -/
theorem ext_value (same : ∀ setting, settings.value setting = others.value setting) :
    settings = others := by
  obtain ⟨timeout, octets, records, path, agent⟩ := settings
  obtain ⟨timeoutToo, octetsToo, recordsToo, pathToo, agentToo⟩ := others
  rw [mk.injEq]
  exact ⟨count_injective (same .fetchTimeout), count_injective (same .maxResponseOctets),
    count_injective (same .maxRecords), Value.string.inj (same .recordsPath),
    Value.string.inj (same .userAgent)⟩

end Adopt

/-! ## Reading a setting -/

/-- A text is a value, and a count has no more than 64 bits. -/
def Gives (part : List Char) (value : Value) : Prop :=
  Holds part value.toJson ∧ ∀ n : ℕ, value = .number (.ofInt n) → n < 2 ^ 64

/-- A text is the value of a setting, and the others stay. -/
def Sets (setting : Setting) (settings : Settings) (part : List Char) (after : Settings) : Prop :=
  Gives part (after.value setting) ∧ after = settings.adopt setting after

section Readers

variable {limit bound : Nat} {setting : Setting}

/-- A setting is read as what it is stored as. -/
theorem exact_stored {τ : Type} {reader : Json.FieldReader τ} {wrap : τ → Value}
    (exact : ExactItem limit reader fun _ part stored => Gives part (wrap stored))
    (load : Settings → τ) (store : Settings → τ → Settings) (start : τ)
    (value : ∀ settings, settings.value setting = wrap (load settings))
    (load_store : ∀ settings stored, load (store settings stored) = stored)
    (adopt : ∀ settings others, settings.adopt setting others = store settings (load others)) :
    ExactItem limit
      (fun settings text => (reader start text).map fun (stored, rest) =>
        (store settings stored, rest))
      (Sets setting) := by
  refine (exact.within (fun _ => start) store).congr fun settings part after => ?_
  constructor
  · rintro ⟨stored, gives, rfl⟩
    rw [Sets, value, load_store, adopt, load_store]
    exact ⟨gives, rfl⟩
  · rintro ⟨gives, same⟩
    rw [value] at gives
    exact ⟨load after, gives, same.trans (adopt settings after)⟩

theorem exact_count (expected : String) :
    ExactItem limit (fun (_ : ℕ) text => Json.readCount expected text)
      fun _ part n => Gives part (.number (.ofInt n)) := by
  refine Json.exactItem_readCount.congr fun _ part n => and_congr_right fun _ => ?_
  exact ⟨fun small m same => count_injective same ▸ small, fun small => small n rfl⟩

theorem exact_string :
    ExactItem limit (fun (_ : String) text => Json.readString text)
      fun _ part s => Gives part (.string s) := by
  refine Json.exactItem_readString.congr fun _ part s => ?_
  exact (and_iff_left fun n same => nomatch same).symm

theorem exact_readSetting (setting : Setting) :
    ExactItem limit (readSetting setting) (Sets setting) := by
  cases setting with
  | fetchTimeout =>
      exact exact_stored (exact_count "u64") fetchTimeout
        (fun settings n => { settings with fetchTimeout := n }) 0 (fun _ => rfl) (fun _ _ => rfl)
        (fun _ _ => rfl)
  | maxResponseOctets =>
      exact exact_stored (exact_count "usize") maxResponseOctets
        (fun settings n => { settings with maxResponseOctets := n }) 0 (fun _ => rfl)
        (fun _ _ => rfl) (fun _ _ => rfl)
  | maxRecords =>
      exact exact_stored (exact_count "usize") maxRecords
        (fun settings n => { settings with maxRecords := n }) 0 (fun _ => rfl) (fun _ _ => rfl)
        (fun _ _ => rfl)
  | recordsPath =>
      exact exact_stored exact_string recordsPath
        (fun settings s => { settings with recordsPath := s }) "" (fun _ => rfl) (fun _ _ => rfl)
        (fun _ _ => rfl)
  | userAgent =>
      exact exact_stored exact_string userAgent
        (fun settings s => { settings with userAgent := s }) "" (fun _ => rfl) (fun _ _ => rfl)
        (fun _ _ => rfl)

end Readers

/-! ## Reading what stands inside `sync` -/

/-- What a member inside `sync` does to the settings. -/
def Configures (key : String) (settings : Settings) (part : List Char) (after : Settings) : Prop :=
  match Setting.ofName? key with
  | none => after = settings ∧ Json.Cursor.Valued Char.utf8Size part
  | some setting => Sets setting settings part after

/-- What a member inside `sync` does to settings on the way. -/
def Adds (key : String) (draft : Draft) (part : List Char) (after : Draft) : Prop :=
  match Setting.ofName? key with
  | none => after = draft ∧ Json.Cursor.Valued Char.utf8Size part
  | some setting => key ∉ draft.given
      ∧ ∃ settings, Sets setting draft.settings part settings
        ∧ after = ⟨settings, key :: draft.given⟩

section Sync

variable {limit bound : Nat}

theorem exact_readSyncMember (enough : limit ≤ bound) (key : String) :
    Exact limit (readSyncMember bound key) (BehindColon (Adds key)) := by
  cases known : Setting.ofName? key with
  | none =>
      refine (Json.exact_skipField enough).behindColon.congr (fun draft text after => ?_)
        fun draft text => ?_
      · simp only [BehindColon, Adds, known]
      · rw [readSyncMember, known]
        rfl
  | some setting =>
      have stored := (@exact_readSetting limit setting).within Draft.settings
        fun draft settings => ⟨settings, key :: draft.given⟩
      refine (stored.toExact.fresh (fun draft => key ∈ draft.given) (.repeatedField key)).congr
        (fun draft text after => ?_) fun draft text => ?_
      · simp only [BehindColon, Adds, known]
      · simp only [readSyncMember, known, List.contains_iff_mem]
        rfl

/-- What an item of the list in place of `sync` does to settings on the way. -/
def Keeps (setting : Setting) (draft : Draft) (part : List Char) (after : Draft) : Prop :=
  ∃ settings, Sets setting draft.settings part settings ∧ after = ⟨settings, draft.given⟩

end Sync

/-! ## What the members say -/

/-- The settings after some members: a setting is given once at most and has the value that is
given, what no setting has for its name is passed over, and the other settings stay. -/
structure Declared (settings : Settings) (entries : List (String × List Char)) (after : Settings) :
    Prop where
  once : ∀ setting : Setting, (entries.map (·.1)).count setting.name ≤ 1
  given : ∀ entry ∈ entries, ∀ setting : Setting, entry.1 = setting.name →
    Gives entry.2 (after.value setting)
  passed : ∀ entry ∈ entries, (∀ setting : Setting, entry.1 ≠ setting.name) →
    Json.Cursor.Valued Char.utf8Size entry.2
  kept : ∀ setting : Setting, setting.name ∉ entries.map (·.1) →
    after.value setting = settings.value setting

section Declared

variable {settings after : Settings} {key : String} {part : List Char}
  {entries : List (String × List Char)}

theorem configures_iff :
    Configures key settings part after
      ↔ (∀ setting : Setting, key = setting.name → Sets setting settings part after)
        ∧ ((∀ setting : Setting, key ≠ setting.name) →
          after = settings ∧ Json.Cursor.Valued Char.utf8Size part) := by
  rw [Configures]
  split
  next unknown =>
    have none := Setting.ofName?_eq_none_iff.1 unknown
    exact ⟨fun passed => ⟨fun setting same => absurd same (none setting), fun _ => passed⟩,
      fun both => both.2 none⟩
  next setting known =>
    have same := Setting.ofName?_eq_some_iff.1 known
    constructor
    · refine fun sets => ⟨fun another sameToo => ?_, fun none => absurd same (none setting)⟩
      obtain rfl : setting = another := Option.some.inj
        (known.symm.trans (Setting.ofName?_eq_some_iff.2 sameToo))
      exact sets
    · exact fun both => both.1 setting same

/-- A member that comes first leaves at most one member for each setting. -/
theorem once_tail {entry : String × List Char}
    (once : ∀ setting : Setting, ((entry :: entries).map (·.1)).count setting.name ≤ 1) :
    (∀ setting : Setting, (entries.map (·.1)).count setting.name ≤ 1)
      ∧ ∀ setting : Setting, entry.1 = setting.name → setting.name ∉ entries.map (·.1) := by
  constructor
  · exact fun setting => Nat.le_trans List.count_le_count_cons (once setting)
  · intro setting same
    have atMost := once setting
    rw [List.map_cons, same, List.count_cons_self] at atMost
    exact List.count_eq_zero.1 (by omega)

theorem declared_of_steps (once : ∀ setting : Setting, (entries.map (·.1)).count setting.name ≤ 1)
    (steps : Steps (Named Configures) settings entries after) :
    Declared settings entries after := by
  induction steps with
  | nil => exact ⟨once, List.forall_mem_nil _, List.forall_mem_nil _, fun _ _ => rfl⟩
  | @cons settings middle after entry entries step _ induction =>
      obtain ⟨known, unknown⟩ := configures_iff.1 step
      obtain ⟨onceLater, fresh⟩ := once_tail once
      have later := induction onceLater
      refine ⟨once, ?_, ?_, fun setting absent => ?_⟩
      · refine List.forall_mem_cons.2 ⟨fun setting same => ?_, later.given⟩
        rw [later.kept setting (fresh setting same)]
        exact (known setting same).1
      · exact List.forall_mem_cons.2 ⟨fun none => (unknown none).2, later.passed⟩
      · obtain ⟨different, absentLater⟩ := not_or.1 (mt List.mem_cons.2 absent)
        rw [later.kept setting absentLater]
        by_cases isSetting : ∃ other : Setting, entry.1 = other.name
        · obtain ⟨other, same⟩ := isSetting
          rw [(known other same).2, value_adopt_other]
          rintro rfl
          exact different same.symm
        · rw [(unknown (not_exists.1 isSetting)).1]

theorem steps_of_declared (declared : Declared settings entries after) :
    Steps (Named Configures) settings entries after := by
  induction entries generalizing settings with
  | nil =>
      obtain rfl := ext_value fun setting => declared.kept setting (by simp)
      exact .nil
  | cons entry entries induction =>
      obtain ⟨onceLater, fresh⟩ := once_tail declared.once
      obtain ⟨given, givenLater⟩ := List.forall_mem_cons.1 declared.given
      obtain ⟨passed, passedLater⟩ := List.forall_mem_cons.1 declared.passed
      by_cases isSetting : ∃ setting : Setting, entry.1 = setting.name
      · obtain ⟨setting, same⟩ := isSetting
        have step : Configures entry.1 settings entry.2 (settings.adopt setting after) := by
          refine configures_iff.2 ⟨fun other sameToo => ?_, fun none => absurd same (none setting)⟩
          obtain rfl := Setting.name_injective (same.symm.trans sameToo)
          rw [Sets, value_adopt_self, adopt_adopt]
          exact ⟨given setting same, rfl⟩
        refine .cons step (induction ⟨onceLater, givenLater, passedLater, fun other absent => ?_⟩)
        by_cases isOther : other = setting
        · rw [isOther, value_adopt_self]
        · rw [value_adopt_other isOther]
          refine declared.kept other (List.not_mem_cons_of_ne_of_not_mem ?_ absent)
          exact fun sameToo => isOther (Setting.name_injective (sameToo.trans same))
      · have none := not_exists.1 isSetting
        have step : Configures entry.1 settings entry.2 settings :=
          configures_iff.2 ⟨fun setting same => absurd same (none setting),
            fun _ => ⟨rfl, passed none⟩⟩
        refine .cons step (induction ⟨onceLater, givenLater, passedLater, fun other absent => ?_⟩)
        exact declared.kept other (List.not_mem_cons_of_ne_of_not_mem (Ne.symm (none other)) absent)

end Declared

/-! ## What the readers do -/

section Readers

variable {draft draftAfter : Draft} {settings after : Settings} {part : List Char}
  {entries : List (String × List Char)} {given : List String}

/-- No setting is given that was given before. -/
def Fresh (given : List String) (entries : List (String × List Char)) : Prop :=
  ∀ setting : Setting, setting.name ∈ given → setting.name ∉ entries.map (·.1)

/-- The keys that have been given, with one more if it is that of a setting. -/
def noting (key : String) (given : List String) : List String :=
  if (Setting.ofName? key).isSome then key :: given else given

theorem mem_noting {key : String} {setting : Setting} :
    setting.name ∈ noting key given ↔ key = setting.name ∨ setting.name ∈ given := by
  rw [noting]
  split
  next => rw [List.mem_cons, eq_comm]
  next unknown =>
    have none := Setting.ofName?_eq_none_iff.1 (Option.not_isSome_iff_eq_none.1 unknown)
    rw [or_iff_right (none setting)]

theorem adds_iff {key : String} :
    Adds key draft part draftAfter
      ↔ Configures key draft.settings part draftAfter.settings
        ∧ (∀ setting : Setting, key = setting.name → key ∉ draft.given)
        ∧ draftAfter.given = noting key draft.given := by
  obtain ⟨settings, given⟩ := draft
  obtain ⟨after, givenAfter⟩ := draftAfter
  rw [Adds, Configures, noting]
  cases known : Setting.ofName? key with
  | none =>
      have none := Setting.ofName?_eq_none_iff.1 known
      simp only [Draft.mk.injEq, Option.isSome_none, Bool.false_eq_true, if_false]
      exact ⟨fun ⟨⟨same, noted⟩, valued⟩ =>
          ⟨⟨same, valued⟩, fun setting same => absurd same (none setting), noted⟩,
        fun ⟨⟨same, valued⟩, _, noted⟩ => ⟨⟨same, noted⟩, valued⟩⟩
  | some setting =>
      have same := Setting.ofName?_eq_some_iff.1 known
      simp only [Draft.mk.injEq, Option.isSome_some, if_true]
      constructor
      · rintro ⟨isNew, _, sets, rfl, rfl⟩
        exact ⟨sets, fun _ _ => isNew, rfl⟩
      · rintro ⟨sets, isNew, rfl⟩
        exact ⟨isNew setting same, after, sets, rfl, rfl⟩

theorem steps_of_adds (steps : Steps (Named Adds) draft entries draftAfter) :
    Steps (Named Configures) draft.settings entries draftAfter.settings
      ∧ (∀ setting : Setting, (entries.map (·.1)).count setting.name ≤ 1)
      ∧ Fresh draft.given entries := by
  induction steps with
  | nil => exact ⟨.nil, fun _ => Nat.zero_le _, fun _ _ => by simp⟩
  | @cons draft middle draftAfter entry entries step _ induction =>
      obtain ⟨later, once, fresh⟩ := induction
      obtain ⟨configures, isNew, noted⟩ := adds_iff.1 step
      rw [noted] at fresh
      refine ⟨.cons configures later, fun setting => ?_, fun setting isGiven => ?_⟩
      · by_cases same : entry.1 = setting.name
        · have absent := List.count_eq_zero.2 (fresh setting (mem_noting.2 (.inl same)))
          rw [List.map_cons, same, List.count_cons_self, absent]
        · rw [List.map_cons, List.count_cons_of_ne same]
          exact once setting
      · refine List.not_mem_cons_of_ne_of_not_mem ?_ (fresh setting (mem_noting.2 (.inr isGiven)))
        exact fun (same : setting.name = entry.1) => isNew setting same.symm (same ▸ isGiven)

theorem adds_of_steps (steps : Steps (Named Configures) settings entries after)
    (once : ∀ setting : Setting, (entries.map (·.1)).count setting.name ≤ 1)
    (fresh : Fresh given entries) :
    ∃ givenAfter, Steps (Named Adds) ⟨settings, given⟩ entries ⟨after, givenAfter⟩ := by
  induction steps generalizing given with
  | nil => exact ⟨given, .nil⟩
  | @cons settings middle after entry entries step _ induction =>
      obtain ⟨onceLater, absent⟩ := once_tail once
      have freshLater : Fresh (noting entry.1 given) entries := by
        intro setting isGiven
        rcases mem_noting.1 isGiven with same | earlier
        · exact absent setting same
        · exact fun among => fresh setting earlier (.tail _ among)
      obtain ⟨givenAfter, later⟩ := induction onceLater freshLater
      have adds : Adds entry.1 ⟨settings, given⟩ entry.2 ⟨middle, noting entry.1 given⟩ := by
        refine adds_iff.2 ⟨step, fun setting same isGiven => ?_, rfl⟩
        exact fresh setting (same ▸ isGiven) (same ▸ .head _)
      exact ⟨givenAfter, .cons adds later⟩

theorem configures_name {setting : Setting} :
    Configures setting.name settings part after ↔ Sets setting settings part after := by
  rw [Configures, Setting.ofName?_eq_some_iff.2 rfl]

theorem steps_of_keeps {pairs : List (Setting × List Char)}
    (steps : Steps (Named Keeps) draft pairs draftAfter) :
    Steps (Named Configures) draft.settings (pairs.map fun pair => (pair.1.name, pair.2))
      draftAfter.settings := by
  induction steps with
  | nil => exact .nil
  | cons step _ induction =>
      obtain ⟨settings, sets, rfl⟩ := step
      exact .cons (configures_name.2 sets) induction

theorem keeps_of_steps {pairs : List (Setting × List Char)}
    (steps : Steps (Named Configures) settings (pairs.map fun pair => (pair.1.name, pair.2))
      after) :
    Steps (Named Keeps) ⟨settings, given⟩ pairs ⟨after, given⟩ := by
  induction pairs generalizing settings with
  | nil =>
      obtain _ | _ := steps
      exact .nil
  | cons pair pairs induction =>
      obtain _ | ⟨step, later⟩ := steps
      exact .cons ⟨_, configures_name.1 step, rfl⟩ (induction later)

theorem zip_names (parts : List (List Char)) :
    (Setting.all.map Setting.name).zip parts
      = (Setting.all.zip parts).map fun pair => (pair.1.name, pair.2) :=
  List.zip_map_left

/-- No setting stands twice in a list of the first settings. -/
theorem once_zip_names (parts : List (List Char)) (setting : Setting) :
    (((Setting.all.map Setting.name).zip parts).map (·.1)).count setting.name ≤ 1 := by
  have distinct : (Setting.all.map Setting.name).Nodup := by decide
  rw [List.zip_eq_zip_take_min, List.map_fst_zip (by simp)]
  exact List.nodup_iff_count_le_one.1 (distinct.sublist (List.take_sublist _ _)) setting.name

/-- The text under `sync`, and how it changes the settings. -/
def SyncText (settings : Settings) (text : List Char) (after : Settings) : Prop :=
  ∃ entries, FieldsText (Setting.all.map Setting.name) text entries
    ∧ Declared settings entries after

theorem exact_readSync {limit bound : Nat} (enough : limit ≤ bound) :
    ExactItem limit (readSync bound) SyncText := by
  have items (setting : Setting) := (@exact_readSetting limit setting).within Draft.settings
    fun draft settings => ⟨settings, draft.given⟩
  have exact : ExactItem limit (readSync bound) fun settings part after =>
      ∃ draft, FieldsTaken Setting.all Adds Keeps ⟨settings, []⟩ part draft
        ∧ after = draft.settings :=
    (Json.exact_readFields "struct SyncConfig" Setting.all enough (exact_readSyncMember enough)
      items).within (fun settings => ⟨settings, []⟩) fun _ draft => draft.settings
  refine exact.congr fun settings part after => ?_
  constructor
  · rintro ⟨draft, ⟨entries, object, steps⟩ | ⟨parts, array, few, steps⟩, rfl⟩
    · obtain ⟨steps, once, _⟩ := steps_of_adds steps
      exact ⟨entries, .inl object, declared_of_steps once steps⟩
    · refine ⟨_, .inr ⟨parts, array, by simpa using few, rfl⟩, ?_⟩
      refine declared_of_steps (once_zip_names parts) ?_
      rw [zip_names]
      exact steps_of_keeps steps
  · rintro ⟨entries, object | ⟨parts, array, few, rfl⟩, declared⟩
    · obtain ⟨given, steps⟩ := adds_of_steps (steps_of_declared declared) declared.once
        (fun _ among => absurd among List.not_mem_nil)
      exact ⟨⟨after, given⟩, .inl ⟨entries, object, steps⟩, rfl⟩
    · have steps := steps_of_declared declared
      rw [zip_names] at steps
      exact ⟨⟨after, []⟩, .inr ⟨parts, array, by simpa using few, keeps_of_steps steps⟩, rfl⟩

end Readers

end Settings

end SignedFacts
