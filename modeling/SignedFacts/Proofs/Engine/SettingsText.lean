import SignedFacts.Proofs.Engine.Settings

/-!
# Which texts settings are read from

Settings are read from a text in which nothing is given or `sync` alone (`SettingsText`), and the
text says all of what they are (`parse_eq_ok_iff`).  As a text is laid out as an object in one
way, an object with another key beside `sync` is refused (`names_of_settingsText`).  Inside `sync`
this is not so (`parse_misspelled`).
-/

namespace SignedFacts.Settings

open Json (Blank ExactItem Exact Named Steps BehindColon FieldsTaken FieldsText)

/-! ## Reading a text -/

/-- What a member beside `sync` does, which must be `sync` itself. -/
def AddsSync (key : String) (draft : Draft) (part : List Char) (after : Draft) : Prop :=
  key = "sync" ∧ key ∉ draft.given
    ∧ ∃ settings, SyncText draft.settings part settings ∧ after = ⟨settings, key :: draft.given⟩

/-- What the item of the list in place of the whole does. -/
def KeepsSync (_ : Unit) (draft : Draft) (part : List Char) (after : Draft) : Prop :=
  ∃ settings, SyncText draft.settings part settings ∧ after = ⟨settings, []⟩

/-- A text that settings are read from: nothing at all is given, or `sync` alone. -/
def SettingsText (text : List Char) (settings : Settings) : Prop :=
  ∃ entries, FieldsText ["sync"] text entries
    ∧ (entries = [] ∧ settings = {}
      ∨ ∃ inside, entries = [("sync", inside)] ∧ SyncText {} inside settings)

section Parse

variable {limit bound : Nat} {settings : Settings} {draft : Draft}
  {entries : List (String × List Char)} {parts : List (List Char)}

theorem exact_readMember (enough : limit ≤ bound) (key : String) :
    Exact limit (readMember bound key) (BehindColon (AddsSync key)) := by
  by_cases isSync : key = "sync"
  · have stored := (exact_readSync enough).within Draft.settings
      fun draft settings => ⟨settings, key :: draft.given⟩
    refine (stored.toExact.fresh (fun draft => key ∈ draft.given) (.repeatedField key)).congr
      (fun draft text after => ?_) fun draft text => ?_
    · simp only [BehindColon, AddsSync, and_iff_right isSync]
    · simp only [readMember, if_pos isSync, List.contains_iff_mem]
      rfl
  · constructor
    · intro draft after text rest read
      rw [readMember, if_neg isSync] at read
      cases read
    · rintro draft after text rest ⟨_, _, _, _, same, _⟩
      exact absurd same isSync

theorem steps_addsSync_iff :
    Steps (Named AddsSync) ⟨{}, []⟩ entries draft
      ↔ entries = [] ∧ draft = ⟨{}, []⟩
        ∨ ∃ inside settings, entries = [("sync", inside)] ∧ SyncText {} inside settings
          ∧ draft = ⟨settings, ["sync"]⟩ := by
  constructor
  · intro steps
    cases steps with
    | nil => exact .inl ⟨rfl, rfl⟩
    | @cons _ _ _ entry entries step later =>
        obtain ⟨key, inside⟩ := entry
        obtain ⟨rfl, _, settings, text, rfl⟩ := step
        cases later with
        | nil => exact .inr ⟨inside, settings, rfl, text, rfl⟩
        | cons next _ =>
            obtain ⟨same, isNew, _⟩ := next
            exact absurd (same ▸ .head _) isNew
  · rintro (⟨rfl, rfl⟩ | ⟨inside, settings, rfl, text, rfl⟩)
    · exact .nil
    · exact .cons ⟨rfl, List.not_mem_nil, settings, text, rfl⟩ .nil

theorem steps_keepsSync_iff (few : parts.length ≤ 1) :
    Steps (Named KeepsSync) ⟨{}, []⟩ ([()].zip parts) draft
      ↔ parts = [] ∧ draft = ⟨{}, []⟩
        ∨ ∃ inside settings, parts = [inside] ∧ SyncText {} inside settings
          ∧ draft = ⟨settings, []⟩ := by
  constructor
  · intro steps
    match parts, few with
    | [], _ =>
        cases steps
        exact .inl ⟨rfl, rfl⟩
    | [inside], _ =>
        obtain _ | ⟨⟨settings, text, rfl⟩, _ | _⟩ := steps
        exact .inr ⟨inside, settings, rfl, text, rfl⟩
  · rintro (⟨rfl, rfl⟩ | ⟨inside, settings, rfl, text, rfl⟩)
    · exact .nil
    · exact .cons ⟨settings, text, rfl⟩ .nil

theorem settingsText_iff {part : List Char} :
    SettingsText part settings
      ↔ ∃ given, FieldsTaken [()] AddsSync KeepsSync ⟨{}, []⟩ part ⟨settings, given⟩ := by
  constructor
  · rintro ⟨entries, object | ⟨parts, array, few, rfl⟩, given⟩
    · rcases given with ⟨rfl, rfl⟩ | ⟨inside, rfl, text⟩
      · exact ⟨[], .inl ⟨[], object, .nil⟩⟩
      · exact ⟨["sync"], .inl ⟨_, object, steps_addsSync_iff.2 (.inr ⟨_, _, rfl, text, rfl⟩)⟩⟩
    · refine ⟨[], .inr ⟨parts, array, few, (steps_keepsSync_iff few).2 ?_⟩⟩
      match parts, few, given with
      | [], _, .inl ⟨_, same⟩ => exact .inl ⟨rfl, same ▸ rfl⟩
      | [inside], _, .inr ⟨_, same, text⟩ =>
          cases same
          exact .inr ⟨inside, settings, rfl, text, rfl⟩
  · rintro ⟨given, ⟨entries, object, steps⟩ | ⟨parts, array, few, steps⟩⟩
    · rcases steps_addsSync_iff.1 steps with ⟨rfl, same⟩ | ⟨inside, _, rfl, text, same⟩
      · cases same
        exact ⟨[], .inl object, .inl ⟨rfl, rfl⟩⟩
      · cases same
        exact ⟨_, .inl object, .inr ⟨inside, rfl, text⟩⟩
    · rcases (steps_keepsSync_iff few).1 steps with ⟨rfl, same⟩ | ⟨inside, _, rfl, text, same⟩
      · cases same
        exact ⟨[], .inr ⟨[], array, few, rfl⟩, .inl ⟨rfl, rfl⟩⟩
      · cases same
        exact ⟨_, .inr ⟨_, array, few, rfl⟩, .inr ⟨inside, rfl, text⟩⟩

/-- Which texts settings are read from, and which settings these are. -/
theorem parse_eq_ok_iff {text : String} :
    parse text = .ok settings ↔ ∃ part after, text.toList = part ++ after ∧ Blank after
      ∧ SettingsText part settings := by
  have items (_ : Unit) := (@exact_readSync (text.toList.length + 1) (text.toList.length + 1)
    (Nat.le_refl _)).within Draft.settings fun _ settings => ⟨settings, []⟩
  have exact := Json.exact_readFields "struct EngineConfig" [()] (Nat.le_refl _)
    (exact_readMember (Nat.le_refl _)) items
  constructor
  · intro read
    obtain ⟨⟨draft, rest⟩, taken, ends⟩ := Json.of_bind_eq_ok read
    obtain ⟨part, shape, fields⟩ := exact.sound taken
    dsimp only at ends
    split at ends
    next empty =>
      cases ends
      obtain ⟨blanks, blank, whole⟩ := Json.exists_blank_skipSpace rest
      rw [List.isEmpty_iff.1 empty, List.append_nil] at whole
      exact ⟨part, rest, shape, whole ▸ blank, settingsText_iff.2 ⟨_, fields⟩⟩
    next => cases ends
  · rintro ⟨part, after, shape, blank, settingsText⟩
    obtain ⟨given, fields⟩ := settingsText_iff.1 settingsText
    have none : Json.EndsNumber [] := by simp [Json.EndsNumber]
    have ends : Json.EndsNumber after := by simpa using Json.endsNumber_append blank none
    have taken := exact.complete after fields (by rw [shape]; simp; omega) ends
    rw [← shape] at taken
    have close : (Json.skipSpace after).isEmpty = true := by
      rw [Json.skipSpace_of_blank blank]
      rfl
    exact Json.bind_eq_ok taken (if_pos close)

end Parse

/-! ## Keys that are refused -/

section Refusal

variable {settings after : Settings} {text other tail rest : List Char}
  {raws : List (List Char × List Char)}

/-- What settings are read from can be passed over. -/
theorem SyncText.valued (syncText : SyncText settings text after) :
    Json.Cursor.Valued Char.utf8Size text := by
  obtain ⟨entries, fields, declared⟩ := syncText
  have each : ∀ entry ∈ entries, Json.Cursor.Valued Char.utf8Size entry.2 := by
    intro entry among
    by_cases isSetting : ∃ setting : Setting, entry.1 = setting.name
    · obtain ⟨setting, same⟩ := isSetting
      exact (declared.given entry among setting same).1.valued
    · exact declared.passed entry among (not_exists.1 isSetting)
  rcases fields with object | ⟨parts, array, few, rfl⟩
  · exact object.valued each
  · refine array.valued fun part among => ?_
    rw [← List.map_snd_zip few, List.mem_map] at among
    obtain ⟨entry, isEntry, rfl⟩ := among
    exact each entry isEntry

/-- An object that settings are read from has no key besides `sync`. -/
theorem names_of_settingsText (settingsText : SettingsText text settings)
    (loose : Json.LooseObject other raws) (same : text ++ tail = other ++ rest) :
    ∀ raw ∈ raws, Json.SpellsString raw.1 "sync".toList := by
  obtain ⟨entries, object | ⟨parts, ⟨blanks, inside, blank, rfl, _⟩, _⟩, given⟩ := settingsText
  · have each : ∀ entry ∈ entries, entry.1 = "sync" ∧ Json.Cursor.Valued Char.utf8Size entry.2 := by
      rcases given with ⟨rfl, _⟩ | ⟨inside, rfl, syncText⟩
      · exact List.forall_mem_nil _
      · exact List.forall_mem_singleton.2 ⟨rfl, syncText.valued⟩
    obtain ⟨others, looseToo, named⟩ := object.loose fun entry among => (each entry among).2
    rw [← Json.looseObject_unique looseToo loose same]
    intro raw among
    obtain ⟨entry, isEntry, spells⟩ := named raw among
    rwa [(each entry isEntry).1] at spells
  · -- A list is no object.
    obtain ⟨gap, insideToo, blankToo, rfl, _⟩ := loose
    simp only [List.append_assoc, List.cons_append] at same
    cases (Json.mark_unique rfl rfl blank blankToo same).1

/-- Settings are read from the texts that describe them, and from no others.  A text of an object
with a key besides `sync` is refused, wherever the key stands. -/
theorem parse_by_names (text : String) :
    (∀ settings, parse text = .ok settings
      ↔ ∃ part after, text.toList = part ++ after ∧ Blank after ∧ SettingsText part settings)
    ∧ (∀ part after raws, text.toList = part ++ after → Json.LooseObject part raws →
        (∃ raw ∈ raws, ¬ Json.SpellsString raw.1 "sync".toList) →
        ∃ cause, parse text = .error cause)
    ∧ ∀ members, Json.SpellsPadded text.toList (.object members) →
        (∃ member ∈ members, member.1 ≠ "sync") → ∃ cause, parse text = .error cause := by
  have refused (part after : List Char) (raws : List (List Char × List Char))
      (shape : text.toList = part ++ after) (loose : Json.LooseObject part raws)
      (foreign : ∃ raw ∈ raws, ¬ Json.SpellsString raw.1 "sync".toList) :
      ∃ cause, parse text = .error cause := by
    obtain ⟨raw, among, other⟩ := foreign
    cases read : parse text with
    | error cause => exact ⟨cause, rfl⟩
    | ok settings =>
        obtain ⟨front, behind, shapeToo, _, settingsText⟩ := parse_eq_ok_iff.1 read
        have same := shapeToo.symm.trans shape
        exact absurd (names_of_settingsText settingsText loose same raw among) other
  refine ⟨fun settings => parse_eq_ok_iff, refused, ?_⟩
  rintro members padded ⟨member, among, other⟩
  obtain ⟨part, after, raws, shape, loose, named⟩ := Json.loose_of_spellsPadded padded
  obtain ⟨raw, isRaw, spells⟩ := named member among
  refine refused part after raws shape loose ⟨raw, isRaw, fun isSync => other ?_⟩
  exact String.toList_injective (Json.spellsString_unique spells isSync)

/-- A misspelled key beside `sync` is refused, and without it the settings are read. -/
theorem parse_by_names_misspelled :
    (∃ cause, parse "\x7b\"sink\":\x7b\x7d,\"sync\":\x7b\"fetch_timeout_ms\":250\x7d\x7d"
        = .error cause)
      ∧ ∃ part after, "\x7b\"sync\":\x7b\"fetch_timeout_ms\":250\x7d\x7d".toList = part ++ after
        ∧ Blank after ∧ SettingsText part { fetchTimeout := 250 } := by
  have padded := Value.padded (Value.spells_chars (.mapping [("sink", .mapping []),
    ("sync", .mapping [("fetch_timeout_ms", .number (.ofInt 250))])]))
  have refused := (parse_by_names
    "\x7b\"sink\":\x7b\x7d,\"sync\":\x7b\"fetch_timeout_ms\":250\x7d\x7d").2.2 _
    padded ⟨_, .head _, by decide⟩
  exact ⟨refused, ((parse_by_names _).1 _).1 (by decide +kernel)⟩

/-- A misspelled key inside `sync` is passed over, and the setting has its default. -/
theorem parse_misspelled :
    Setting.ofName? "fetch_timeout" = none
      ∧ parse "\x7b\"sync\":\x7b\"fetch_timeout\":250\x7d\x7d" = .ok {} := by
  decide +kernel

end Refusal

end SignedFacts.Settings
