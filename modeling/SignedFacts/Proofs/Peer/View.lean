import SignedFacts.Peer.Response
import SignedFacts.Proofs.Json.Token
import SignedFacts.Proofs.Json.Tree
import SignedFacts.Proofs.Octets.Utf8

/-!
# Texts seen octet by octet

An answer is split without knowing what its octets spell, each octet taken for
the character of its number.  A text so seen spells a value if the text does, with
the same shape (`spells_seen`): characters of one octet are seen as they are, and
the octets of any other character are seen as characters that need no escape.
-/

namespace SignedFacts.Response

open Json (Spells SpellsPadded SpellsItems SpellsMember SpellsMembers SpellsString SpellsUnit
  SpellsNumber Blank)

/-- What is seen of a text. -/
def seen (text : List Char) : List Char := view (Utf8.octets text)

theorem seen_cons (c : Char) (text : List Char) :
    seen (c :: text) = view (Utf8.charOctets c) ++ seen text := by
  simp [seen, view, Utf8.octets]

@[simp] theorem seen_append (first second : List Char) :
    seen (first ++ second) = seen first ++ seen second := by
  simp [seen, view, Utf8.octets]

theorem toNat_ofUInt8 (octet : UInt8) : (Char.ofUInt8 octet).toNat = octet.toNat :=
  UInt8.toNat_toUInt32 octet

/-- What is seen of a text can be read as the text. -/
theorem unview_seen (text : List Char) : unview (seen text) = .ok text := by
  have back : (seen text).map (fun c => UInt8.ofNat c.toNat) = Utf8.octets text := by
    simp [seen, view, toNat_ofUInt8, Function.comp_def]
  rw [unview, back, Utf8.decode_octets]

/-! ## Characters of one octet -/

theorem view_charOctets_of_small {c : Char} (small : c.toNat < 0x80) :
    view (Utf8.charOctets c) = [c] := by
  have same : Char.ofUInt8 (UInt8.ofNat c.toNat) = c := by
    rw [← Char.toNat_inj, toNat_ofUInt8, UInt8.toNat_ofNat']
    omega
  simp only [Utf8.charOctets, if_pos small, view, List.map_cons, List.map_nil, same]

theorem seen_cons_of_small {c : Char} (small : c.toNat < 0x80) (text : List Char) :
    seen (c :: text) = c :: seen text := by
  rw [seen_cons, view_charOctets_of_small small]
  rfl

/-- Characters of one octet are seen as they are. -/
theorem seen_of_small {text : List Char} (small : ∀ c ∈ text, c.toNat < 0x80) :
    seen text = text := by
  induction text with
  | nil => rfl
  | cons c text induction =>
      obtain ⟨first, others⟩ := List.forall_mem_cons.1 small
      rw [seen_cons_of_small first, induction others]

/-- The octets of other characters are seen as characters past the small ones. -/
theorem large_of_mem_view {c : Char} (large : 0x80 ≤ c.toNat) :
    ∀ x ∈ view (Utf8.charOctets c), 0x80 ≤ x.toNat := by
  intro x member
  obtain ⟨octet, inside, rfl⟩ := List.mem_map.1 member
  rw [toNat_ofUInt8]
  exact Utf8.large_of_mem_charOctets large octet inside

/-! ## Strings and numbers -/

/-- Characters that stand for themselves. -/
theorem spellsString_plain_append {front text chars : List Char}
    (plain : ∀ c ∈ front, c ≠ '"' ∧ c ≠ '\\' ∧ 0x20 ≤ c.toNat)
    (spelled : SpellsString text chars) : SpellsString (front ++ text) (front ++ chars) := by
  induction front with
  | nil => exact spelled
  | cons c front induction =>
      obtain ⟨first, others⟩ := List.forall_mem_cons.1 plain
      exact .plain first.1 first.2.1 first.2.2 (induction others)

theorem small_of_spellsUnit {digits : List Char} {number : Nat}
    (spelled : SpellsUnit digits number) : ∀ c ∈ digits, c.toNat < 0x80 := by
  cases spelled with
  | digits first second third fourth =>
      simp only [List.forall_mem_cons]
      exact ⟨Json.small_of_hexValue? first, Json.small_of_hexValue? second,
        Json.small_of_hexValue? third, Json.small_of_hexValue? fourth, nofun⟩

theorem spellsString_seen {text chars : List Char} (spelled : SpellsString text chars) :
    ∃ others, SpellsString (seen text) others := by
  induction spelled with
  | nil => exact ⟨[], .nil⟩
  | @plain c text chars noQuote noEscape visible _ induction =>
      obtain ⟨others, spelled⟩ := induction
      refine ⟨_, seen_cons c text ▸ spellsString_plain_append (fun x member => ?_) spelled⟩
      rcases Nat.lt_or_ge c.toNat 0x80 with small | large
      · rw [view_charOctets_of_small small] at member
        obtain rfl := List.mem_singleton.1 member
        exact ⟨noQuote, noEscape, visible⟩
      · have past := large_of_mem_view large x member
        refine ⟨?_, ?_, by omega⟩ <;> rintro rfl <;> revert past <;> decide
  | @escape letter c text chars known _ induction =>
      obtain ⟨others, spelled⟩ := induction
      have small : ∀ pair ∈ Json.escapes, pair.1.toNat < 0x80 := by decide
      rw [seen_cons_of_small (by decide), seen_cons_of_small (small _ known)]
      exact ⟨_, .escape known spelled⟩
  | unit digits noHalf _ induction =>
      obtain ⟨others, spelled⟩ := induction
      simp only [List.cons_append]
      rw [seen_cons_of_small (by decide), seen_cons_of_small (by decide), seen_append,
        seen_of_small (small_of_spellsUnit digits)]
      exact ⟨_, .unit digits noHalf spelled⟩
  | pair digits aboveHigh belowHigh more aboveLow belowLow _ induction =>
      obtain ⟨others, spelled⟩ := induction
      simp only [List.cons_append, List.append_assoc]
      rw [seen_cons_of_small (by decide), seen_cons_of_small (by decide), seen_append,
        seen_of_small (small_of_spellsUnit digits), seen_cons_of_small (by decide),
        seen_cons_of_small (by decide), seen_append, seen_of_small (small_of_spellsUnit more)]
      have whole := SpellsString.pair digits aboveHigh belowHigh more aboveLow belowLow spelled
      exact ⟨_, by simpa only [List.cons_append, List.append_assoc] using whole⟩

theorem seen_blank {blanks : List Char} (blank : Blank blanks) : seen blanks = blanks := by
  refine seen_of_small fun c member => ?_
  have space := blank c member
  simp only [Json.isSpace, Bool.or_eq_true, decide_eq_true_eq] at space
  rcases space with ((rfl | rfl) | rfl) | rfl <;> decide

/-! ## Values -/

/-- A text is seen as one that spells some value. -/
def Seen (json : Json) : Prop :=
  ∀ text, Spells text json → ∃ other, Spells (seen text) other

section Parts

variable {text : List Char}

theorem Seen.padded {json : Json} (value : Seen json) (padded : SpellsPadded text json) :
    ∃ other, SpellsPadded (seen text) other := by
  cases padded with
  | mk blankBefore spelled blankAfter =>
      obtain ⟨other, spelled⟩ := value _ spelled
      rw [seen_append, seen_append, seen_blank blankBefore, seen_blank blankAfter]
      exact ⟨other, .mk blankBefore spelled blankAfter⟩

theorem spellsItems_seen {items : List Json} (each : ∀ item ∈ items, Seen item)
    (spelled : SpellsItems text items) : ∃ others, SpellsItems (seen text) others := by
  induction items generalizing text with
  | nil => cases spelled
  | cons item items induction =>
      obtain ⟨first, later⟩ := List.forall_mem_cons.1 each
      cases spelled with
      | one padded =>
          obtain ⟨other, padded⟩ := first.padded padded
          exact ⟨_, .one padded⟩
      | more padded behind =>
          obtain ⟨other, padded⟩ := first.padded padded
          obtain ⟨others, behind⟩ := induction later behind
          rw [seen_append, seen_cons_of_small (by decide)]
          exact ⟨_, .more padded behind⟩

theorem spellsMember_seen {member : String × Json} (value : Seen member.2)
    (spelled : SpellsMember text member) : ∃ other, SpellsMember (seen text) other := by
  cases spelled with
  | mk blank key blankAfter padded =>
      obtain ⟨chars, key⟩ := spellsString_seen key
      obtain ⟨other, padded⟩ := value.padded padded
      rw [seen_append, seen_blank blank, seen_cons_of_small (by decide), seen_append,
        seen_cons_of_small (by decide), seen_append, seen_blank blankAfter,
        seen_cons_of_small (by decide)]
      exact ⟨_, .mk blank key blankAfter padded⟩

theorem spellsMembers_seen {members : List (String × Json)}
    (each : ∀ member ∈ members, Seen member.2) (spelled : SpellsMembers text members) :
    ∃ others, SpellsMembers (seen text) others := by
  induction members generalizing text with
  | nil => cases spelled
  | cons member members induction =>
      obtain ⟨first, later⟩ := List.forall_mem_cons.1 each
      cases spelled with
      | one spelled =>
          obtain ⟨other, spelled⟩ := spellsMember_seen first spelled
          exact ⟨_, .one spelled⟩
      | more spelled behind =>
          obtain ⟨other, spelled⟩ := spellsMember_seen first spelled
          obtain ⟨others, behind⟩ := induction later behind
          rw [seen_append, seen_cons_of_small (by decide)]
          exact ⟨_, .more spelled behind⟩

end Parts

/-- What is seen of a text that spells a value spells a value too. -/
theorem spells_seen (json : Json) : Seen json := by
  induction json using Json.induct with
  | null =>
      intro text spelled
      cases spelled
      exact ⟨_, .null⟩
  | bool value =>
      intro text spelled
      cases spelled with
      | yes => exact ⟨_, .yes⟩
      | no => exact ⟨_, .no⟩
  | number n =>
      intro text spelled
      cases spelled with
      | number spelled =>
          rw [seen_of_small fun c member => (Numeral.visible_of_spells spelled.1 c member).2]
          exact ⟨_, .number spelled⟩
  | string content =>
      intro text spelled
      cases spelled with
      | string spelled =>
          obtain ⟨others, spelled⟩ := spellsString_seen spelled
          rw [List.cons_append, seen_cons_of_small (by decide), seen_append]
          exact ⟨_, .string spelled⟩
  | array items induction =>
      intro text spelled
      cases spelled with
      | emptyArray blank =>
          rw [List.cons_append, seen_cons_of_small (by decide), seen_append, seen_blank blank]
          exact ⟨_, .emptyArray blank⟩
      | array spelled =>
          obtain ⟨others, spelled⟩ := spellsItems_seen induction spelled
          rw [List.cons_append, seen_cons_of_small (by decide), seen_append]
          exact ⟨_, .array spelled⟩
  | object members induction =>
      intro text spelled
      cases spelled with
      | emptyObject blank =>
          rw [List.cons_append, seen_cons_of_small (by decide), seen_append, seen_blank blank]
          exact ⟨_, .emptyObject blank⟩
      | object spelled =>
          obtain ⟨others, spelled⟩ := spellsMembers_seen induction spelled
          rw [List.cons_append, seen_cons_of_small (by decide), seen_append]
          exact ⟨_, .object spelled⟩

end SignedFacts.Response
