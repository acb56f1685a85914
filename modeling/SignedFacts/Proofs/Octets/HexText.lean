import SignedFacts.Proofs.Json.Token
import SignedFacts.Proofs.Octets.Hex

/-!
# Hexadecimal text, character by character

The reader of hexadecimal text works on octets.  Here it is said which characters these
are: a text is read exactly if it consists of an even number of digits of either case
(`IsText`), and it is read as the octets that the digits spell (`decode_octets_iff`).
-/

namespace SignedFacts.Hex

open Json (hexValue? small_of_hexValue?)

/-! ## Definitions -/

/-- A text spells octets with two digits for each, of either case, high half first. -/
inductive Spells : List Char → List UInt8 → Prop where
  | nil : Spells [] []
  | cons {high low : Char} {upper lower : Nat} {octet : UInt8} {text : List Char}
      {octets : List UInt8} :
      hexValue? high = some upper → hexValue? low = some lower →
      octet.toNat = 16 * upper + lower → Spells text octets →
      Spells (high :: low :: text) (octet :: octets)

/-- An even number of digits of either case and nothing else. -/
def IsText (text : List Char) : Prop :=
  text.length % 2 = 0 ∧ ∀ c ∈ text, (hexValue? c).isSome = true

/-! ## Digits -/

section Digits

variable {c : Char} {half : Nat}

theorem halfOctet?_of_hexValue? (read : hexValue? c = some half) :
    ∃ found, halfOctet? (UInt8.ofNat c.toNat) = some found ∧ found.toNat = half := by
  have small := small_of_hexValue? read
  rw [← Json.halfOctet?_eq_hexValue?, if_pos small] at read
  exact Option.map_eq_some_iff.1 read

theorem hexValue?_of_halfOctet? {found : UInt8} (small : c.toNat < 0x80)
    (read : halfOctet? (UInt8.ofNat c.toNat) = some found) :
    hexValue? c = some found.toNat := by
  rw [← Json.halfOctet?_eq_hexValue?, if_pos small, read]
  rfl

theorem hexValue?_lt (read : hexValue? c = some half) : half < 16 := by
  have bounds (low high : Char) : low ≤ c ∧ c ≤ high ↔ low.toNat ≤ c.toNat ∧ c.toNat ≤ high.toNat :=
    Iff.rfl
  simp only [hexValue?, bounds, Char.reduceToNat] at read
  repeat' split at read
  all_goals cases read <;> omega

/-- An octet that is read as a digit is small. -/
theorem small_of_halfOctet? {octet : UInt8} (read : (halfOctet? octet).isSome = true) :
    octet.toNat < 0x80 := by
  simp only [halfOctet?, UInt8.le_iff_toNat_le, UInt8.reduceToNat] at read
  repeat' split at read
  all_goals first | omega | cases read

theorem toNat_halves {upper lower : UInt8} (high : upper.toNat < 16) (low : lower.toNat < 16) :
    (upper * 16 + lower).toNat = 16 * upper.toNat + lower.toNat := by
  have sixteen : UInt8.toNat 16 = 16 := rfl
  rw [UInt8.toNat_add, UInt8.toNat_mul, sixteen]
  omega

end Digits

/-! ## Texts -/

/-- The texts that spell octets are the hexadecimal ones. -/
theorem isText_of_spells {text : List Char} {octets : List UInt8} (spelled : Spells text octets) :
    IsText text := by
  induction spelled with
  | nil => exact ⟨rfl, nofun⟩
  | cons high low _ _ induction =>
      refine ⟨by simp only [List.length_cons]; have := induction.1; omega, ?_⟩
      simp only [List.forall_mem_cons, high, low, Option.isSome_some, true_and]
      exact induction.2

theorem exists_spells_of_isText : ∀ {text : List Char}, IsText text → ∃ octets, Spells text octets
  | [], _ => ⟨[], .nil⟩
  | [_], ⟨odd, _⟩ => by cases odd
  | high :: low :: text, ⟨even, digits⟩ => by
      obtain ⟨isHigh, isLow, others⟩ : _ ∧ _ ∧ _ := by simpa only [List.forall_mem_cons] using digits
      obtain ⟨upper, highRead⟩ := Option.isSome_iff_exists.1 isHigh
      obtain ⟨lower, lowRead⟩ := Option.isSome_iff_exists.1 isLow
      obtain ⟨octets, spelled⟩ := @exists_spells_of_isText text
        ⟨by simp only [List.length_cons] at even; omega, others⟩
      have upperBound := hexValue?_lt highRead
      have lowerBound := hexValue?_lt lowRead
      have octet : (UInt8.ofNat (16 * upper + lower)).toNat = 16 * upper + lower :=
        UInt8.toNat_ofNat_of_lt' (show 16 * upper + lower < 256 by omega)
      exact ⟨_, .cons highRead lowRead octet spelled⟩

theorem length_of_spells {text : List Char} {octets : List UInt8} (spelled : Spells text octets) :
    text.length = 2 * octets.length := by
  induction spelled with
  | nil => rfl
  | cons _ _ _ _ induction => simp only [List.length_cons]; omega

theorem decodePairs_of_spells {text : List Char} {octets : List UInt8}
    (spelled : Spells text octets) (position : Nat) :
    decodePairs position (text.map fun c => UInt8.ofNat c.toNat) = .ok octets := by
  induction spelled generalizing position with
  | nil => rfl
  | @cons high low upper lower octet text octets highRead lowRead same _ induction =>
      obtain ⟨h, highHalf, rfl⟩ := halfOctet?_of_hexValue? highRead
      obtain ⟨l, lowHalf, rfl⟩ := halfOctet?_of_hexValue? lowRead
      have whole : h * 16 + l = octet := by
        rw [← UInt8.toNat_inj, toNat_halves (hexValue?_lt highRead) (hexValue?_lt lowRead), same]
      simp only [List.map_cons, decodePairs, highHalf, lowHalf, induction, Except.map, whole]

theorem spells_of_decodePairs : ∀ {text : List Char} {octets : List UInt8} {position : Nat},
    (∀ c ∈ text, c.toNat < 0x80) →
    decodePairs position (text.map fun c => UInt8.ofNat c.toNat) = .ok octets →
    Spells text octets
  | [], _, _, _, read => by
      cases read
      exact .nil
  | [_], _, _, _, read => by cases read
  | high :: low :: text, octets, position, small, read => by
      obtain ⟨smallHigh, smallLow, others⟩ : _ ∧ _ ∧ _ := by
        simpa only [List.forall_mem_cons] using small
      simp only [List.map_cons, decodePairs] at read
      split at read
      next => cases read
      next => cases read
      next h l highHalf lowHalf =>
        obtain ⟨found, behind, rfl⟩ := Json.of_map_eq_ok read
        have highRead := hexValue?_of_halfOctet? smallHigh highHalf
        have lowRead := hexValue?_of_halfOctet? smallLow lowHalf
        exact .cons highRead lowRead (toNat_halves (hexValue?_lt highRead) (hexValue?_lt lowRead))
          (spells_of_decodePairs others behind)

/-- A text is read as the octets that it spells. -/
theorem decode_octets_iff {text : List Char} {octets : List UInt8} :
    decode (Utf8.octets text) = .ok octets ↔ Spells text octets := by
  rw [decode_eq_ok_iff]
  constructor
  · intro read
    have digits := (of_decodePairs_eq_ok read).2
    have small : ∀ c ∈ text, c.toNat < 0x80 := by
      intro c member
      obtain ⟨octet, inside⟩ := List.exists_mem_of_length_pos (Utf8.length_charOctets_pos c)
      have digit := small_of_halfOctet? (digits octet (List.mem_flatMap.2 ⟨c, member, inside⟩))
      rcases Nat.lt_or_ge c.toNat 0x80 with small | large
      · exact small
      · exact absurd (Utf8.large_of_mem_charOctets large octet inside) (Nat.not_le.2 digit)
    rw [Utf8.octets_of_small small] at read
    exact spells_of_decodePairs small read
  · intro spelled
    have small : ∀ c ∈ text, c.toNat < 0x80 := by
      intro c member
      obtain ⟨half, read⟩ := Option.isSome_iff_exists.1 ((isText_of_spells spelled).2 c member)
      exact small_of_hexValue? read
    rw [Utf8.octets_of_small small]
    exact decodePairs_of_spells spelled 0

end SignedFacts.Hex
