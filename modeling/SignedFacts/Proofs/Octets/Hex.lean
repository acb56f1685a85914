import SignedFacts.Octets.Hex
import SignedFacts.Proofs.Octets.Utf8

/-!
# Hexadecimal text read again

What is written in digits is read again (`decode_digits`).  A text that is read
consists of pairs of digits (`of_decodePairs_eq_ok`), so one octet that is no digit is
enough for a text to be refused.
-/

namespace SignedFacts.Hex

/-! ## Digits -/

/-- A digit is written as one octet, and this octet is read as the digit. -/
theorem exists_octet_of_digit {half : UInt8} (small : half.toNat < 16) :
    ∃ octet, Utf8.charOctets (digit half) = [octet] ∧ halfOctet? octet = some half := by
  have each : ∀ half < 16, ∃ octet ∈ Utf8.charOctets (digit (UInt8.ofNat half)),
      Utf8.charOctets (digit (UInt8.ofNat half)) = [octet]
        ∧ halfOctet? octet = some (UInt8.ofNat half) := by decide
  obtain ⟨octet, _, found⟩ := each _ small
  rw [UInt8.ofNat_toNat] at found
  exact ⟨octet, found⟩

theorem halves (octet : UInt8) : octet / 16 * 16 + octet % 16 = octet := by
  have bound := octet.toNat_lt
  have sixteen : UInt8.toNat 16 = 16 := rfl
  rw [← UInt8.toNat_inj, UInt8.toNat_add, UInt8.toNat_mul, UInt8.toNat_div, UInt8.toNat_mod,
    sixteen]
  omega

/-! ## Texts -/

theorem decodePairs_digits (octets : List UInt8) (position : Nat) :
    decodePairs position (Utf8.octets (digits octets)) = .ok octets := by
  induction octets generalizing position with
  | nil => rfl
  | cons octet octets induction =>
      have upper : octet.toNat / 16 < 16 := Nat.div_lt_of_lt_mul octet.toNat_lt
      have lower : octet.toNat % 16 < 16 := Nat.mod_lt _ (by decide)
      obtain ⟨high, highWritten, highRead⟩ := @exists_octet_of_digit (octet / 16) upper
      obtain ⟨low, lowWritten, lowRead⟩ := @exists_octet_of_digit (octet % 16) lower
      have written : Utf8.octets (digits (octet :: octets))
          = high :: low :: Utf8.octets (digits octets) := by
        simp only [digits, octetDigits, Utf8.octets, List.flatMap_cons, List.flatMap_append,
          List.flatMap_nil, List.append_nil, highWritten, lowWritten]
        rfl
      simp only [written, decodePairs, highRead, lowRead, induction, Except.map, halves]

/-- What is read as octets has two digits for each and nothing else. -/
theorem of_decodePairs_eq_ok {text octets : List UInt8} {position : Nat}
    (read : decodePairs position text = .ok octets) :
    text.length = 2 * octets.length ∧ ∀ c ∈ text, (halfOctet? c).isSome = true := by
  induction position, text using decodePairs.induct generalizing octets with
  | case1 position =>
      cases read
      exact ⟨rfl, nofun⟩
  | case2 position c => cases read
  | case3 position high low rest bad => simp [decodePairs, bad] at read
  | case4 position high low rest half good bad => simp [decodePairs, good, bad] at read
  | case5 position high low rest upper lower highRead lowRead induction =>
      simp only [decodePairs, highRead, lowRead] at read
      cases others : decodePairs (position + 2) rest with
      | error cause =>
          rw [others] at read
          cases read
      | ok found =>
          rw [others] at read
          cases read
          obtain ⟨length, digits⟩ := induction others
          refine ⟨by simp only [List.length_cons]; omega, ?_⟩
          simp only [List.forall_mem_cons, highRead, lowRead, Option.isSome_some, true_and]
          exact digits

/-- A text of odd length is not made of pairs. -/
theorem decode_eq_ok_iff {text octets : List UInt8} :
    decode text = .ok octets ↔ decodePairs 0 text = .ok octets := by
  rw [decode]
  split
  next odd =>
    refine iff_of_false nofun fun read => ?_
    have even := (of_decodePairs_eq_ok read).1
    omega
  next => rfl

/-- What is written in digits is read again. -/
theorem decode_digits (octets : List UInt8) :
    decode (Utf8.octets (digits octets)) = .ok octets :=
  decode_eq_ok_iff.2 (decodePairs_digits octets 0)

end SignedFacts.Hex
