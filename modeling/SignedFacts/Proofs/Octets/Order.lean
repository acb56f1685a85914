import Mathlib.Tactic.SplitIfs
import SignedFacts.Proofs.Octets.Utf8

/-!
# The order of texts

Texts are ordered character by character, and UTF-8 keeps this order.  So the
order of keys is that of their octets (`Utf8.encode_lt`).
-/

namespace SignedFacts.Utf8

theorem ofNat_lt {a b : Nat} (less : a < b) (small : b < 256) : UInt8.ofNat a < UInt8.ofNat b := by
  rw [UInt8.lt_iff_toNat_lt, UInt8.toNat_ofNat', UInt8.toNat_ofNat']
  omega

/-- Of two characters the smaller has the smaller octets, whatever follows. -/
theorem charOctets_lt {c d : Char} (less : c.toNat < d.toNat) (x y : List UInt8) :
    charOctets c ++ x < charOctets d ++ y := by
  have bound := code_bounds d
  -- The first octet decides, or both are equal and the rest decides.
  have step {a b : Nat} {x y : List UInt8} (low : a ≤ b) (small : b < 256)
      (rest : a = b → x < y) : UInt8.ofNat a :: x < UInt8.ofNat b :: y := by
    rw [List.cons_lt_cons_iff]
    rcases Nat.lt_or_eq_of_le low with less | same
    · exact .inl (ofNat_lt less small)
    · exact .inr ⟨congrArg UInt8.ofNat same, rest same⟩
  simp only [charOctets]
  split_ifs <;> simp only [List.cons_append, List.nil_append]
  all_goals repeat first | omega | refine step (by omega) (by omega) fun _ => ?_

theorem octets_lt {a b : List Char} (less : a < b) : octets a < octets b := by
  induction less with
  | @nil c text =>
      have positive : 0 < (octets (c :: text)).length :=
        Nat.lt_of_lt_of_le (Nat.succ_pos text.length) (length_le_length_octets (c :: text))
      obtain ⟨octet, more, shape⟩ := List.exists_cons_of_length_pos positive
      rw [shape]
      exact List.nil_lt_cons _ _
  | rel less => exact charOctets_lt less _ _
  | cons _ induction => exact List.append_left_lt induction

/-- Texts are ordered as their octets are. -/
theorem encode_lt {a b : String} (less : compare a b = .lt) : encode a < encode b :=
  octets_lt ((@compareOfLessAndEq_eq_lt String _ _ _ _ a b).1 less)

end SignedFacts.Utf8
