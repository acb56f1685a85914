import SignedFacts.Octets.Base64

/-!
# Base64 text read again

What is written in base64 is read again (`decode_symbols`), and nothing else is read
(`decode_eq_some_iff`).  The reader is followed group by group, and the filling tells the
last group from the others.  Octets that do not come in threes are filled up
(`fill_mem_symbols`).
-/

namespace SignedFacts.Base64

theorem sextet?_symbol : ∀ sextet < 64, sextet? (symbol sextet) = some sextet := by decide

theorem symbol_ne_fill : ∀ sextet < 64, symbol sextet ≠ '=' := by decide

section Groups

variable {p q r s : Nat}

/-- A group of two characters, filled up. -/
theorem decode_two (first : p < 64) (second : q < 64) (rest : q % 16 = 0) :
    decode [symbol p, symbol q, '=', '='] = some [UInt8.ofNat (p * 4 + q / 16)] := by
  simp only [decode, sextet?_symbol p first, sextet?_symbol q second, Option.bind_eq_bind,
    Option.bind_some, if_pos rest]

/-- A group of three characters, filled up. -/
theorem decode_three (first : p < 64) (second : q < 64) (third : r < 64) (rest : r % 4 = 0) :
    decode [symbol p, symbol q, symbol r, '=']
      = some [UInt8.ofNat (p * 4 + q / 16), UInt8.ofNat (q % 16 * 16 + r / 4)] := by
  rw [decode]
  · simp only [sextet?_symbol p first, sextet?_symbol q second, sextet?_symbol r third,
      Option.bind_eq_bind, Option.bind_some, if_pos rest]
  · exact symbol_ne_fill r third

/-- A group of four characters with more behind it. -/
theorem decode_four (first : p < 64) (second : q < 64) (third : r < 64) (fourth : s < 64)
    (text : List Char) :
    decode (symbol p :: symbol q :: symbol r :: symbol s :: text)
      = (decode text).map fun octets => UInt8.ofNat (p * 4 + q / 16)
        :: UInt8.ofNat (q % 16 * 16 + r / 4) :: UInt8.ofNat (r % 4 * 64 + s) :: octets := by
  rw [decode]
  · simp only [sextet?_symbol p first, sextet?_symbol q second, sextet?_symbol r third,
      sextet?_symbol s fourth, Option.bind_eq_bind, Option.bind_some]
    cases decode text <;> rfl
  · exact fun _ fill => absurd fill (symbol_ne_fill s fourth)
  · exact fun fill => absurd fill (symbol_ne_fill s fourth)

end Groups

theorem ofNat_eq {n : Nat} {octet : UInt8} (same : n = octet.toNat) : UInt8.ofNat n = octet := by
  rw [same, UInt8.ofNat_toNat]

/-- What is written in base64 is read again. -/
theorem decode_symbols (octets : List UInt8) : decode (symbols octets) = some octets := by
  induction octets using symbols.induct with
  | case1 => rfl
  | case2 a =>
      have := a.toNat_lt
      rw [symbols, decode_two (by omega) (by omega) (by omega), @ofNat_eq _ a (by omega)]
  | case3 a b =>
      have := a.toNat_lt
      have := b.toNat_lt
      rw [symbols, decode_three (by omega) (by omega) (by omega) (by omega),
        @ofNat_eq _ a (by omega), @ofNat_eq _ b (by omega)]
  | case4 a b c rest induction =>
      have := a.toNat_lt
      have := b.toNat_lt
      have := c.toNat_lt
      rw [symbols, decode_four (by omega) (by omega) (by omega) (by omega), induction,
        Option.map_some, @ofNat_eq _ a (by omega), @ofNat_eq _ b (by omega),
        @ofNat_eq _ c (by omega)]

/-! ## What is read -/

/-- A character of the alphabet is the one of its number. -/
theorem symbol_of_sextet? {c : Char} {sextet : Nat} (read : sextet? c = some sextet) :
    sextet < 64 ∧ symbol sextet = c := by
  have bounds (low high : Char) : low ≤ c ∧ c ≤ high ↔ low.toNat ≤ c.toNat ∧ c.toNat ≤ high.toNat :=
    Iff.rfl
  simp only [sextet?, bounds, Char.reduceToNat] at read
  split at read
  next upper =>
    cases read
    refine ⟨by omega, ?_⟩
    rw [symbol, if_pos (by omega), Nat.add_sub_cancel' upper.1, Char.ofNat_toNat]
  next =>
    split at read
    next lower =>
      cases read
      refine ⟨by omega, ?_⟩
      rw [symbol, if_neg (by omega), if_pos (by omega), Nat.add_sub_cancel' (by omega),
        Char.ofNat_toNat]
    next =>
      split at read
      next digit =>
        cases read
        refine ⟨by omega, ?_⟩
        rw [symbol, if_neg (by omega), if_neg (by omega), if_pos (by omega), Nat.add_sub_cancel,
          Char.ofNat_toNat]
      next =>
        split at read
        next plus =>
          cases read
          exact ⟨by decide, plus.symm⟩
        next =>
          split at read
          next slash =>
            cases read
            exact ⟨by decide, slash.symm⟩
          next => cases read

/-- What is read as octets is their base64 text.  The bits left over in a last group are
zero, and so they are what the octets put there. -/
theorem eq_symbols_of_decode {text : List Char} {octets : List UInt8}
    (read : decode text = some octets) : text = symbols octets := by
  have octet {n : Nat} (small : n < 256) : (UInt8.ofNat n).toNat = n :=
    UInt8.toNat_ofNat_of_lt' small
  fun_induction decode text generalizing octets with
  | case1 =>
      cases read
      rfl
  | case2 p q =>
      simp only [Option.bind_eq_bind, Option.bind_eq_some_iff] at read
      obtain ⟨a, first, b, second, read⟩ := read
      obtain ⟨_, rfl⟩ := symbol_of_sextet? first
      obtain ⟨_, rfl⟩ := symbol_of_sextet? second
      split at read
      next rest =>
        cases read
        rw [symbols, octet (by omega)]
        congr <;> omega
      next => cases read
  | case3 p q r noTwo =>
      simp only [Option.bind_eq_bind, Option.bind_eq_some_iff] at read
      obtain ⟨a, first, b, second, c, third, read⟩ := read
      obtain ⟨_, rfl⟩ := symbol_of_sextet? first
      obtain ⟨_, rfl⟩ := symbol_of_sextet? second
      obtain ⟨_, rfl⟩ := symbol_of_sextet? third
      split at read
      next rest =>
        cases read
        rw [symbols, octet (by omega), octet (by omega)]
        congr <;> omega
      next => cases read
  | case4 p q r s rest noTwo noThree induction =>
      simp only [Option.bind_eq_bind, Option.bind_eq_some_iff] at read
      obtain ⟨a, first, b, second, c, third, d, fourth, others, behind, read⟩ := read
      obtain ⟨_, rfl⟩ := symbol_of_sextet? first
      obtain ⟨_, rfl⟩ := symbol_of_sextet? second
      obtain ⟨_, rfl⟩ := symbol_of_sextet? third
      obtain ⟨_, rfl⟩ := symbol_of_sextet? fourth
      cases read
      rw [symbols, octet (by omega), octet (by omega), octet (by omega), induction behind]
      congr <;> omega
  | case5 => cases read

theorem decode_eq_some_iff {text : List Char} {octets : List UInt8} :
    decode text = some octets ↔ text = symbols octets :=
  ⟨eq_symbols_of_decode, fun same => same ▸ decode_symbols octets⟩

/-! ## The length of a text -/

/-- Three octets take four characters, and so does a last group. -/
theorem length_symbols (octets : List UInt8) :
    (symbols octets).length = (octets.length + 2) / 3 * 4 := by
  fun_induction symbols octets with
  | case1 => rfl
  | case2 a => simp
  | case3 a b => simp
  | case4 a b c rest induction =>
      simp only [List.length_cons, induction]
      omega

/-- A last group that is not full is filled up. -/
theorem fill_mem_symbols {octets : List UInt8} (part : octets.length % 3 ≠ 0) :
    '=' ∈ symbols octets := by
  induction octets using symbols.induct with
  | case1 => exact absurd rfl part
  | case2 a => simp [symbols]
  | case3 a b => simp [symbols]
  | case4 a b c rest induction =>
      have behind := induction fun full => part (by simp only [List.length_cons]; omega)
      exact List.mem_append_right [_, _, _, _] behind

end SignedFacts.Base64
