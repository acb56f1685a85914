import SignedFacts.Octets.Utf8

/-!
# Octets that are UTF-8

Reading and writing of UTF-8 undo each other.  `decode_eq_ok_iff` says that
octets read as a text exactly when they are the octets of that text, so octets
without a text are refused and no text has two spellings.

Both directions go character by character.  `decodeFrom_charOctets` reads the
octets of one character, and the lemmas on `Lead` bound the first octet of a
character that was read.
-/

namespace SignedFacts.Utf8

/-! ## Numbers of characters -/

/-- The number of a character is below the surrogates or behind them. -/
theorem code_bounds (c : Char) :
    c.toNat < 0xD800 ∨ (0xDFFF < c.toNat ∧ c.toNat < 0x110000) := by
  have valid := c.valid
  simp only [UInt32.isValidChar, Nat.isValidChar] at valid
  simp only [Char.toNat]
  omega

theorem toNat_ofNat {code : Nat}
    (valid : code < 0xD800 ∨ (0xDFFF < code ∧ code < 0x110000)) :
    (Char.ofNat code).toNat = code := by
  have isValid : code.isValidChar := by
    simp only [Nat.isValidChar]
    omega
  rw [Char.ofNat, dif_pos isValid]
  rfl

/-! ## What a first octet promises -/

/-- The promise of an octet, read off its number. -/
theorem lead_ofNat {number : Nat} (small : number < 256) :
    lead (UInt8.ofNat number) =
      if number < 0x80 then .one
      else if number < 0xC2 then .never
      else if number < 0xE0 then .two
      else if number = 0xE0 then .three 0xA0 0xBF
      else if number = 0xED then .three 0x80 0x9F
      else if number < 0xF0 then .three 0x80 0xBF
      else if number = 0xF0 then .four 0x90 0xBF
      else if number < 0xF4 then .four 0x80 0xBF
      else if number = 0xF4 then .four 0x80 0x8F
      else .never := by
  simp [lead, UInt8.lt_iff_toNat_lt, UInt8.ofNat_eq_iff_mod_eq_toNat, Nat.mod_eq_of_lt small]

theorem lead_eq (first : UInt8) :
    lead first =
      if first.toNat < 0x80 then .one
      else if first.toNat < 0xC2 then .never
      else if first.toNat < 0xE0 then .two
      else if first.toNat = 0xE0 then .three 0xA0 0xBF
      else if first.toNat = 0xED then .three 0x80 0x9F
      else if first.toNat < 0xF0 then .three 0x80 0xBF
      else if first.toNat = 0xF0 then .four 0x90 0xBF
      else if first.toNat < 0xF4 then .four 0x80 0xBF
      else if first.toNat = 0xF4 then .four 0x80 0x8F
      else .never := by
  have read := lead_ofNat first.toNat_lt
  rwa [UInt8.ofNat_toNat] at read

theorem bounds_of_lead_one {first : UInt8} (one : lead first = .one) : first.toNat < 0x80 := by
  rw [lead_eq] at one
  grind

theorem bounds_of_lead_two {first : UInt8} (two : lead first = .two) :
    0xC2 ≤ first.toNat ∧ first.toNat < 0xE0 := by
  rw [lead_eq] at two
  grind

/-- The bounds of the second octet keep a character of three octets from being
longer than needed and from being a surrogate. -/
theorem bounds_of_lead_three {first low high : UInt8} (three : lead first = .three low high) :
    0xE0 ≤ first.toNat ∧ first.toNat < 0xF0 ∧ 0x80 ≤ low.toNat ∧ high.toNat ≤ 0xBF
      ∧ (first.toNat = 0xE0 → low.toNat = 0xA0) ∧ (first.toNat = 0xED → high.toNat = 0x9F) := by
  rw [lead_eq] at three
  repeat' split at three
  all_goals simp only [Lead.three.injEq, reduceCtorEq] at three
  all_goals
    obtain ⟨rfl, rfl⟩ := three
    simp
    omega

/-- The bounds of the second octet keep a character of four octets from being
longer than needed and from being past the last. -/
theorem bounds_of_lead_four {first low high : UInt8} (four : lead first = .four low high) :
    0xF0 ≤ first.toNat ∧ first.toNat < 0xF5 ∧ 0x80 ≤ low.toNat ∧ high.toNat ≤ 0xBF
      ∧ (first.toNat = 0xF0 → low.toNat = 0x90) ∧ (first.toNat = 0xF4 → high.toNat = 0x8F) := by
  rw [lead_eq] at four
  repeat' split at four
  all_goals simp only [Lead.four.injEq, reduceCtorEq] at four
  all_goals
    obtain ⟨rfl, rfl⟩ := four
    simp
    omega

/-! ## One character -/

theorem charOctets_ofNat {code : Nat}
    (valid : code < 0xD800 ∨ (0xDFFF < code ∧ code < 0x110000)) :
    charOctets (Char.ofNat code) =
      if code < 0x80 then [UInt8.ofNat code]
      else if code < 0x800 then
        [UInt8.ofNat (0xC0 + code / 64), UInt8.ofNat (0x80 + code % 64)]
      else if code < 0x10000 then
        [UInt8.ofNat (0xE0 + code / 4096), UInt8.ofNat (0x80 + code / 64 % 64),
          UInt8.ofNat (0x80 + code % 64)]
      else
        [UInt8.ofNat (0xF0 + code / 262144), UInt8.ofNat (0x80 + code / 4096 % 64),
          UInt8.ofNat (0x80 + code / 64 % 64), UInt8.ofNat (0x80 + code % 64)] := by
  simp only [charOctets, toNat_ofNat valid]

theorem isContinuation_iff {octet : UInt8} :
    isContinuation octet = true ↔ 0x80 ≤ octet.toNat ∧ octet.toNat ≤ 0xBF := by
  simp [isContinuation, UInt8.le_iff_toNat_le]

theorem isContinuation_ofNat (bits : Nat) :
    isContinuation (UInt8.ofNat (0x80 + bits % 64)) = true := by
  rw [isContinuation_iff, UInt8.toNat_ofNat']
  omega

theorem payload_ofNat (bits : Nat) : payload (UInt8.ofNat (0x80 + bits % 64)) = bits % 64 := by
  rw [payload, UInt8.toNat_ofNat']
  omega

/-! ## Steps of the reader -/

section Steps

variable {start : Nat} {done : List Char} {a b c d low high : UInt8} {rest : List UInt8}

theorem decodeFrom_one (promise : lead a = .one) :
    decodeFrom start done (a :: rest)
      = decodeFrom (start + 1) (Char.ofNat a.toNat :: done) rest := by
  rw [decodeFrom.eq_def]
  simp [promise]

theorem decodeFrom_two (promise : lead a = .two) (second : isContinuation b = true) :
    decodeFrom start done (a :: b :: rest)
      = decodeFrom (start + 2) (Char.ofNat (a.toNat % 32 * 64 + payload b) :: done) rest := by
  rw [decodeFrom.eq_def]
  simp [promise, second]

theorem decodeFrom_three (promise : lead a = .three low high)
    (second : low ≤ b ∧ b ≤ high) (third : isContinuation c = true) :
    decodeFrom start done (a :: b :: c :: rest)
      = decodeFrom (start + 3)
          (Char.ofNat (a.toNat % 16 * 4096 + payload b * 64 + payload c) :: done) rest := by
  rw [decodeFrom.eq_def]
  simp [promise, second, third]

theorem decodeFrom_four (promise : lead a = .four low high)
    (second : low ≤ b ∧ b ≤ high) (third : isContinuation c = true)
    (fourth : isContinuation d = true) :
    decodeFrom start done (a :: b :: c :: d :: rest)
      = decodeFrom (start + 4)
          (Char.ofNat (a.toNat % 8 * 262144 + payload b * 4096 + payload c * 64 + payload d)
            :: done)
          rest := by
  rw [decodeFrom.eq_def]
  simp [promise, second, third, fourth]

end Steps

/-! ## Reading what was written -/

theorem lead_ofNat_three (code : Nat) (large : 0x800 ≤ code) (small : code < 0x10000)
    (noSurrogate : code < 0xD800 ∨ 0xDFFF < code) :
    ∃ low high, lead (UInt8.ofNat (0xE0 + code / 4096)) = .three low high
      ∧ low ≤ UInt8.ofNat (0x80 + code / 64 % 64)
      ∧ UInt8.ofNat (0x80 + code / 64 % 64) ≤ high := by
  rw [lead_ofNat (by omega)]
  simp only [UInt8.le_iff_toNat_le, UInt8.toNat_ofNat']
  have floor : ¬ 0xE0 + code / 4096 < 0xE0 := by omega
  rw [if_neg (by omega), if_neg (by omega), if_neg floor]
  split
  next first => exact ⟨_, _, rfl, by simp; omega, by simp; omega⟩
  next =>
    split
    next first => exact ⟨_, _, rfl, by simp; omega, by simp; omega⟩
    next =>
      rw [if_pos (by omega)]
      exact ⟨_, _, rfl, by simp; omega, by simp; omega⟩

theorem lead_ofNat_four (code : Nat) (large : 0x10000 ≤ code) (small : code < 0x110000) :
    ∃ low high, lead (UInt8.ofNat (0xF0 + code / 262144)) = .four low high
      ∧ low ≤ UInt8.ofNat (0x80 + code / 4096 % 64)
      ∧ UInt8.ofNat (0x80 + code / 4096 % 64) ≤ high := by
  rw [lead_ofNat (by omega)]
  simp only [UInt8.le_iff_toNat_le, UInt8.toNat_ofNat']
  have floor : ¬ 0xF0 + code / 262144 < 0xF0 := by omega
  rw [if_neg (by omega), if_neg (by omega), if_neg (by omega), if_neg (by omega),
    if_neg (by omega), if_neg floor]
  split
  next first => exact ⟨_, _, rfl, by simp; omega, by simp; omega⟩
  next =>
    split
    next => exact ⟨_, _, rfl, by simp; omega, by simp; omega⟩
    next =>
      rw [if_pos (by omega)]
      exact ⟨_, _, rfl, by simp; omega, by simp; omega⟩

/-- The octets of a character are read as that character. -/
theorem decodeFrom_charOctets (start : Nat) (done : List Char) (c : Char) (rest : List UInt8) :
    ∃ next, decodeFrom start done (charOctets c ++ rest) = decodeFrom next (c :: done) rest := by
  have bounds := code_bounds c
  rw [← Char.ofNat_toNat c]
  generalize c.toNat = code at *
  rw [charOctets_ofNat bounds]
  split
  next small =>
    have promise : lead (UInt8.ofNat code) = .one := by
      rw [lead_ofNat (by omega), if_pos small]
    refine ⟨start + 1, ?_⟩
    rw [List.cons_append, List.nil_append, decodeFrom_one promise, UInt8.toNat_ofNat',
      Nat.mod_eq_of_lt (by omega)]
  next =>
    split
    next small =>
      have promise : lead (UInt8.ofNat (0xC0 + code / 64)) = .two := by
        rw [lead_ofNat (by omega), if_neg (by omega), if_neg (by omega), if_pos (by omega)]
      refine ⟨start + 2, ?_⟩
      simp only [List.cons_append, List.nil_append]
      rw [decodeFrom_two promise (isContinuation_ofNat code), payload_ofNat, UInt8.toNat_ofNat']
      congr 3
      omega
    next =>
      split
      next small =>
        obtain ⟨low, high, promise, second⟩ :=
          lead_ofNat_three code (by omega) small (by omega)
        refine ⟨start + 3, ?_⟩
        simp only [List.cons_append, List.nil_append]
        rw [decodeFrom_three promise second (isContinuation_ofNat code), payload_ofNat,
          payload_ofNat, UInt8.toNat_ofNat']
        congr 3
        omega
      next =>
        obtain ⟨low, high, promise, second⟩ :=
          lead_ofNat_four code (by omega) (by omega)
        refine ⟨start + 4, ?_⟩
        simp only [List.cons_append, List.nil_append]
        rw [decodeFrom_four promise second (isContinuation_ofNat _) (isContinuation_ofNat code),
          payload_ofNat, payload_ofNat, payload_ofNat, UInt8.toNat_ofNat']
        congr 3
        omega

theorem decodeFrom_octets (text : List Char) (start : Nat) (done : List Char) :
    decodeFrom start done (octets text) = .ok (done.reverse ++ text) := by
  induction text generalizing start done with
  | nil => simp [octets, decodeFrom]
  | cons c rest induction =>
      obtain ⟨next, step⟩ := decodeFrom_charOctets start done c (octets rest)
      have split : octets (c :: rest) = charOctets c ++ octets rest := rfl
      rw [split, step, induction, List.reverse_cons, List.append_assoc]
      rfl

/-! ## Writing what was read -/

section Written

variable {a b c d low high : UInt8}

theorem charOctets_one (promise : lead a = .one) : charOctets (Char.ofNat a.toNat) = [a] := by
  have bounds := bounds_of_lead_one promise
  rw [charOctets_ofNat (by omega), if_pos bounds, UInt8.ofNat_toNat]

theorem charOctets_two (promise : lead a = .two) (second : isContinuation b = true) :
    charOctets (Char.ofNat (a.toNat % 32 * 64 + payload b)) = [a, b] := by
  have bounds := bounds_of_lead_two promise
  rw [isContinuation_iff] at second
  unfold payload
  rw [charOctets_ofNat (by omega), if_neg (by omega), if_pos (by omega)]
  simp only [List.cons.injEq, and_true, ← UInt8.toNat_inj, UInt8.toNat_ofNat']
  omega

theorem charOctets_three (promise : lead a = .three low high)
    (second : low ≤ b ∧ b ≤ high) (third : isContinuation c = true) :
    charOctets (Char.ofNat (a.toNat % 16 * 4096 + payload b * 64 + payload c)) = [a, b, c] := by
  have bounds := bounds_of_lead_three promise
  rw [isContinuation_iff] at third
  rw [UInt8.le_iff_toNat_le, UInt8.le_iff_toNat_le] at second
  unfold payload
  rw [charOctets_ofNat (by omega), if_neg (by omega), if_neg (by omega), if_pos (by omega)]
  simp only [List.cons.injEq, and_true, ← UInt8.toNat_inj, UInt8.toNat_ofNat']
  omega

theorem charOctets_four (promise : lead a = .four low high)
    (second : low ≤ b ∧ b ≤ high) (third : isContinuation c = true)
    (fourth : isContinuation d = true) :
    charOctets (Char.ofNat
        (a.toNat % 8 * 262144 + payload b * 4096 + payload c * 64 + payload d))
      = [a, b, c, d] := by
  have bounds := bounds_of_lead_four promise
  rw [isContinuation_iff] at third fourth
  rw [UInt8.le_iff_toNat_le, UInt8.le_iff_toNat_le] at second
  unfold payload
  rw [charOctets_ofNat (by omega), if_neg (by omega), if_neg (by omega), if_neg (by omega)]
  simp only [List.cons.injEq, and_true, ← UInt8.toNat_inj, UInt8.toNat_ofNat']
  omega

end Written

/-- What was read past the characters in hand was spelled by the input. -/
theorem octets_of_decodeFrom {start : Nat} {done : List Char} {input : List UInt8}
    {text : List Char} (read : decodeFrom start done input = .ok text) :
    ∃ tail, text = done.reverse ++ tail ∧ input = octets tail := by
  -- A step that goes on puts one character in front of the tail.
  have step {done : List Char} {c : Char} {spelled rest : List UInt8}
      (written : charOctets c = spelled)
      (more : ∃ tail, text = (c :: done).reverse ++ tail ∧ rest = octets tail) :
      ∃ tail, text = done.reverse ++ tail ∧ spelled ++ rest = octets tail := by
    obtain ⟨tail, rfl, rfl⟩ := more
    exact ⟨c :: tail, by simp, by simp [octets, written]⟩
  fun_induction decodeFrom start done input with
  | case1 start done =>
      cases read
      exact ⟨[], by simp, rfl⟩
  | case3 start done a rest promise induction =>
      exact step (charOctets_one promise) (induction read)
  | case5 start done a promise b rest second induction =>
      exact step (charOctets_two promise second) (induction read)
  | case9 start done a low high promise b second c rest third induction =>
      simp only [Bool.and_eq_true, decide_eq_true_eq] at second
      exact step (charOctets_three promise second third) (induction read)
  | case15 start done a low high promise b second c third d rest fourth induction =>
      simp only [Bool.and_eq_true, decide_eq_true_eq] at second
      exact step (charOctets_four promise second third fourth) (induction read)
  | _ => cases read

/-! ## Both directions -/

/-- Octets read as a text exactly when they are the octets of that text. -/
theorem decode_eq_ok_iff {input : List UInt8} {text : List Char} :
    decode input = .ok text ↔ input = octets text := by
  constructor
  · intro read
    obtain ⟨tail, same, spelled⟩ := octets_of_decodeFrom read
    rw [spelled, same, List.reverse_nil, List.nil_append]
  · rintro rfl
    exact decodeFrom_octets text 0 []

@[simp] theorem decode_octets (text : List Char) : decode (octets text) = .ok text :=
  decode_eq_ok_iff.2 rfl

/-- Two texts with the same octets are equal. -/
theorem octets_injective : Function.Injective octets := by
  intro first second same
  have read := decode_octets first
  rw [same, decode_octets] at read
  exact (Except.ok.inj read).symm

theorem length_charOctets_pos (c : Char) : 0 < (charOctets c).length := by
  rw [charOctets]
  grind

/-- A text is no longer than its octets. -/
theorem length_le_length_octets (text : List Char) : text.length ≤ (octets text).length := by
  induction text with
  | nil => simp
  | cons c rest induction =>
      have one := length_charOctets_pos c
      simp only [octets, List.flatMap_cons, List.length_append, List.length_cons] at *
      omega

/-! ## The number of octets -/

/-- The number of octets of a text. -/
def width (text : List Char) : Nat := (octets text).length

@[simp] theorem width_nil : width [] = 0 := rfl

@[simp] theorem width_cons (c : Char) (text : List Char) :
    width (c :: text) = (charOctets c).length + width text := by
  simp [width, octets]

@[simp] theorem width_append (text rest : List Char) :
    width (text ++ rest) = width text + width rest := by
  simp [width, octets]

theorem length_charOctets_of_small {c : Char} (small : c.toNat < 0x80) :
    (charOctets c).length = 1 := by
  rw [charOctets, if_pos small]
  rfl

theorem length_charOctets_le (c : Char) : (charOctets c).length ≤ 4 := by
  rw [charOctets]
  grind

/-! ## Characters of one octet -/

/-- Small characters are written as the octets of their numbers. -/
theorem octets_of_small {text : List Char} (small : ∀ c ∈ text, c.toNat < 0x80) :
    octets text = text.map fun c => UInt8.ofNat c.toNat := by
  induction text with
  | nil => rfl
  | cons c text induction =>
      obtain ⟨first, others⟩ := List.forall_mem_cons.1 small
      have behind := induction others
      rw [octets] at behind
      rw [octets, List.flatMap_cons, behind, charOctets, if_pos first]
      rfl

/-- The octets of other characters are past the small ones. -/
theorem large_of_mem_charOctets {c : Char} (large : 0x80 ≤ c.toNat) :
    ∀ octet ∈ charOctets c, 0x80 ≤ octet.toNat := by
  have bound := code_bounds c
  have octet {n : Nat} (above : 0x80 ≤ n) (below : n < 256) : 0x80 ≤ (UInt8.ofNat n).toNat := by
    rw [UInt8.toNat_ofNat']
    omega
  simp only [charOctets, if_neg (Nat.not_lt.2 large)]
  split
  next =>
    simp only [List.forall_mem_cons]
    exact ⟨octet (by omega) (by omega), octet (by omega) (by omega), List.forall_mem_nil _⟩
  next =>
    split
    next =>
      simp only [List.forall_mem_cons]
      exact ⟨octet (by omega) (by omega), octet (by omega) (by omega),
        octet (by omega) (by omega), List.forall_mem_nil _⟩
    next =>
      simp only [List.forall_mem_cons]
      exact ⟨octet (by omega) (by omega), octet (by omega) (by omega),
        octet (by omega) (by omega), octet (by omega) (by omega), List.forall_mem_nil _⟩

end SignedFacts.Utf8
