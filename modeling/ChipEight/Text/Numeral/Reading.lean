import ChipEight.Text.Numeral

/-!
# Reading numerals

Numerals read back: the number that digits stand for, and the bytes that pairs of hexadecimal digits
stand for. Digits past nine are read as capital letters only. A number is read back from its
numeral, padded or not, and so are bytes from their pairs of digits.
-/

namespace ChipEight.Numeral

/-- The value of a digit. -/
def digitValue? (c : Char) : Option Nat :=
  if '0' ≤ c ∧ c ≤ '9' then some (c.toNat - '0'.toNat)
  else if 'A' ≤ c ∧ c ≤ 'F' then some (c.toNat - 'A'.toNat + 10)
  else none

/-- The number whose numeral continues with some digits, if what comes before them stands for
`n`. -/
def continue? (base n : Nat) (digits : List Char) : Option Nat :=
  digits.foldlM (fun n c ↦ (digitValue? c).map (base * n + ·)) n

/-- The number that digits stand for. -/
def value? (base : Nat) (digits : List Char) : Option Nat := continue? base 0 digits

/-- The number that a text shows: the one that its digits stand for, whatever stands between
them. -/
def shown? (base : Nat) (text : String) : Option Nat :=
  value? base (text.toList.filter fun c ↦ (digitValue? c).isSome)

/-- Two hexadecimal digits for each byte. -/
def hexPairs (bytes : List UInt8) : List Char := bytes.flatMap fun b ↦ padded 2 16 b.toNat

/-- The bytes that pairs of hexadecimal digits stand for. -/
def ofHexPairs? : List Char → Option (List UInt8)
  | [] => some []
  | [_] => none
  | high :: low :: rest => do
    let h ← digitValue? high
    let l ← digitValue? low
    return UInt8.ofNat (16 * h + l) :: (← ofHexPairs? rest)

/-- A digit of a base up to sixteen has its value. -/
theorem digitValue?_digitChar {d : Nat} (h : d < 16) : digitValue? (digitChar d) = some d := by
  have hall : ∀ d : Fin 16, digitValue? (digitChar d) = some d.val := by decide
  exact hall ⟨d, h⟩

variable {base : Nat}

private theorem isSome_digitValue?_of_mem_digits (hb : 1 < base) (hs : base ≤ 16) {n : Nat}
    {c : Char} (h : c ∈ digits base n) : (digitValue? c).isSome = true := by
  induction n using Nat.strongRecOn with
  | ind n ih =>
    by_cases hn : n < base
    · rw [digits_of_lt hn, List.mem_singleton] at h
      rw [h, digitValue?_digitChar (by omega)]
      rfl
    · rw [digits_of_le hb (Nat.not_lt.mp hn), List.mem_append, List.mem_singleton] at h
      rcases h with h | rfl
      · exact ih (n / base) (Nat.div_lt_self (by omega) hb) h
      · have := Nat.mod_lt n (show 0 < base by omega)
        rw [digitValue?_digitChar (by omega)]
        rfl

private theorem isSome_digitValue?_of_mem_padded (hb : 1 < base) (hs : base ≤ 16) {width n : Nat}
    {c : Char} (h : c ∈ padded width base n) : (digitValue? c).isSome = true := by
  rw [padded, List.mem_append] at h
  rcases h with h | h
  · rw [List.eq_of_mem_replicate h]
    rfl
  · exact isSome_digitValue?_of_mem_digits hb hs h

private theorem notMem_digits (hb : 1 < base) (hs : base ≤ 16) {c : Char}
    (hc : digitValue? c = none) (n : Nat) : c ∉ digits base n := by
  intro h
  have := isSome_digitValue?_of_mem_digits hb hs h
  rw [hc] at this
  cases this

/-- There are only digits in padded numerals. -/
theorem notMem_padded (hb : 1 < base) (hs : base ≤ 16) {c : Char} (hc : digitValue? c = none)
    (width n : Nat) : c ∉ padded width base n := by
  intro h
  have := isSome_digitValue?_of_mem_padded hb hs h
  rw [hc] at this
  cases this

/-- There are only digits in decimal numerals. -/
theorem notMem_decimal {c : Char} (hc : digitValue? c = none) (n : Nat) :
    c ∉ (decimal n).toList := by
  rw [decimal, String.toList_ofList]
  exact notMem_digits (by decide) (by decide) hc n

/-- There are only digits in hexadecimal numerals, and the letter of the mark `0x`. -/
theorem notMem_hexMarked {c : Char} (hc : digitValue? c = none) (hx : c ≠ 'x') (width n : Nat) :
    c ∉ (hexMarked width n).toList := by
  have hzero : c ≠ '0' := by
    rintro rfl
    cases hc
  have hn : c ∉ padded width 16 n := notMem_padded (by decide) (by decide) hc width n
  simp [hexMarked, hex, hzero, hx, hn]

/-- A number is read back from its numeral. -/
theorem value?_digits (hb : 1 < base) (hs : base ≤ 16) (n : Nat) :
    value? base (digits base n) = some n := by
  induction n using Nat.strongRecOn with
  | ind n ih =>
    by_cases hn : n < base
    · rw [digits_of_lt hn]
      simp [value?, continue?, digitValue?_digitChar (show n < 16 by omega)]
    · have hm := Nat.mod_lt n (show 0 < base by omega)
      have hi := ih (n / base) (Nat.div_lt_self (by omega) hb)
      unfold value? continue? at hi ⊢
      rw [digits_of_le hb (Nat.not_lt.mp hn), List.foldlM_append, hi]
      simp [digitValue?_digitChar (show n % base < 16 by omega), Nat.div_add_mod]

private theorem value?_replicate_append (zeros : Nat) (digits : List Char) :
    value? base (List.replicate zeros '0' ++ digits) = value? base digits := by
  induction zeros with
  | zero => rfl
  | succ k ih => exact ih

/-- A number is read back from its padded numeral. -/
theorem value?_padded (hb : 1 < base) (hs : base ≤ 16) (width n : Nat) :
    value? base (padded width base n) = some n := by
  rw [padded, value?_replicate_append, value?_digits hb hs]

private theorem shown?_append (hb : 1 < base) (hs : base ≤ 16) {mark : String} (zeros : Nat)
    (h : (mark.toList.filter fun c ↦ (digitValue? c).isSome) = List.replicate zeros '0')
    (width n : Nat) : shown? base (mark ++ .ofList (padded width base n)) = some n := by
  have hdigits : ((padded width base n).filter fun c ↦ (digitValue? c).isSome) =
      padded width base n :=
    List.filter_eq_self.mpr fun _ ↦ isSome_digitValue?_of_mem_padded hb hs
  rw [shown?, String.toList_append, String.toList_ofList, List.filter_append, h, hdigits,
    value?_replicate_append, value?_padded hb hs]

/-- A number behind the mark `0x` is shown. -/
theorem shown?_hexMarked (width n : Nat) : shown? 16 (hexMarked width n) = some n := by
  rw [hexMarked, hex]
  exact shown?_append (by decide) (by decide) 1 (by decide) width n

/-- A decimal numeral behind a text without digits is shown. -/
theorem shown?_append_decimal (mark : String)
    (h : (mark.toList.filter fun c ↦ (digitValue? c).isSome) = []) (n : Nat) :
    shown? 10 (mark ++ decimal n) = some n := by
  rw [decimal, ← padded_zero]
  exact shown?_append (by decide) (by decide) 0 h 0 n

/-- A decimal numeral is shown. -/
theorem shown?_decimal (n : Nat) : shown? 10 (decimal n) = some n := by
  have h := shown?_append_decimal "" rfl n
  rwa [String.empty_append] at h

/-- The last of two or more places holds the remainder, also where there are leading zeros. -/
theorem padded_add_two (hb : 1 < base) (width n : Nat) :
    padded (width + 2) base n = padded (width + 1) base (n / base) ++ [digitChar (n % base)] := by
  by_cases hn : n < base
  · rw [padded, padded, digits_of_lt hn, Nat.div_eq_of_lt hn, digits_of_lt (by omega),
      Nat.mod_eq_of_lt hn]
    change List.replicate (width + 1) '0' ++ _ = List.replicate width '0' ++ ['0'] ++ _
    rw [List.replicate_succ']
  · rw [padded, padded, digits_of_le hb (Nat.not_lt.mp hn), List.append_assoc, List.length_append,
      List.length_singleton, Nat.add_sub_add_right (width + 1) 1]

/-- A byte has two hexadecimal digits. -/
theorem padded_two_toNat (b : UInt8) :
    padded 2 16 b.toNat = [digitChar (b.toNat / 16), digitChar (b.toNat % 16)] := by
  have hb := b.toNat_lt
  rw [padded_add_two (by decide), padded, digits_of_lt (by omega)]
  rfl

/-- Bytes are read back from their pairs of digits. -/
theorem ofHexPairs?_hexPairs (bytes : List UInt8) : ofHexPairs? (hexPairs bytes) = some bytes := by
  induction bytes with
  | nil => rfl
  | cons b rest ih =>
    have hb := b.toNat_lt
    have hhigh := digitValue?_digitChar (show b.toNat / 16 < 16 by omega)
    have hlow := digitValue?_digitChar (show b.toNat % 16 < 16 by omega)
    have hbyte : UInt8.ofNat (16 * (b.toNat / 16) + b.toNat % 16) = b := by
      rw [Nat.div_add_mod, UInt8.ofNat_toNat]
    unfold hexPairs at ih ⊢
    rw [List.flatMap_cons, padded_two_toNat]
    change ofHexPairs? (_ :: _ :: List.flatMap _ rest) = _
    rw [ofHexPairs?, hhigh, hlow, ih]
    exact congrArg (fun byte ↦ some (byte :: rest)) hbyte

end ChipEight.Numeral
