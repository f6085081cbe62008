import ChipEight.Fault
import ChipEight.Font
import ChipEight.Word

/-!
# Memory

The 4096 bytes that programs can address. An access of `len` bytes at an address succeeds exactly
when it ends within memory, and addresses never wrap; a refused access reports the first address of
it that lies outside, and changes nothing. Fresh memory holds the font at its start and zeros
elsewhere.

The length of a read is a 64-bit number. A read has no outcome at all, not even a fault, when the
sum of its address and its length overflows. Instructions read a few bytes at a time and never come
near that.
-/

namespace ChipEight

namespace Memory

/-- The number of bytes of memory. -/
abbrev size : Nat := 4096

/-- The address at which a program is placed and its execution begins. -/
abbrev programStart : Nat := 0x200

/-- The length of the longest program that fits between its start and the end of memory. -/
abbrev romCapacity : Nat := size - programStart

end Memory

/-- The contents of memory. -/
structure Memory where
  bytes : Vector UInt8 Memory.size
  deriving DecidableEq

namespace Memory

/-- The fault of an access that starts at `addr` and leaves memory. -/
def outOfBounds (addr : UInt16) : Fault := .memoryOutOfBounds (max addr.toNat size)

/-- Write `data` over consecutive cells from index `start` on, as far as there are cells. -/
def overwrite : Vector UInt8 size → Nat → List UInt8 → Vector UInt8 size
  | cells, _, [] => cells
  | cells, start, b :: rest => overwrite (cells.setIfInBounds start b) (start + 1) rest

/-- Fresh memory: the font and zeros. -/
def initial : Memory := ⟨overwrite (.replicate size 0) Font.start Font.sheet⟩

/-- The contents of `len` cells from index `start` on. -/
def window (m : Memory) (start len : Nat) (h : start + len ≤ size) : List UInt8 :=
  List.ofFn fun k : Fin len ↦ m.bytes[start + k.val]

/-- The `len` bytes from `addr` on, unless the sum of both overflows. -/
def read (m : Memory) (addr : UInt16) (len : UInt64) : Option (Except Fault (List UInt8)) :=
  if UInt64.size ≤ addr.toNat + len.toNat then none
  else if h : addr.toNat + len.toNat ≤ size then some (.ok (m.window addr.toNat len.toNat h))
  else some (.error (outOfBounds addr))

/-- A read has an outcome exactly when the sum of its address and its length does not overflow. -/
theorem isSome_read_iff (m : Memory) (addr : UInt16) (len : UInt64) :
    (m.read addr len).isSome ↔ addr.toNat + len.toNat < UInt64.size := by
  unfold read
  split
  · next hover => simp [Nat.not_lt.mpr hover]
  · next hsum => split <;> simp [Nat.lt_of_not_le hsum]

/-- A read that ends past the end of memory is refused, unless the sum overflows. -/
theorem read_of_lt (m : Memory) {addr : UInt16} {len : UInt64}
    (hsum : addr.toNat + len.toNat < UInt64.size) (hpast : size < addr.toNat + len.toNat) :
    m.read addr len = some (.error (outOfBounds addr)) := by
  rw [read, if_neg (Nat.not_le.mpr hsum), dif_neg (Nat.not_le.mpr hpast)]

/-- Reads whose length is a byte have an outcome. -/
theorem isSome_read_toUInt64 (m : Memory) (addr : UInt16) (len : UInt8) :
    (m.read addr len.toUInt64).isSome := by
  have ha : addr.toNat < 2 ^ 16 := addr.toNat_lt
  have hl : len.toNat < 2 ^ 8 := len.toNat_lt
  rw [isSome_read_iff, UInt8.toNat_toUInt64]
  change addr.toNat + len.toNat < 2 ^ 64
  omega

/-- The `len` bytes from `addr` on, which are too few for an overflow. -/
def readShort (m : Memory) (addr : UInt16) (len : UInt8) : Except Fault (List UInt8) :=
  (m.read addr len.toUInt64).get (m.isSome_read_toUInt64 addr len)

/-- The byte at `addr`. -/
def readByte (m : Memory) (addr : UInt16) : Except Fault UInt8 :=
  if _h : addr.toNat + 1 ≤ size then .ok m.bytes[addr.toNat]
  else .error (outOfBounds addr)

/-- The word at `addr`, stored high byte first. -/
def readWord (m : Memory) (addr : UInt16) : Except Fault Word :=
  if _h : addr.toNat + 2 ≤ size then
    .ok (.ofBytes m.bytes[addr.toNat] m.bytes[addr.toNat + 1])
  else .error (outOfBounds addr)

/-- Whether a bit of the byte at an address is set, the least significant one being bit 0. Outside
of memory no bit is. -/
def bit (m : Memory) (addr k : Nat) : Bool := (m.bytes[addr]?).any fun byte ↦ byte.toNat.testBit k

/-- Memory with `data` stored from `addr` on. -/
def write (m : Memory) (addr : UInt16) (data : List UInt8) : Except Fault Memory :=
  if addr.toNat + data.length ≤ size then .ok ⟨overwrite m.bytes addr.toNat data⟩
  else .error (outOfBounds addr)

/-- Overwriting stores the data in its window and keeps every other cell. -/
theorem getElem_overwrite (cells : Vector UInt8 size) (start : Nat) (data : List UInt8) (k : Nat)
    (hk : k < size) :
    (overwrite cells start data)[k] =
      if h : start ≤ k ∧ k < start + data.length then data[k - start] else cells[k] := by
  induction data generalizing cells start with
  | nil =>
    rw [overwrite, dif_neg (by simp only [List.length_nil]; omega)]
  | cons b rest ih =>
    rw [overwrite, ih, Vector.getElem_setIfInBounds]
    by_cases hs : start = k
    · subst hs
      rw [dif_neg (by omega), dif_pos (by simp)]
      simp
    · by_cases hw : start ≤ k ∧ k < start + (b :: rest).length
      · have hr : start + 1 ≤ k ∧ k < start + 1 + rest.length := by
          simp only [List.length_cons] at hw; omega
        have he : k - start = (k - (start + 1)) + 1 := by omega
        simp only [dif_pos hw, dif_pos hr, he, List.getElem_cons_succ]
      · have hr : ¬(start + 1 ≤ k ∧ k < start + 1 + rest.length) := by
          simp only [List.length_cons] at hw; omega
        simp only [dif_neg hw, dif_neg hr, if_neg hs]

/-- A write keeps every byte outside of its window. -/
theorem getElem?_of_write {m written : Memory} {addr : UInt16} {data : List UInt8}
    (h : m.write addr data = .ok written) {k : Nat}
    (hk : ¬(addr.toNat ≤ k ∧ k < addr.toNat + data.length)) :
    written.bytes[k]? = m.bytes[k]? := by
  unfold write at h
  split at h
  · cases h
    by_cases hs : k < size
    · rw [Vector.getElem?_eq_getElem hs, Vector.getElem?_eq_getElem hs, getElem_overwrite,
        dif_neg hk]
    · rw [Vector.getElem?_eq_none (Nat.not_lt.mp hs), Vector.getElem?_eq_none (Nat.not_lt.mp hs)]
  · cases h

/-- The outcome of a read whose length is a byte. -/
theorem read_toUInt64 (m : Memory) (addr : UInt16) (len : UInt8) :
    m.read addr len.toUInt64 = some (m.readShort addr len) := (Option.some_get _).symm

/-- A short read gives the bytes of its window if that ends within memory. -/
theorem readShort_eq (m : Memory) (addr : UInt16) (len : UInt8) :
    m.readShort addr len =
      if h : addr.toNat + len.toNat ≤ size then .ok (m.window addr.toNat len.toNat h)
      else .error (outOfBounds addr) := by
  have hsum := (m.isSome_read_iff addr _).mp (m.isSome_read_toUInt64 addr len)
  apply Option.some.inj
  rw [← read_toUInt64, read, if_neg (Nat.not_le.mpr hsum)]
  simp only [UInt8.toNat_toUInt64]
  split <;> rfl

/-- A short read that succeeds ends within memory. -/
theorem add_le_of_readShort {m : Memory} {addr : UInt16} {len : UInt8} {bytes : List UInt8}
    (h : m.readShort addr len = .ok bytes) : addr.toNat + len.toNat ≤ size := by
  rw [readShort_eq] at h
  split at h
  · next hfits => exact hfits
  · cases h

/-- A short read gives as many bytes as were asked for. -/
theorem length_of_readShort {m : Memory} {addr : UInt16} {len : UInt8} {bytes : List UInt8}
    (h : m.readShort addr len = .ok bytes) : bytes.length = len.toNat := by
  rw [readShort_eq] at h
  split at h
  · cases h
    exact List.length_ofFn
  · cases h

/-- A byte of memory that is not zero is one with a bit set. -/
theorem exists_bit_iff (m : Memory) (addr : Nat) :
    (∃ j < 8, m.bit addr (7 - j) = true) ↔ ∃ byte, m.bytes[addr]? = some byte ∧ byte ≠ 0 := by
  unfold bit
  cases m.bytes[addr]? with
  | none => simp
  | some byte =>
    simp only [Option.any_some, Option.some.injEq, exists_eq_left']
    constructor
    · rintro ⟨j, -, hj⟩ rfl
      exact absurd hj (by simp)
    · intro hb
      have hne : byte.toNat ≠ 0 := fun h ↦ hb (UInt8.toNat_inj.mp h)
      obtain ⟨k, hk⟩ := Nat.exists_testBit_of_ne_zero hne
      have hlt : k < 8 := by
        apply Nat.lt_of_not_le
        intro hge
        have hsmall : byte.toNat < 2 ^ k :=
          Nat.lt_of_lt_of_le byte.toNat_lt (Nat.pow_le_pow_right (by decide) hge)
        rw [Nat.testBit_lt_two_pow hsmall] at hk
        cases hk
      refine ⟨7 - k, by omega, ?_⟩
      rw [show 7 - (7 - k) = k by omega]
      exact hk

/-- A short read that ends within memory succeeds. -/
theorem exists_readShort (m : Memory) {addr : UInt16} {len : UInt8}
    (h : addr.toNat + len.toNat ≤ size) : ∃ bytes, m.readShort addr len = .ok bytes := by
  rw [readShort_eq, dif_pos h]
  exact ⟨_, rfl⟩

/-- A short read gives the bytes of its window. -/
theorem getElem?_of_readShort {m : Memory} {addr : UInt16} {len : UInt8} {bytes : List UInt8}
    (h : m.readShort addr len = .ok bytes) {k : Nat} (hk : k < len.toNat) :
    bytes[k]? = m.bytes[addr.toNat + k]? := by
  rw [readShort_eq] at h
  split at h
  · next hfits =>
    cases h
    have hs : addr.toNat + k < size := by omega
    rw [window, List.getElem?_ofFn, dif_pos hk, Vector.getElem?_eq_getElem hs]
  · cases h

/-- The word at an address is composed of the bytes there. -/
theorem readWord_of_getElem? {m : Memory} {addr : UInt16} {high low : UInt8}
    (hh : m.bytes[addr.toNat]? = some high) (hl : m.bytes[addr.toNat + 1]? = some low) :
    m.readWord addr = .ok (.ofBytes high low) := by
  obtain ⟨_, rfl⟩ := Vector.getElem?_eq_some_iff.mp hh
  obtain ⟨hs, rfl⟩ := Vector.getElem?_eq_some_iff.mp hl
  rw [readWord, dif_pos (by omega)]

/-- A short read finds the bytes that memory holds in its window. -/
theorem readShort_of_getElem? {m : Memory} {addr : UInt16} {len : UInt8} {bytes : List UInt8}
    (hlen : bytes.length = len.toNat) (hfits : addr.toNat + bytes.length ≤ size)
    (h : ∀ k < bytes.length, m.bytes[addr.toNat + k]? = bytes[k]?) :
    m.readShort addr len = .ok bytes := by
  rw [hlen] at hfits h
  obtain ⟨found, hr⟩ := m.exists_readShort hfits
  have hl := length_of_readShort hr
  have heq : found = bytes := by
    apply List.ext_getElem? fun k ↦ ?_
    by_cases hk : k < len.toNat
    · rw [getElem?_of_readShort hr hk, h k hk]
    · rw [List.getElem?_eq_none (by omega), List.getElem?_eq_none (by omega)]
  rw [hr, heq]

/-- A write that ends within memory succeeds. -/
theorem exists_write (m : Memory) {addr : UInt16} {data : List UInt8}
    (h : addr.toNat + data.length ≤ size) : ∃ written, m.write addr data = .ok written := by
  rw [write, if_pos h]
  exact ⟨_, rfl⟩

/-- A write that succeeds ends within memory. -/
theorem add_length_le_of_write {m written : Memory} {addr : UInt16} {data : List UInt8}
    (h : m.write addr data = .ok written) : addr.toNat + data.length ≤ size := by
  unfold write at h
  split at h
  · next hfits => exact hfits
  · cases h

/-- A write stores its data in its window. -/
theorem getElem?_window_of_write {m written : Memory} {addr : UInt16} {data : List UInt8}
    (h : m.write addr data = .ok written) {k : Nat} (hk : k < data.length) :
    written.bytes[addr.toNat + k]? = data[k]? := by
  have hfits := add_length_le_of_write h
  have hs : addr.toNat + k < size := by omega
  rw [write, if_pos hfits] at h
  cases h
  rw [Vector.getElem?_eq_getElem hs, getElem_overwrite, dif_pos (by omega)]
  simp [hk]

/-- What was written is read back. -/
theorem readShort_of_write {m written : Memory} {addr : UInt16} {len : UInt8} {data : List UInt8}
    (h : m.write addr data = .ok written) (hlen : data.length = len.toNat) :
    written.readShort addr len = .ok data :=
  readShort_of_getElem? hlen (add_length_le_of_write h) fun _ hk ↦ getElem?_window_of_write h hk

/-- Writing what was read changes nothing. -/
theorem write_of_readShort {m : Memory} {addr : UInt16} {len : UInt8} {bytes : List UInt8}
    (h : m.readShort addr len = .ok bytes) : m.write addr bytes = .ok m := by
  have hlen := length_of_readShort h
  have hkept : overwrite m.bytes addr.toNat bytes = m.bytes := by
    apply Vector.ext
    intro k hk
    rw [getElem_overwrite]
    split
    · next hw =>
      have hj : k - addr.toNat < bytes.length := by omega
      have hb := getElem?_of_readShort h (hlen ▸ hj)
      rw [Nat.add_sub_cancel' hw.1, List.getElem?_eq_getElem hj,
        Vector.getElem?_eq_getElem hk] at hb
      exact Option.some.inj hb
    · rfl
  rw [write, if_pos (hlen ▸ add_le_of_readShort h), hkept]

/-- A word that can be read ends within memory. -/
theorem add_two_le_of_readWord {m : Memory} {addr : UInt16} {w : Word}
    (h : m.readWord addr = .ok w) : addr.toNat + 2 ≤ size := by
  unfold readWord at h
  split at h
  · next hl => exact hl
  · cases h

/-- Reading a word fails exactly when the word ends past the end of memory. -/
theorem readWord_eq_error_iff (m : Memory) (addr : UInt16) (f : Fault) :
    m.readWord addr = .error f ↔ size < addr.toNat + 2 ∧ f = outOfBounds addr := by
  rw [readWord, Fault.dite_eq_error_iff, Nat.not_le]

/-- Reading a byte fails exactly when its address lies past the end of memory. -/
theorem readByte_eq_error_iff (m : Memory) (addr : UInt16) (f : Fault) :
    m.readByte addr = .error f ↔ size < addr.toNat + 1 ∧ f = outOfBounds addr := by
  rw [readByte, Fault.dite_eq_error_iff, Nat.not_le]

/-- A short read fails exactly when it ends past the end of memory. -/
theorem readShort_eq_error_iff (m : Memory) (addr : UInt16) (len : UInt8) (f : Fault) :
    m.readShort addr len = .error f ↔
      size < addr.toNat + len.toNat ∧ f = outOfBounds addr := by
  rw [readShort_eq, Fault.dite_eq_error_iff, Nat.not_le]

/-- A write fails exactly when it ends past the end of memory. -/
theorem write_eq_error_iff (m : Memory) (addr : UInt16) (data : List UInt8) (f : Fault) :
    m.write addr data = .error f ↔ size < addr.toNat + data.length ∧ f = outOfBounds addr := by
  rw [write, ← dite_eq_ite, Fault.dite_eq_error_iff, Nat.not_le]

end Memory

end ChipEight
