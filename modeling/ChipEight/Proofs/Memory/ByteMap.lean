import ChipEight.Calls
import ChipEight.Memory
import Mathlib.Order.Bounds.Defs

/-!
# Memory as a byte map

Memory answers accesses as a map from addresses to bytes does which refuses what ends past address
4095, and the byte that an access finds is the one stored there last, or that of fresh memory. The
map can be asked for any number of bytes. Memory has no answer, not even a refusal, to a read whose
address and length have a sum past the 64-bit numbers; it is then that the two differ, and only
then.
-/

namespace ChipEight.Memory

/-- An access to memory. -/
inductive Access where
  | write (addr : UInt16) (data : List UInt8)
  | read (addr : UInt16) (len : UInt64)
  | readByte (addr : UInt16)
  | readWord (addr : UInt16)
  deriving DecidableEq

/-- What an access gives if it succeeds. -/
inductive Reply where
  | stored
  | bytes (found : List UInt8)
  | byte (found : UInt8)
  | word (value : Nat)
  deriving DecidableEq

/-- The address at which an access starts. -/
def Access.addr : Access → UInt16
  | .write addr _ => addr
  | .read addr _ => addr
  | .readByte addr => addr
  | .readWord addr => addr

/-- The number of bytes of an access. -/
def Access.length : Access → Nat
  | .write _ data => data.length
  | .read _ len => len.toNat
  | .readByte _ => 1
  | .readWord _ => 2

/-- The sum of the address and the length of an access overflows. Only reads of a given length come
to such sums. -/
def Access.Overflows : Access → Prop
  | .read addr len => UInt64.size ≤ addr.toNat + len.toNat
  | _ => False

/-- The addresses of an access that lie outside of memory. -/
def Access.outside (access : Access) : Set Nat :=
  {k | 4096 ≤ k ∧ access.addr.toNat ≤ k ∧ k < access.addr.toNat + access.length}

/-- The byte that an access stores at an address, if it succeeds and stores one there. -/
def Access.stored? (k : Nat) : Access → Option UInt8
  | .write addr data =>
    if addr.toNat + data.length ≤ 4096 ∧ addr.toNat ≤ k then data[k - addr.toNat]? else none
  | _ => none

/-- The answer of memory to an access and memory after it, if there is an answer. -/
def answer? (m : Memory) : Access → Option (Except Fault Reply × Memory)
  | .write addr data => some (orStay m ((m.write addr data).map fun written ↦ (.stored, written)))
  | .read addr len =>
    (m.read addr len).map fun result ↦ orStay m (result.map fun found ↦ (.bytes found, m))
  | .readByte addr => some (orStay m ((m.readByte addr).map fun found ↦ (.byte found, m)))
  | .readWord addr => some (orStay m ((m.readWord addr).map fun found ↦ (.word found.toNat, m)))

/-- A byte for every address, of which those from 4096 on are never reached. -/
abbrev ByteMap := Nat → UInt8

namespace ByteMap

/-- The font at the start, and zeros. -/
def initial : ByteMap := fun k ↦ Font.sheet.getD k 0

/-- The bytes at `len` addresses from `start` on. -/
def window (b : ByteMap) (start len : Nat) : List UInt8 :=
  (List.range len).map fun k ↦ b (start + k)

/-- The map with `data` from `start` on. -/
def store (b : ByteMap) (start : Nat) (data : List UInt8) : ByteMap := fun k ↦
  if start ≤ k then data.getD (k - start) (b k) else b k

/-- The answer of a map to an access that ends within memory, and the map after it. -/
def grant (b : ByteMap) : Access → Reply × ByteMap
  | .write addr data => (.stored, b.store addr.toNat data)
  | .read addr len => (.bytes (b.window addr.toNat len.toNat), b)
  | .readByte addr => (.byte (b addr.toNat), b)
  | .readWord addr => (.word (256 * (b addr.toNat).toNat + (b (addr.toNat + 1)).toNat), b)

/-- The answer of a map to an access, and the map after it. -/
def answer (b : ByteMap) (access : Access) : Except Fault Reply × ByteMap :=
  if access.addr.toNat + access.length ≤ 4096 then
    (.ok (b.grant access).1, (b.grant access).2)
  else (.error (.memoryOutOfBounds (max access.addr.toNat 4096)), b)

/-- After an access the map holds what the access stored, and elsewhere what it held. -/
theorem answer_snd_apply (b : ByteMap) (access : Access) (k : Nat) :
    (b.answer access).2 k = (access.stored? k).getD (b k) := by
  cases access with
  | write addr data =>
    simp only [answer, Access.addr, Access.length, Access.stored?]
    by_cases hfits : addr.toNat + data.length ≤ 4096
    · by_cases hk : addr.toNat ≤ k
      · simp [grant, store, hfits, hk]
      · simp [grant, store, hfits, hk]
    · simp [hfits]
  | read addr len | readByte addr | readWord addr =>
    simp only [answer, grant, Access.stored?, ite_self, Option.getD_none, apply_ite Prod.snd]

/-- After accesses in a row the map holds what was stored last, and elsewhere what it held. -/
theorem answerAll_snd_apply (b : ByteMap) (accesses : List Access) (k : Nat) :
    (answerAll answer b accesses).2 k =
      (accesses.reverse.findSome? (Access.stored? k)).getD (b k) := by
  induction accesses generalizing b with
  | nil => rfl
  | cons access rest ih =>
    rw [answerAll, ih, answer_snd_apply, List.reverse_cons, List.findSome?_append]
    cases rest.reverse.findSome? (Access.stored? k) with
    | some latest => rfl
    | none => simp

end ByteMap

/-! ### One access -/

/-- Memory holds the bytes of a map. -/
def Holds (m : Memory) (b : ByteMap) : Prop := ∀ (k : Nat) (hk : k < size), m.bytes[k] = b k

/-- The bytes of memory, and zeros past its end. -/
def contents (m : Memory) : ByteMap := fun k ↦ m.bytes[k]?.getD 0

private theorem holds_contents (m : Memory) : m.Holds m.contents := by
  intro k hk
  rw [contents, Vector.getElem?_eq_getElem hk, Option.getD_some]

/-- Fresh memory holds the font and zeros. -/
theorem initial_holds : initial.Holds ByteMap.initial := by
  intro k hk
  simp only [initial, getElem_overwrite, ByteMap.initial, Font.start]
  by_cases hf : k < Font.sheet.length
  · simp [hf]
  · simp [hf]

variable {m : Memory} {b : ByteMap} {access : Access}

private theorem Holds.window (h : m.Holds b) {start len : Nat} (hfits : start + len ≤ size) :
    m.window start len hfits = b.window start len := by
  apply List.ext_getElem
  · simp [Memory.window, ByteMap.window]
  · intro k hk _
    rw [Memory.window, List.length_ofFn] at hk
    have hs : start + k < size := by omega
    simp [Memory.window, ByteMap.window, h (start + k) hs]

/-- A read within memory gives the bytes of the map. -/
theorem Holds.read (h : m.Holds b) (addr : UInt16) (len : UInt64)
    (hfits : addr.toNat + len.toNat ≤ size) :
    m.read addr len = some (.ok (b.window addr.toNat len.toNat)) := by
  have hsum : addr.toNat + len.toNat < UInt64.size := Nat.lt_of_le_of_lt hfits (by decide)
  rw [Memory.read, if_neg (Nat.not_le.mpr hsum), dif_pos hfits, h.window hfits]

/-- A byte read within memory is that of the map. -/
theorem Holds.readByte (h : m.Holds b) (addr : UInt16) (hfits : addr.toNat + 1 ≤ size) :
    m.readByte addr = .ok (b addr.toNat) := by
  rw [Memory.readByte, dif_pos hfits, h addr.toNat hfits]

/-- A word read within memory is composed of two bytes of the map. -/
theorem Holds.readWord (h : m.Holds b) (addr : UInt16) (hfits : addr.toNat + 2 ≤ size) :
    m.readWord addr = .ok (.ofBytes (b addr.toNat) (b (addr.toNat + 1))) := by
  rw [Memory.readWord, dif_pos hfits, h addr.toNat (by omega), h (addr.toNat + 1) hfits]

/-- A write within memory stores as the map does. -/
theorem Holds.write (h : m.Holds b) (addr : UInt16) (data : List UInt8)
    (hfits : addr.toNat + data.length ≤ size) :
    ∃ written, m.write addr data = .ok written ∧ written.Holds (b.store addr.toNat data) := by
  rw [Memory.write, if_pos hfits]
  refine ⟨_, rfl, ?_⟩
  intro k hk
  rw [getElem_overwrite, ByteMap.store, List.getD_eq_getElem?_getD]
  by_cases hstart : addr.toNat ≤ k
  · by_cases hend : k < addr.toNat + data.length
    · have hdata : k - addr.toNat < data.length := by omega
      rw [dif_pos ⟨hstart, hend⟩, if_pos hstart, List.getElem?_eq_getElem hdata, Option.getD_some]
    · have hdata : data.length ≤ k - addr.toNat := by omega
      rw [dif_neg (fun hw ↦ hend hw.2), if_pos hstart, List.getElem?_eq_none hdata,
        Option.getD_none, h k hk]
  · rw [dif_neg (fun hw ↦ hstart hw.1), if_neg hstart, h k hk]

/-- Memory has no answer to an access exactly when a sum overflows. -/
theorem answer?_eq_none_iff (m : Memory) (access : Access) :
    m.answer? access = none ↔ access.Overflows := by
  cases access with
  | read addr len =>
    rw [answer?, Option.map_eq_none_iff, ← Option.not_isSome_iff_eq_none, isSome_read_iff,
      Nat.not_lt]
    rfl
  | write addr data | readByte addr | readWord addr => exact ⟨nofun, nofun⟩

private theorem not_overflows_of_answer? {answered : Except Fault Reply × Memory}
    (h : m.answer? access = some answered) : ¬access.Overflows := by
  rw [← m.answer?_eq_none_iff, h]
  exact Option.some_ne_none answered

private theorem Holds.answer_of_le (h : m.Holds b)
    (hfits : access.addr.toNat + access.length ≤ size) :
    ∃ after, m.answer? access = some (.ok (b.grant access).1, after) ∧
      after.Holds (b.grant access).2 := by
  cases access with
  | write addr data =>
    obtain ⟨written, hw, hholds⟩ := h.write addr data hfits
    rw [answer?, hw]
    exact ⟨written, rfl, hholds⟩
  | read addr len =>
    rw [answer?, h.read addr len hfits]
    exact ⟨m, rfl, h⟩
  | readByte addr =>
    rw [answer?, h.readByte addr hfits]
    exact ⟨m, rfl, h⟩
  | readWord addr =>
    rw [answer?, h.readWord addr hfits, ByteMap.grant, ← Word.toNat_ofBytes]
    exact ⟨m, rfl, h⟩

private theorem answer?_of_lt (m : Memory) (hsum : ¬access.Overflows)
    (hpast : size < access.addr.toNat + access.length) :
    m.answer? access = some (.error (outOfBounds access.addr), m) := by
  cases access with
  | write addr data => rw [answer?, (m.write_eq_error_iff addr data _).mpr ⟨hpast, rfl⟩]; rfl
  | read addr len =>
    rw [answer?, m.read_of_lt (Nat.lt_of_not_le hsum) hpast]
    rfl
  | readByte addr => rw [answer?, (m.readByte_eq_error_iff addr _).mpr ⟨hpast, rfl⟩]; rfl
  | readWord addr => rw [answer?, (m.readWord_eq_error_iff addr _).mpr ⟨hpast, rfl⟩]; rfl

variable {after : Memory} {result : Except Fault Reply}

/-- An access that is answered is answered as the map does it. -/
theorem Holds.of_answer? (h : m.Holds b) (hanswer : m.answer? access = some (result, after)) :
    result = (b.answer access).1 ∧ after.Holds (b.answer access).2 := by
  have hsum := not_overflows_of_answer? hanswer
  rw [ByteMap.answer]
  split
  · next hfits =>
    obtain ⟨_, hsome, hholds⟩ := h.answer_of_le hfits
    rw [hanswer] at hsome
    cases hsome
    exact ⟨rfl, hholds⟩
  · next hpast =>
    rw [m.answer?_of_lt hsum (Nat.lt_of_not_le hpast)] at hanswer
    cases hanswer
    exact ⟨rfl, h⟩

/-! ### Success and failure -/

/-- An access succeeds exactly when it ends within memory. -/
theorem exists_answer?_iff (m : Memory) (access : Access) :
    (∃ reply after, m.answer? access = some (.ok reply, after)) ↔
      access.addr.toNat + access.length ≤ 4096 := by
  constructor
  · rintro ⟨reply, after, hok⟩
    apply Nat.le_of_not_lt
    intro hpast
    rw [m.answer?_of_lt (not_overflows_of_answer? hok) hpast] at hok
    cases hok
  · intro hfits
    obtain ⟨after, hok, -⟩ := m.holds_contents.answer_of_le hfits
    exact ⟨_, after, hok⟩

/-- An access that fails ends past the end of memory; it changes nothing, and reports where it
leaves memory. -/
theorem of_answer?_eq_error {fault : Fault} (h : m.answer? access = some (.error fault, after)) :
    4096 < access.addr.toNat + access.length ∧ after = m ∧
      fault = .memoryOutOfBounds (max access.addr.toNat 4096) := by
  have hsum := not_overflows_of_answer? h
  have hpast : 4096 < access.addr.toNat + access.length := by
    apply Nat.lt_of_not_le
    intro hfits
    obtain ⟨_, _, hok⟩ := (m.exists_answer?_iff access).mpr hfits
    rw [h] at hok
    cases hok
  rw [m.answer?_of_lt hsum hpast] at h
  cases h
  exact ⟨hpast, rfl, rfl⟩

/-- After an access memory holds what the access stored, and elsewhere what it held. -/
theorem getElem_of_answer? (h : m.answer? access = some (result, after)) (k : Nat) (hk : k < size) :
    after.bytes[k] = (access.stored? k).getD m.bytes[k] := by
  rw [(m.holds_contents.of_answer? h).2 k hk, ByteMap.answer_snd_apply, m.holds_contents k hk]

private theorem Access.isLeast_outside (access : Access) (hlen : 1 ≤ access.length)
    (hpast : 4096 < access.addr.toNat + access.length) :
    IsLeast access.outside (max access.addr.toNat 4096) := by
  refine ⟨⟨Nat.le_max_right _ _, Nat.le_max_left _ _, ?_⟩, ?_⟩
  · exact Nat.max_lt.mpr ⟨Nat.lt_add_of_pos_right hlen, hpast⟩
  · rintro k ⟨hsize, hstart, -⟩
    exact Nat.max_le.mpr ⟨hstart, hsize⟩

/-! ### Accesses in a row -/

/-- Accesses in a row that are all answered are answered as the map answers them. -/
theorem Holds.of_answerAll? (h : m.Holds b) {accesses : List Access}
    {replies : List (Except Fault Reply)} {reached : Memory}
    (hanswers : answerAll? answer? m accesses = some (replies, reached)) :
    replies = (answerAll ByteMap.answer b accesses).1 ∧
      reached.Holds (answerAll ByteMap.answer b accesses).2 := by
  induction accesses generalizing m b replies with
  | nil =>
    cases hanswers
    exact ⟨rfl, h⟩
  | cons access rest ih =>
    cases hfirst : m.answer? access with
    | none =>
      rw [answerAll?_cons_of_none hfirst] at hanswers
      cases hanswers
    | some answered =>
      rw [answerAll?_cons_of_some hfirst, Option.map_eq_some_iff] at hanswers
      obtain ⟨⟨others, last⟩, hrest, heq⟩ := hanswers
      cases heq
      obtain ⟨hreply, hafter⟩ := h.of_answer? hfirst
      obtain ⟨hreplies, hreached⟩ := ih hafter hrest
      refine ⟨?_, hreached⟩
      rw [answerAll, hreply, hreplies]

/-- Accesses in a row are left without answers exactly when a sum of one of them overflows. -/
theorem answerAll?_eq_none_iff (m : Memory) (accesses : List Access) :
    answerAll? answer? m accesses = none ↔ ∃ access ∈ accesses, access.Overflows := by
  induction accesses generalizing m with
  | nil => exact ⟨nofun, nofun⟩
  | cons access rest ih =>
    simp only [List.mem_cons, exists_eq_or_imp, ← m.answer?_eq_none_iff access]
    cases hfirst : m.answer? access with
    | none => simp only [answerAll?_cons_of_none hfirst, true_or]
    | some answered =>
      rw [answerAll?_cons_of_some hfirst, Option.map_eq_none_iff, ih]
      simp only [reduceCtorEq, false_or]

/-- Memory refines a byte map where no sum overflows. Accesses in a row to fresh memory are answered
as the map answers them, and each byte is then the one stored last, if one was; there are no answers
exactly when the sum of the address and the length of a read is past the 64-bit numbers. An access
succeeds exactly when it ends within memory, and then changes what it stores alone; if it fails it
changes nothing and reports the lowest of its addresses outside. -/
theorem refines_byteMap (accesses : List Access) (m : Memory) (access : Access) :
    ((answerAll? answer? initial accesses = none ↔ ∃ a ∈ accesses, a.Overflows) ∧
      ∀ replies reached, answerAll? answer? initial accesses = some (replies, reached) →
        let map := (answerAll ByteMap.answer ByteMap.initial accesses).2
        replies = (answerAll ByteMap.answer ByteMap.initial accesses).1 ∧
          (∀ (k : Nat) (hk : k < 4096), reached.bytes[k] = map k) ∧
          ∀ k, map k =
            (accesses.reverse.findSome? (Access.stored? k)).getD (ByteMap.initial k)) ∧
    (m.answer? access = none ↔ access.Overflows) ∧
    ((∃ reply after, m.answer? access = some (.ok reply, after)) ↔
      access.addr.toNat + access.length ≤ 4096) ∧
    ∀ result after, m.answer? access = some (result, after) →
      (∀ (k : Nat) (hk : k < 4096), after.bytes[k] = (access.stored? k).getD m.bytes[k]) ∧
      ∀ fault, result = .error fault →
        after = m ∧ fault = .memoryOutOfBounds (max access.addr.toNat 4096) ∧
        (1 ≤ access.length → IsLeast access.outside (max access.addr.toNat 4096)) := by
  refine ⟨⟨initial.answerAll?_eq_none_iff accesses, ?_⟩, m.answer?_eq_none_iff access,
    m.exists_answer?_iff access, ?_⟩
  · intro replies reached hanswers map
    obtain ⟨hreplies, hholds⟩ := initial_holds.of_answerAll? hanswers
    exact ⟨hreplies, hholds, ByteMap.initial.answerAll_snd_apply accesses⟩
  · intro result after hanswer
    refine ⟨getElem_of_answer? hanswer, ?_⟩
    rintro fault rfl
    obtain ⟨hpast, hafter, hfault⟩ := of_answer?_eq_error hanswer
    exact ⟨hafter, hfault, fun hlen ↦ access.isLeast_outside hlen hpast⟩

/-- A read that asks for nearly all of the 64-bit numbers gets no answer, where the map says that
the access leaves memory. -/
theorem unanswered_of_overflow :
    let access := Access.read 2048 0xFFFFFFFFFFFFF800
    answerAll? answer? initial [access] = none ∧
      (answerAll ByteMap.answer ByteMap.initial [access]).1 =
        [.error (.memoryOutOfBounds 4096)] := by
  intro access
  have hpast : ¬access.addr.toNat + access.length ≤ 4096 := by decide
  -- The sum of the address and the length is 2 ^ 64, the first one that overflows.
  refine ⟨rfl, ?_⟩
  rw [answerAll, ByteMap.answer, if_neg hpast]
  rfl

end ChipEight.Memory
