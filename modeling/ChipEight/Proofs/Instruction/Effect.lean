import ChipEight.Instruction.Decode
import ChipEight.Instruction.Execute

/-!
# Effects of instructions

What a successful instruction can do to a state, one rule for each set of fields that may change.
Every rule other than those of the jumps, of `ret` and of a wait moves the program counter forward
by one or two words. Hence only three instructions can leave a state as it is: a jump to its own
address, directly or by an offset, and a wait for a key while none is down.
-/

namespace ChipEight

private theorem State.advance_pc_ne (s : State) : s.advance.pc ≠ s.pc := by
  intro h
  have hn := congrArg UInt16.toNat h
  have := s.pc.toNat_lt
  simp only [State.advance, UInt16.toNat_add] at hn
  change (s.pc.toNat + 2) % 65536 = s.pc.toNat at hn
  omega

private theorem State.advance_advance_pc_ne (s : State) : s.advance.advance.pc ≠ s.pc := by
  intro h
  have hn := congrArg UInt16.toNat h
  have := s.pc.toNat_lt
  simp only [State.advance, UInt16.toNat_add] at hn
  change ((s.pc.toNat + 2) % 65536 + 2) % 65536 = s.pc.toNat at hn
  omega

namespace Instruction

/-- An address below the size of memory and an offset add up without a carry. -/
theorem toNat_add_offset {address : UInt16} (h : address.toNat < Memory.size) (a : UInt8) :
    (address + a.toUInt16).toNat = address.toNat + a.toNat := by
  have := a.toNat_lt
  rw [UInt16.toNat_add, UInt8.toNat_toUInt16]
  simp only [Memory.size] at h
  omega

/-- The changes that successful instructions make to a state. -/
inductive Effect (s : State) (keys : Keypad) : Instruction → State → Prop where
  /-- The program counter becomes the address. -/
  | jump (address : UInt16) : Effect s keys (.jump address) { s with pc := address }
  /-- The program counter becomes the address plus the offset register. -/
  | jumpOffset (address : UInt16) :
      Effect s keys (.jumpOffset address)
        { s with pc := address + (s.reg .offset).toUInt16 }
  /-- The address of the next word goes on the stack. -/
  | call {stack : CallStack} (address : UInt16) (h : s.stack.push (s.pc + 2) = .ok stack) :
      Effect s keys (.call address) { s with pc := address, stack }
  /-- The newest return address leaves the stack. -/
  | ret {pc : UInt16} {stack : CallStack} (h : s.stack.pop = .ok (pc, stack)) :
      Effect s keys .ret { s with pc, stack }
  /-- Nothing changes. -/
  | wait (x : Register) (h : keys.lowest? = none) : Effect s keys (.awaitKey x) s
  /-- The next word is skipped. -/
  | skip (condition : Condition) (h : condition.holds s keys = true) :
      Effect s keys (.skip condition) s.advance.advance
  /-- Registers change, or nothing but the program counter does. -/
  | registers {ins : Instruction} (v : Vector UInt8 16) : Effect s keys ins { s.advance with v }
  /-- The index changes. -/
  | index {ins : Instruction} (i : UInt16) : Effect s keys ins { s.advance with i }
  /-- The delay timer is set. -/
  | delay (x : Register) : Effect s keys (.setDelay x) { s.advance with delay := s.reg x }
  /-- The sound timer is set. -/
  | sound (x : Register) : Effect s keys (.setSound x) { s.advance with sound := s.reg x }
  /-- Bytes are stored from the index on. -/
  | memory {ins : Instruction} {memory : Memory} (data : List UInt8)
      (h : s.memory.write s.i data = .ok memory) : Effect s keys ins { s.advance with memory }
  /-- The picture goes dark. -/
  | clear : Effect s keys .clear { s.advance with frame := .blank, drawn := true }
  /-- A sprite from memory is drawn and the flag register tells of a collision. -/
  | draw {sprite : List UInt8} (x y : Register) (height : UInt8) (v : Vector UInt8 16)
      (h : s.memory.readShort s.i height = .ok sprite) :
      Effect s keys (.draw x y height)
        { s.advance with
          v
          frame := (s.frame.draw (s.reg y).toNat (s.reg x).toNat sprite).frame
          drawn := true }

/-- A successful instruction has one of the effects. -/
theorem effect_of_execute {ins : Instruction} {s t : State} {keys : Keypad} {noise : UInt8}
    (h : ins.execute s keys noise = .ok t) : Effect s keys ins t := by
  cases ins with
  | native address => cases h; exact .registers s.v
  | data word => cases h; exact .registers s.v
  | clear => cases h; exact .clear
  | ret =>
    obtain ⟨⟨pc, stack⟩, hp, h⟩ := Fault.ok_of_bind_eq_ok h
    cases h
    exact .ret hp
  | jump address => cases h; exact .jump address
  | call address =>
    obtain ⟨stack, hp, h⟩ := Fault.ok_of_bind_eq_ok h
    cases h
    exact .call address hp
  | skip condition =>
    simp only [execute, Except.ok.injEq] at h
    subst h
    split
    · next hc => exact .skip condition hc
    · exact .registers s.v
  | setByte x byte => cases h; exact .registers _
  | addByte x byte => cases h; exact .registers _
  | combine how x y =>
    simp only [execute, Except.ok.injEq] at h
    subst h
    rw [State.setFlag_eq]
    exact .registers _
  | shift direction x => cases h; exact .registers _
  | setIndex address => cases h; exact .index address
  | jumpOffset address => cases h; exact .jumpOffset address
  | random x mask => cases h; exact .registers _
  | draw x y height =>
    obtain ⟨sprite, hr, h⟩ := Fault.ok_of_bind_eq_ok h
    cases h
    exact .draw x y height _ hr
  | getDelay x => cases h; exact .registers _
  | awaitKey x =>
    simp only [execute] at h
    split at h
    · cases h; exact .registers _
    · next hk => cases h; exact .wait x hk
  | setDelay x => cases h; exact .delay x
  | setSound x => cases h; exact .sound x
  | addIndex x => cases h; exact .index _
  | indexDigit x => cases h; exact .index _
  | storeDecimal x =>
    obtain ⟨memory, hw, h⟩ := Fault.ok_of_bind_eq_ok h
    cases h
    exact .memory _ hw
  | storeRegs x =>
    obtain ⟨memory, hw, h⟩ := Fault.ok_of_bind_eq_ok h
    cases h
    exact .memory _ hw
  | loadRegs x =>
    obtain ⟨values, hr, h⟩ := Fault.ok_of_bind_eq_ok h
    cases h
    obtain ⟨v, hv⟩ : ∃ v, s.setRegs values = { s with v } := ⟨_, rfl⟩
    rw [hv]
    exact .registers v

/-- The instructions that leave a state as it is: a jump to its own address, directly or by an
offset, and a wait for a key while none is down. -/
def Stalls (s : State) (keys : Keypad) : Instruction → Prop
  | .jump address => address = s.pc
  | .jumpOffset address => address + (s.reg .offset).toUInt16 = s.pc
  | .awaitKey _ => keys.lowest? = none
  | _ => False

/-- Only a stall leaves both the program counter and the live return addresses as they are. -/
theorem Effect.stalls_of_pc_eq {ins : Instruction} {s t : State} {keys : Keypad}
    (h : Effect s keys ins t) (hp : t.pc = s.pc) (hs : t.stack.toList = s.stack.toList) :
    ins.Stalls s keys := by
  cases h with
  | jump address => exact hp
  | jumpOffset address => exact hp
  | call address hpush =>
    rw [CallStack.toList_of_push hpush] at hs
    simp at hs
  | ret hpop =>
    rw [CallStack.toList_of_pop hpop] at hs
    simp at hs
  | wait x hk => exact hk
  | skip condition hc => exact absurd hp s.advance_advance_pc_ne
  | registers v => exact absurd hp s.advance_pc_ne
  | index i => exact absurd hp s.advance_pc_ne
  | delay x => exact absurd hp s.advance_pc_ne
  | sound x => exact absurd hp s.advance_pc_ne
  | memory data hw => exact absurd hp s.advance_pc_ne
  | clear => exact absurd hp s.advance_pc_ne
  | draw x y height v hr => exact absurd hp s.advance_pc_ne

/-- Only a stall has no effect. -/
theorem Effect.stalls {ins : Instruction} {s t : State} {keys : Keypad}
    (h : Effect s keys ins t) (ht : t = s) : ins.Stalls s keys :=
  h.stalls_of_pc_eq (congrArg State.pc ht) (congrArg (fun s ↦ s.stack.toList) ht)

/-- An instruction succeeds without changing anything exactly when it stalls. -/
theorem execute_eq_self_iff (ins : Instruction) (s : State) (keys : Keypad) (noise : UInt8) :
    ins.execute s keys noise = .ok s ↔ ins.Stalls s keys := by
  constructor
  · intro h
    exact (effect_of_execute h).stalls rfl
  · intro h
    cases ins with
    | jump address =>
      change address = s.pc at h
      subst h
      rfl
    | jumpOffset address =>
      change address + (s.reg .offset).toUInt16 = s.pc at h
      simp only [execute, h]
    | awaitKey x =>
      change keys.lowest? = none at h
      simp only [execute, h]
    | _ => exact h.elim

/-- A successful instruction leaves the state as it is exactly when it stalls. -/
theorem eq_self_iff_stalls {ins : Instruction} {s t : State} {keys : Keypad} {noise : UInt8}
    (h : ins.execute s keys noise = .ok t) : t = s ↔ ins.Stalls s keys := by
  rw [← ins.execute_eq_self_iff s keys noise, h, Except.ok.injEq]

/-- Only the program counter, the registers and the keys have a part in a stall. -/
theorem Stalls.of_eq {ins : Instruction} {s t : State} {keys : Keypad} (h : ins.Stalls s keys)
    (hp : t.pc = s.pc) (hv : t.v = s.v) : ins.Stalls t keys := by
  cases ins with
  | jump address => exact h.trans hp.symm
  | jumpOffset address =>
    change address + t.v[Register.offset].toUInt16 = t.pc
    rw [hv, hp]
    exact h
  | awaitKey x => exact h
  | _ => exact h.elim

/-- Timers have no part in a stall. -/
theorem stalls_tick (ins : Instruction) (s : State) (keys : Keypad) :
    ins.Stalls s.tick keys ↔ ins.Stalls s keys :=
  ⟨fun h ↦ h.of_eq rfl rfl, fun h ↦ h.of_eq rfl rfl⟩

end Instruction

end ChipEight
