import Mathlib.Control.Monad.Basic
import ChipEight.Proofs.Instruction.Effect
import ChipEight.Proofs.Machine.Halt

/-!
# Nesting of calls and returns

Calls and returns nest like brackets. Only a call makes the stack grow and only a return makes it
shrink, each by the newest address, so as long as the depth stays above what it was before a call,
the addresses from before it and its own return address stay at the bottom of the stack. What brings
the depth back is then a return, and it goes to the instruction after the call.
-/

namespace ChipEight

private theorem Instruction.Effect.stack_cases {ins : Instruction} {s t : State} {keys : Keypad}
    (h : Effect s keys ins t) :
    t.stack.toList = s.stack.toList ++ [s.pc + 2] ∨
      (ins = .ret ∧ s.stack.toList = t.stack.toList ++ [t.pc]) ∨ t.stack = s.stack := by
  cases h with
  | call address hp => exact .inl (CallStack.toList_of_push hp)
  | ret hp => exact .inr (.inl ⟨rfl, CallStack.toList_of_pop hp⟩)
  | _ => exact .inr (.inr rfl)

namespace Machine

/-- The number of live return addresses is more than `depth` at every point of a run, its start and
its end included. -/
def StaysDeeper (m : Machine) (depth : Nat) (commands : List Command) : Prop :=
  ∀ k ≤ commands.length, depth < (m.after (commands.take k)).state.stack.depth

/-- Staying deeper is a comparison of depths after each of finitely many operations. -/
instance (m : Machine) (depth : Nat) (commands : List Command) :
    Decidable (m.StaysDeeper depth commands) :=
  inferInstanceAs (Decidable (∀ k ≤ commands.length, _))

/-- What a transition other than going back or beginning anew can do to the stack: it adds an
address, or it is a return, or the stack stays as it is. -/
theorem Transition.stack_cases {m next : Machine} {e : Exchange} (h : m.Transition e next)
    (hn : e.restarts = false) (hb : e.restores = false) :
    next.state.stack.toList = m.state.stack.toList ++ [m.state.pc + 2] ∨
      (∃ noise, e = ⟨.step noise, .ran .ret⟩ ∧
        m.state.stack.toList = next.state.stack.toList ++ [next.state.pc]) ∨
      next.state.stack = m.state.stack := by
  cases h with
  | restart memory hr =>
    rw [hn] at hr
    cases hr
  | run hf hc he =>
    rw [state_advanceTo]
    rcases (Instruction.effect_of_execute he).stack_cases with hs | ⟨rfl, hs⟩ | hs
    · exact .inl hs
    · exact .inr (.inl ⟨_, rfl, hs⟩)
    · exact .inr (.inr hs)
  | restore hh => cases hb
  | _ => exact .inr (.inr rfl)

/-- Addresses at the bottom of the stack stay there while the depth is not less than their
number. -/
theorem Transition.keeps_live {m next : Machine} {e : Exchange} {live : List UInt16}
    (h : m.Transition e next) (hn : e.restarts = false) (hb : e.restores = false)
    (hl : live <+: m.state.stack.toList) (hd : live.length ≤ next.state.stack.depth) :
    live <+: next.state.stack.toList := by
  rcases h.stack_cases hn hb with hs | ⟨noise, -, hs⟩ | hs
  · rw [hs]
    exact hl.trans (List.prefix_append ..)
  · rw [hs] at hl
    rw [← CallStack.length_toList] at hd
    exact List.prefix_of_prefix_length_le hl (List.prefix_append ..) hd
  · rw [hs]
    exact hl

private theorem Transition.ret_of_depth_le {m next : Machine} {e : Exchange} {older : List UInt16}
    {address : UInt16} (h : m.Transition e next) (hn : e.restarts = false)
    (hb : e.restores = false) (hl : older ++ [address] <+: m.state.stack.toList)
    (hd : next.state.stack.depth ≤ older.length) :
    (∃ noise, e = ⟨.step noise, .ran .ret⟩) ∧
      next.state.pc = address ∧ next.state.stack.toList = older := by
  have hlen := hl.length_le
  rw [List.length_append, List.length_singleton] at hlen
  rw [← CallStack.length_toList] at hd
  rcases h.stack_cases hn hb with hs | ⟨noise, he, hs⟩ | hs
  · -- One address more would be too many.
    rw [hs, List.length_append] at hd
    omega
  · -- One address less is no fewer than `older`, so both lists end at the same place.
    have hsame : (older ++ [address]).length = m.state.stack.toList.length := by
      rw [hs] at hlen ⊢
      simp only [List.length_append, List.length_singleton] at hlen ⊢
      omega
    have heq : older ++ [address] = next.state.stack.toList ++ [next.state.pc] :=
      (hl.eq_of_length hsame).trans hs
    obtain ⟨ho, ha⟩ := List.append_inj' heq rfl
    exact ⟨⟨noise, he⟩, (List.singleton_inj.mp ha).symm, ho.symm⟩
  · rw [hs] at hd
    omega

/-- Addresses at the bottom of the stack stay there as long as the depth stays not less than their
number. -/
theorem keeps_live_after {m : Machine} {live : List UInt16} {depth : Nat}
    {commands : List Command} (hl : live <+: m.state.stack.toList) (hlen : live.length = depth + 1)
    (hc : ∀ c ∈ commands, c.isForward = true) (hd : m.StaysDeeper depth commands) :
    live <+: (m.after commands).state.stack.toList := by
  induction commands generalizing m with
  | nil => exact hl
  | cons c rest ih =>
    obtain ⟨hfirst, hrest⟩ := List.forall_mem_cons.mp hc
    obtain ⟨hn, hb⟩ := m.exchange_of_isForward hfirst
    have hone : depth < (m.perform c).2.state.stack.depth := hd 1 (by simp)
    apply ih ((m.transition_perform c).keeps_live hn hb hl (by omega)) hrest
    intro k hk
    exact hd (k + 1) (Nat.succ_le_succ hk)

private theorem step_of_call {m : Machine} {address : UInt16} (hf : m.fault = none)
    (hc : m.currentInstruction = .ok (.call address)) (hd : m.state.stack.depth < 16)
    (noise : UInt8) :
    (m.step noise).1 = .ok (.call address) ∧
      (m.step noise).2.state.stack.toList = m.state.stack.toList ++ [m.state.pc + 2] := by
  rcases m.step_cases noise with
    ⟨fault, hh, -⟩ | ⟨fault, -, ha, -⟩ | ⟨ins, next, -, hi, he, hs⟩
  · rw [hf] at hh
    cases hh
  · rw [attempt_eq_error_iff, fault?_of_currentInstruction hc] at ha
    obtain ⟨hfull, -⟩ := Option.ite_none_right_eq_some.mp ha
    exact absurd hfull (Nat.ne_of_lt hd)
  · rw [hc] at hi
    cases hi
    obtain ⟨stack, hp, h⟩ := Fault.ok_of_bind_eq_ok he
    cases h
    rw [hs, state_advanceTo]
    exact ⟨rfl, CallStack.toList_of_push hp⟩

/-- Calls and returns nest like brackets. When a machine calls a subroutine and then goes forward
with the depth above what it was, the addresses from before the call and then that of the word after
it are the oldest live ones. The operation that first brings the depth back is a return; it goes to
the word after the call and leaves the stack of before the call. -/
theorem call_nests (m : Machine) (noise : UInt8) {address : UInt16} {commands : List Command}
    (hf : m.fault = none) (hc : m.currentInstruction = .ok (.call address))
    (hd : m.state.stack.depth < 16) (hforward : ∀ c ∈ commands, c.isForward = true)
    (hdeep : (m.step noise).2.StaysDeeper m.state.stack.depth commands) :
    let inside := (m.step noise).2.after commands
    (m.step noise).1 = .ok (.call address) ∧
      inside.state.stack.toList.take (m.state.stack.depth + 1) =
        m.state.stack.toList ++ [m.state.pc + 2] ∧
      ∀ c, c.isForward = true →
        let outside := (inside.perform c).2
        outside.state.stack.depth ≤ m.state.stack.depth →
          (∃ byte, inside.exchange c = ⟨.step byte, .ran .ret⟩) ∧
            outside.state.pc = m.state.pc + 2 ∧
            outside.state.stack.toList = m.state.stack.toList := by
  intro inside
  obtain ⟨hran, hcalled⟩ := step_of_call hf hc hd noise
  have hlen : (m.state.stack.toList ++ [m.state.pc + 2]).length = m.state.stack.depth + 1 := by
    rw [List.length_append, CallStack.length_toList, List.length_singleton]
  have hlive : m.state.stack.toList ++ [m.state.pc + 2] <+: inside.state.stack.toList :=
    keeps_live_after (hcalled ▸ List.prefix_refl _) hlen hforward hdeep
  refine ⟨hran, ?_, ?_⟩
  · rw [← hlen]
    exact (List.prefix_iff_eq_take.mp hlive).symm
  · intro c hone outside hback
    obtain ⟨hn, hb⟩ := inside.exchange_of_isForward hone
    rw [← m.state.stack.length_toList] at hback
    exact (inside.transition_perform c).ret_of_depth_le hn hb hlive hback

/-- A subroutine that calls another one and returns after it leads back to the word after its own
call. -/
theorem call_nests_of_inner_call :
    let m := powerUp.after
      [.load [0x22, 0x06, 0x00, 0xE0, 0x00, 0x00, 0x22, 0x0A, 0x00, 0xEE, 0x00, 0xEE]]
    let commands := [.tick, .step 0, .press 3, .step 0, .takeFrame]
    let outside := (((m.step 0).2.after commands).perform (.step 0)).2
    m.fault = none ∧ m.currentInstruction = .ok (.call 0x206) ∧ m.state.stack.depth < 16 ∧
      (∀ c ∈ commands, c.isForward = true) ∧
      (m.step 0).2.StaysDeeper m.state.stack.depth commands ∧
      outside.state.stack.depth ≤ m.state.stack.depth ∧
      outside.state.pc = m.state.pc + 2 ∧
      outside.state.stack.toList = m.state.stack.toList := by
  intro m commands outside
  have h : m.fault = none ∧ m.currentInstruction = .ok (.call 0x206) ∧
      m.state.stack.depth < 16 ∧ (∀ c ∈ commands, c.isForward = true) ∧
      (m.step 0).2.StaysDeeper m.state.stack.depth commands ∧
      outside.state.stack.depth ≤ m.state.stack.depth := by
    decide +kernel +zetaReduce
  obtain ⟨hf, hc, hd, hforward, hdeep, hback⟩ := h
  obtain ⟨-, -, hout⟩ := call_nests m 0 hf hc hd hforward hdeep
  obtain ⟨-, hpc, hstack⟩ := hout (.step 0) rfl hback
  exact ⟨hf, hc, hd, hforward, hdeep, hback, hpc, hstack⟩

end Machine

end ChipEight
