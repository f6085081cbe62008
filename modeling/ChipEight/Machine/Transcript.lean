import ChipEight.Machine.Command

/-!
# Transcripts

What a host saw of a machine: the operations it asked for, in turn, each with its answer. Statements
about whole runs that speak of what happened in them, and not only of the operations, are statements
about transcripts.
-/

namespace ChipEight

/-- Whether an answer tells that an operation could not be carried out or had nothing to give. -/
def Answer.refuses : Answer → Bool
  | .failed _ => true
  | .frame taken => taken.isNone
  | .rewound restored => !restored
  | _ => false

/-- An operation and its answer. -/
structure Exchange where
  command : Command
  answer : Answer
  deriving DecidableEq

/-- Whether an operation began anew: a power-up, or a load that was carried out. -/
def Exchange.restarts (e : Exchange) : Bool :=
  match e.command, e.answer with
  | .powerUp, _ => true
  | .load _, .done => true
  | _, _ => false

/-- Whether an operation brought an earlier state back. -/
def Exchange.restores (e : Exchange) : Bool :=
  match e.command, e.answer with
  | .rewind, .rewound restored => restored
  | _, _ => false

/-- The instruction that ran in an exchange, if one did. -/
def Exchange.ran? (e : Exchange) : Option Instruction :=
  match e.answer with
  | .ran ins => some ins
  | _ => none

/-- An instruction that ran, and the state in which it did. -/
structure Execution where
  ins : Instruction
  state : State
  deriving DecidableEq

/-- What is refused runs no instruction. -/
theorem Exchange.ran?_of_refuses {e : Exchange} (h : e.answer.refuses = true) : e.ran? = none := by
  unfold ran?
  split
  · next ins ha =>
    rw [ha] at h
    cases h
  · rfl

namespace Machine

/-- An operation with the answer that the machine gives to it. -/
def exchange (m : Machine) (c : Command) : Exchange := ⟨c, (m.perform c).1⟩

/-- The exchanges of operations carried out one after the other. -/
def transcript (m : Machine) : List Command → List Exchange
  | [] => []
  | c :: rest => m.exchange c :: (m.perform c).2.transcript rest

/-- The instructions that run in the course of operations, each with the state in which it does. -/
def executions (m : Machine) : List Command → List Execution
  | [] => []
  | c :: rest =>
    ((m.exchange c).ran?.map (⟨·, m.state⟩)).toList ++ (m.perform c).2.executions rest

/-- The instruction that runs in a step is the one that the step answers. -/
theorem ran?_exchange_step (m : Machine) (noise : UInt8) :
    (m.exchange (.step noise)).ran? = (m.step noise).1.toOption := by
  rw [exchange, Exchange.ran?, answer_step]
  cases (m.step noise).1 <;> rfl

/-- What holds of all executions holds of the first, if an instruction ran in it, and of the
others. -/
theorem forall_mem_executions_cons {m : Machine} {c : Command} {rest : List Command}
    {P : Execution → Prop} :
    (∀ x ∈ m.executions (c :: rest), P x) ↔
      (∀ ins, (m.exchange c).ran? = some ins → P ⟨ins, m.state⟩) ∧
        ∀ x ∈ (m.perform c).2.executions rest, P x := by
  rw [executions, List.forall_mem_append]
  apply and_congr_left'
  cases (m.exchange c).ran? with
  | none => simp
  | some ins => simp

/-- The operation of an exchange is the one asked for. -/
theorem command_exchange (m : Machine) (c : Command) : (m.exchange c).command = c := rfl

/-- Operations that go forward neither begin anew nor bring an earlier state back. -/
theorem exchange_of_isForward (m : Machine) {c : Command} (h : c.isForward = true) :
    (m.exchange c).restarts = false ∧ (m.exchange c).restores = false := by
  cases c with
  | powerUp => cases h
  | load rom => cases h
  | rewind => cases h
  | _ => exact ⟨rfl, rfl⟩

/-- A transcript in two parts. -/
theorem transcript_append (m : Machine) (a b : List Command) :
    m.transcript (a ++ b) = m.transcript a ++ (m.after a).transcript b := by
  induction a generalizing m with
  | nil => rfl
  | cons c rest ih => exact congrArg (m.exchange c :: ·) (ih (m.perform c).2)

/-- The executions of operations carried out in two parts. -/
theorem executions_append (m : Machine) (a b : List Command) :
    m.executions (a ++ b) = m.executions a ++ (m.after a).executions b := by
  induction a generalizing m with
  | nil => rfl
  | cons c rest ih =>
    rw [List.cons_append, executions, executions, ih, List.append_assoc, after_cons]

/-- Operations to which a view of machines is blind leave no trace in it. If all others act alike on
machines that look the same, as far as what they do is allowed, then leaving those operations out
changes neither the other exchanges nor how the machine looks in the end. -/
theorem transcript_filter {α : Type} (view : Machine → α) (blind : Command → Bool)
    (allowed : Exchange → Prop)
    (hblind : ∀ m c, blind c = true → view (m.perform c).2 = view m)
    (hsame : ∀ m n c, blind c = false → allowed (m.exchange c) → view m = view n →
      m.exchange c = n.exchange c ∧ view (m.perform c).2 = view (n.perform c).2)
    {commands : List Command} {m n : Machine} (hview : view m = view n)
    (hallowed : ∀ e ∈ m.transcript commands, allowed e) :
    (m.transcript commands).filter (fun e ↦ !blind e.command) =
        n.transcript (commands.filter fun c ↦ !blind c) ∧
      view (m.after commands) = view (n.after (commands.filter fun c ↦ !blind c)) := by
  induction commands generalizing m n with
  | nil => exact ⟨rfl, hview⟩
  | cons c rest ih =>
    obtain ⟨hfirst, hrest⟩ := List.forall_mem_cons.mp hallowed
    cases hb : blind c with
    | true =>
      simp only [transcript, List.filter_cons, command_exchange, hb, Bool.not_true,
        Bool.false_eq_true, if_false]
      exact ih ((hblind m c hb).trans hview) hrest
    | false =>
      obtain ⟨he, hnext⟩ := hsame m n c hb hfirst hview
      obtain ⟨htail, hend⟩ := ih hnext hrest
      simp only [transcript, List.filter_cons, he, command_exchange, hb, Bool.not_false, if_true,
        htail]
      exact ⟨trivial, hend⟩

/-- One more operation adds one exchange. -/
theorem transcript_concat (m : Machine) (commands : List Command) (c : Command) :
    m.transcript (commands ++ [c]) = m.transcript commands ++ [(m.after commands).exchange c] :=
  m.transcript_append commands [c]

/-- The machine after one more operation. -/
theorem after_concat (m : Machine) (commands : List Command) (c : Command) :
    m.after (commands ++ [c]) = ((m.after commands).perform c).2 :=
  m.after_append commands [c]

end Machine

end ChipEight
