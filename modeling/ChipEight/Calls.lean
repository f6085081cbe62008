import ChipEight.Fault

/-!
# Calls in a row

An object answers calls one after the other, each of which leaves it in its next state, or as it was
if the call fails. Where a call can be left without an answer, it leaves the whole row without.
Objects whose states are related in such a way that every call gets the same answer from both, and
leaves them related again, cannot be told apart by calls in a row.
-/

namespace ChipEight

variable {σ τ κ α : Type} {f : σ → κ → Option (α × σ)} {s : σ} {call : κ}

/-- The answer to a call and the state after it, which is the present state `s` if the call
fails. -/
def orStay (s : σ) : Except Fault (α × σ) → Except Fault α × σ
  | .ok (answer, next) => (.ok answer, next)
  | .error fault => (.error fault, s)

/-- The answers to calls one after the other, and the state after them. -/
def answerAll (answer : σ → κ → α × σ) : σ → List κ → List α × σ
  | s, [] => ([], s)
  | s, call :: rest =>
    let first := answer s call
    let others := answerAll answer first.2 rest
    (first.1 :: others.1, others.2)

/-- The answers to calls one after the other and the state after them, if every call has an
answer. -/
def answerAll? (answer? : σ → κ → Option (α × σ)) : σ → List κ → Option (List α × σ)
  | s, [] => some ([], s)
  | s, call :: rest => do
    let first ← answer? s call
    let others ← answerAll? answer? first.2 rest
    return (first.1 :: others.1, others.2)

/-- A call that fails leaves the state as it is. -/
theorem orStay_of_error {s : σ} {result : Except Fault (α × σ)} {fault : Fault}
    (h : (orStay s result).1 = .error fault) : (orStay s result).2 = s := by
  cases result with
  | ok answered => cases h
  | error raised => rfl

/-- If every call gets the same answer on both sides and keeps the two states related, then so do
calls in a row. -/
theorem answerAll_agree {f : σ → κ → α × σ} {g : τ → κ → α × τ} {R : σ → τ → Prop}
    (h : ∀ s t call, R s t → (f s call).1 = (g t call).1 ∧ R (f s call).2 (g t call).2)
    {s : σ} {t : τ} (hr : R s t) (calls : List κ) :
    (answerAll f s calls).1 = (answerAll g t calls).1 ∧
      R (answerAll f s calls).2 (answerAll g t calls).2 := by
  induction calls generalizing s t with
  | nil => exact ⟨rfl, hr⟩
  | cons call rest ih =>
    obtain ⟨hanswer, hnext⟩ := h s t call hr
    obtain ⟨hanswers, hend⟩ := ih hnext
    simp only [answerAll, hanswer, hanswers]
    exact ⟨trivial, hend⟩

/-- A call without an answer ends the calls in a row. -/
theorem answerAll?_cons_of_none (h : f s call = none) (rest : List κ) :
    answerAll? f s (call :: rest) = none := by
  rw [answerAll?, h]
  rfl

/-- After a call with an answer the others follow. -/
theorem answerAll?_cons_of_some {answered : α × σ} (h : f s call = some answered)
    (rest : List κ) :
    answerAll? f s (call :: rest) =
      (answerAll? f answered.2 rest).map fun others ↦ (answered.1 :: others.1, others.2) := by
  rw [answerAll?, h]
  change (answerAll? f answered.2 rest).bind _ = _
  cases answerAll? f answered.2 rest with
  | none => rfl
  | some others => rfl

end ChipEight
