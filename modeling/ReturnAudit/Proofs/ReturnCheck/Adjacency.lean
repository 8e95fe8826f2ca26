import ReturnAudit.ReturnCheck.Visit

/-!
# The automaton reports adjacent pairs

The state after an instruction depends on that instruction alone, so an ignored result is exactly a
call of a known method with an instruction right after it that drops the result. The automaton is
also indifferent to what stands for the called methods: renaming them commutes with reading.
-/

namespace ReturnAudit.ReturnCheck

variable {ρ σ : Type}

/-- An opcode that drops a result calls nothing. -/
theorem isInvoke_eq_false_of_isDiscard {op : Opcode} (h : op.isDiscard = true) :
    op.isInvoke = false := by
  simp only [Opcode.isDiscard, Bool.or_eq_true, decide_eq_true_eq] at h
  rcases h with rfl | rfl <;> decide

/-- What is remembered of an instruction, whatever was remembered before it. -/
def State.after (step : Step ρ) : State ρ :=
  if step.opcode.isInvoke && step.call.isSome then .sawInvoke step.call step.pc else .scan

/-- What an instruction drops of what is remembered. -/
def State.dropped (s : State ρ) (step : Step ρ) : Option (Discard ρ) :=
  match s with
  | .sawInvoke call callPc =>
    if step.opcode.isDiscard then some ⟨call, callPc, step.pc⟩ else none
  | .scan => none

/-- The next state forgets everything but the last instruction. -/
theorem transition_eq (s : State ρ) (step : Step ρ) :
    transition s step = (State.after step, s.dropped step) := by
  cases s with
  | scan =>
    simp only [transition, State.after, State.dropped]
    split <;> rfl
  | sawInvoke call callPc =>
    simp only [transition, State.after, State.dropped]
    by_cases hd : step.opcode.isDiscard = true
    · simp [hd, isInvoke_eq_false_of_isDiscard hd]
    · simp only [hd, Bool.false_eq_true, ite_false]
      split <;> rfl

/-- The ignored result in two consecutive instructions. -/
def adjacentDiscard (call drop : Step ρ) : Option (Discard ρ) :=
  (State.after call).dropped drop

/-- The ignored results are those of the first instruction against the state before it and of every
pair of consecutive instructions. -/
theorem discards_cons (s : State ρ) (step : Step ρ) (steps : List (Step ρ)) :
    discards s (step :: steps) = (s.dropped step).toList ++
      ((step :: steps).zip steps).filterMap fun p => adjacentDiscard p.1 p.2 := by
  induction steps generalizing s step with
  | nil =>
    simp only [discards, trace, transition_eq, List.zip_nil_right, List.filterMap_nil,
      List.append_nil]
    cases s.dropped step <;> rfl
  | cons next steps ih =>
    have hrest := ih (State.after step) next
    simp only [discards] at hrest ⊢
    rw [trace, transition_eq, List.filterMap_cons, hrest, List.zip_cons_cons, List.filterMap_cons]
    simp only [adjacentDiscard]
    cases s.dropped step <;> cases (State.after step).dropped next <;> rfl

/-- From the initial state the ignored results are those of the consecutive pairs. -/
theorem discards_scan (steps : List (Step ρ)) :
    discards .scan steps =
      (steps.zip steps.tail).filterMap fun p => adjacentDiscard p.1 p.2 := by
  cases steps with
  | nil => rfl
  | cons step steps => exact discards_cons .scan step steps

/-- An ignored result is a call of a known method and a dropping instruction right after it. -/
theorem adjacentDiscard_eq (call drop : Step ρ) :
    adjacentDiscard call drop =
      if call.opcode.isInvoke && call.call.isSome && drop.opcode.isDiscard then
        some ⟨call.call, call.pc, drop.pc⟩
      else none := by
  simp only [adjacentDiscard, State.after]
  by_cases hc : (call.opcode.isInvoke && call.call.isSome) = true
  · simp only [hc, ite_true, State.dropped, Bool.true_and]
  · simp [hc, State.dropped]

/-- A step with other names for the called methods. -/
def Step.map (f : ρ → σ) (step : Step ρ) : Step σ :=
  ⟨step.opcode, step.pc, step.call.map f⟩

/-- An ignored result with another name for the called method. -/
def Discard.map (f : ρ → σ) (d : Discard ρ) : Discard σ :=
  ⟨d.call.map f, d.callPc, d.pc⟩

/-- A state with another name for the called method. -/
def State.map (f : ρ → σ) : State ρ → State σ
  | .scan => .scan
  | .sawInvoke call pc => .sawInvoke (call.map f) pc

@[simp] theorem State.after_map (f : ρ → σ) (step : Step ρ) :
    State.after (step.map f) = (State.after step).map f := by
  simp only [State.after, Step.map, Option.isSome_map]
  split <;> rfl

@[simp] theorem State.dropped_map (f : ρ → σ) (s : State ρ) (step : Step ρ) :
    (s.map f).dropped (step.map f) = (s.dropped step).map (Discard.map f) := by
  cases s with
  | scan => rfl
  | sawInvoke call pc =>
    simp only [State.map, State.dropped, Step.map]
    by_cases hd : step.opcode.isDiscard = true <;> simp [hd, Discard.map]

end ReturnAudit.ReturnCheck
