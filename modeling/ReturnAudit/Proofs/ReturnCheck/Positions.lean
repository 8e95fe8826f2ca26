import ReturnAudit.Proofs.ReturnCheck.Exactness

/-!
# Where a stream ignores results

The automaton is told by positions here. It drops a result at a position exactly when the
instruction there drops one and the instruction right before it calls a known method; before the
first instruction stands whatever the automaton starts from. What it drops is a sublist of what is
called and, in the same order, a sublist of what is dropped, so no call is paired twice and no drop
is.
-/

namespace ReturnAudit.ReturnCheck

variable {ρ : Type}

/-- Whether an instruction calls a known method. -/
def Step.calls (step : Step ρ) : Bool :=
  step.opcode ∈ callOpcodes && step.call.isSome

/-- Whether an instruction drops a result. -/
def Step.drops (step : Step ρ) : Bool :=
  step.opcode ∈ dropOpcodes

/-- Whether the result of a call is ignored at a position of a stream that is read from a state. -/
inductive IgnoredAt (s : State ρ) (steps : List (Step ρ)) : Nat → Discard ρ → Prop
  /-- The first instruction drops the result of the call that the stream starts from. -/
  | first {call : Option ρ} {callPc : Int} {drop : Step ρ} :
      s = .sawInvoke call callPc → steps[0]? = some drop → drop.drops = true →
      IgnoredAt s steps 0 ⟨call, callPc, drop.pc⟩
  /-- An instruction drops the result of the call right before it. -/
  | next {i : Nat} {call drop : Step ρ} :
      steps[i]? = some call → call.calls = true → steps[i + 1]? = some drop → drop.drops = true →
      IgnoredAt s steps (i + 1) ⟨call.call, call.pc, drop.pc⟩

/-- The call whose result may be dropped next, if there is one, with its position. -/
def State.pending : State ρ → List (Option ρ × Int)
  | .scan => []
  | .sawInvoke call pc => [(call, pc)]

/-- After an instruction the automaton remembers a call of a known method and nothing else. -/
theorem State.after_eq (step : Step ρ) :
    State.after step = if step.calls then .sawInvoke step.call step.pc else .scan := by
  have hop : decide (step.opcode ∈ callOpcodes) = step.opcode.isInvoke := by
    rw [Bool.eq_iff_iff, decide_eq_true_eq, mem_callOpcodes]
  rw [State.after, Step.calls, hop]

/-- A result is dropped exactly when a call is remembered and the instruction drops one. -/
theorem State.dropped_eq_some_iff {s : State ρ} {step : Step ρ} {d : Discard ρ} :
    s.dropped step = some d ↔ ∃ call callPc, s = .sawInvoke call callPc ∧ step.drops = true ∧
      d = ⟨call, callPc, step.pc⟩ := by
  have hop : step.drops = step.opcode.isDiscard := by
    rw [Bool.eq_iff_iff, Step.drops, decide_eq_true_eq, mem_dropOpcodes]
  cases s with
  | scan =>
    refine iff_of_false (fun h => by cases h) ?_
    rintro ⟨call, callPc, hstate, -⟩
    cases hstate
  | sawInvoke call callPc =>
    rw [State.dropped, hop]
    split
    · next hdrops =>
      rw [Option.some_inj, eq_comm]
      constructor
      · exact fun h => ⟨call, callPc, rfl, hdrops, h⟩
      · rintro ⟨_, _, hstate, -, hd⟩
        cases hstate
        exact hd
    · next hdrops =>
      refine iff_of_false (fun h => by cases h) ?_
      rintro ⟨_, _, -, hd, -⟩
      exact hdrops hd

private theorem exists_getElem?_of_succ {steps : List (Step ρ)} {i : Nat} {step : Step ρ}
    (h : steps[i + 1]? = some step) : ∃ prev, steps[i]? = some prev := by
  have hlt := (List.getElem?_eq_some_iff.mp h).1
  exact ⟨steps[i], List.getElem?_eq_getElem (by omega)⟩

/-- What is remembered before the instruction at a position. -/
def State.before (s : State ρ) (steps : List (Step ρ)) : Nat → State ρ
  | 0 => s
  | i + 1 => (steps[i]?.map State.after).getD s

/-- Each instruction drops from what is remembered before it and is itself remembered. -/
theorem getElem?_trace (s : State ρ) (steps : List (Step ρ)) (i : Nat) :
    (trace s steps)[i]? =
      steps[i]?.map fun step => (State.after step, (s.before steps i).dropped step) := by
  induction steps generalizing s i with
  | nil => rfl
  | cons step steps ih =>
    rw [trace, transition_eq]
    cases i with
    | zero => rfl
    | succ i =>
      rw [List.getElem?_cons_succ, List.getElem?_cons_succ, ih]
      cases i with
      | zero => rfl
      | succ i =>
        cases hget : steps[i + 1]? with
        | none => rfl
        | some last =>
          obtain ⟨prev, hprev⟩ := exists_getElem?_of_succ hget
          simp only [State.before, List.getElem?_cons_succ, hprev, Option.map_some,
            Option.getD_some]

/-- A trace drops a result at a position exactly when it is ignored there. -/
theorem trace_drops_iff {s : State ρ} {steps : List (Step ρ)} {i : Nat} {d : Discard ρ} :
    (trace s steps)[i]?.bind Prod.snd = some d ↔ IgnoredAt s steps i d := by
  rw [getElem?_trace, Option.bind_map, Option.bind_eq_some_iff]
  simp only [Function.comp_apply, State.dropped_eq_some_iff]
  constructor
  · rintro ⟨drop, hdrop, call, callPc, hstate, hdrops, rfl⟩
    cases i with
    | zero => exact .first hstate hdrop hdrops
    | succ i =>
      obtain ⟨prev, hprev⟩ := exists_getElem?_of_succ hdrop
      rw [State.before, hprev, Option.map_some, Option.getD_some, State.after_eq] at hstate
      split at hstate
      · next hcalls =>
        cases hstate
        exact .next hprev hcalls hdrop hdrops
      · cases hstate
  · rintro (⟨hstate, hdrop, hdrops⟩ | @⟨i, prev, drop, hprev, hcalls, hdrop, hdrops⟩)
    · exact ⟨_, hdrop, _, _, hstate, hdrops, rfl⟩
    · refine ⟨drop, hdrop, _, _, ?_, hdrops, rfl⟩
      rw [State.before, hprev, Option.map_some, Option.getD_some, State.after_eq, if_pos hcalls]

/-- A trace has one entry for each instruction. -/
theorem length_trace (s : State ρ) (steps : List (Step ρ)) :
    (trace s steps).length = steps.length := by
  induction steps generalizing s with
  | nil => rfl
  | cons step steps ih => rw [trace, List.length_cons, List.length_cons, ih]

/-- The last state is told by the last instruction. -/
theorem getLast?_trace (s : State ρ) (steps : List (Step ρ)) :
    (trace s steps).getLast?.map Prod.fst = steps.getLast?.map State.after := by
  rw [List.getLast?_eq_getElem?, List.getLast?_eq_getElem?, length_trace, getElem?_trace,
    Option.map_map]
  rfl

/-- What the first instruction drops comes before what is dropped later. -/
theorem discards_cons_eq (s : State ρ) (step : Step ρ) (steps : List (Step ρ)) :
    discards s (step :: steps) =
      (s.dropped step).toList ++ discards (State.after step) steps := by
  rw [discards, trace, transition_eq, List.filterMap_cons, discards]
  cases s.dropped step <;> rfl

/-- A call of the stream that is still pending is the last instruction. -/
theorem State.pending_after (step : Step ρ) :
    (State.after step).pending = if step.calls then [(step.call, step.pc)] else [] := by
  rw [State.after_eq]
  split <;> rfl

/-- What is dropped was pending. -/
theorem State.sublist_pending (s : State ρ) (step : Step ρ) :
    ((s.dropped step).toList.map fun d => (d.call, d.callPc)).Sublist s.pending := by
  cases hdropped : s.dropped step with
  | none => exact List.nil_sublist _
  | some d =>
    obtain ⟨call, callPc, rfl, -, rfl⟩ := State.dropped_eq_some_iff.mp hdropped
    exact List.Sublist.refl _

/-- The calls whose results are ignored are among the calls, each of them once. -/
theorem sublist_calls (s : State ρ) (steps : List (Step ρ)) :
    ((discards s steps).map fun d => (d.call, d.callPc)).Sublist
      (s.pending ++ (steps.filter Step.calls).map fun step => (step.call, step.pc)) := by
  induction steps generalizing s with
  | nil => exact List.nil_sublist _
  | cons step steps ih =>
    have hrest : s.pending ++ ((step :: steps).filter Step.calls).map
        (fun step => (step.call, step.pc)) =
        s.pending ++ ((State.after step).pending ++
          (steps.filter Step.calls).map fun step => (step.call, step.pc)) := by
      rw [List.filter_cons, State.pending_after]
      split <;> rfl
    rw [discards_cons_eq, List.map_append, hrest]
    exact (s.sublist_pending step).append (ih (State.after step))

/-- The instructions that drop the ignored results are among those that drop one, each of them
once. -/
theorem sublist_drops (s : State ρ) (steps : List (Step ρ)) :
    ((discards s steps).map Discard.pc).Sublist ((steps.filter Step.drops).map Step.pc) := by
  induction steps generalizing s with
  | nil => exact List.nil_sublist _
  | cons step steps ih =>
    rw [discards_cons_eq, List.map_append, List.filter_cons]
    cases hdropped : s.dropped step with
    | none =>
      refine (ih (State.after step)).trans ?_
      split
      · exact List.sublist_cons_self _ _
      · exact List.Sublist.refl _
    | some d =>
      obtain ⟨call, callPc, -, hdrops, rfl⟩ := State.dropped_eq_some_iff.mp hdropped
      rw [if_pos hdrops]
      exact (ih (State.after step)).cons_cons step.pc

/-- From any state, a stream ignores a result at a position exactly where a call of a known method,
or the one that the state remembers, is followed by an instruction that drops a result. The state
after a stream is told by its last instruction alone. No call is ignored twice, and no instruction
drops two results. -/
theorem trace_is_adjacency (s : State ρ) (steps : List (Step ρ)) :
    (trace s steps).length = steps.length ∧
    (∀ i d, (trace s steps)[i]?.bind Prod.snd = some d ↔ IgnoredAt s steps i d) ∧
    (trace s steps).getLast?.map Prod.fst = steps.getLast?.map (fun last =>
      if last.opcode ∈ callOpcodes ∧ last.call.isSome then .sawInvoke last.call last.pc
      else .scan) ∧
    ((discards s steps).map fun d => (d.call, d.callPc)).Sublist
      (s.pending ++ (steps.filter Step.calls).map fun step => (step.call, step.pc)) ∧
    ((discards s steps).map Discard.pc).Sublist ((steps.filter Step.drops).map Step.pc) := by
  refine ⟨length_trace s steps, fun i d => trace_drops_iff, ?_, sublist_calls s steps,
    sublist_drops s steps⟩
  have hafter : State.after = fun last : Step ρ =>
      if last.opcode ∈ callOpcodes ∧ last.call.isSome then .sawInvoke last.call last.pc
      else .scan := by
    funext last
    simp only [State.after_eq, Step.calls, Bool.and_eq_true, decide_eq_true_eq]
  rw [getLast?_trace, hafter]

end ReturnAudit.ReturnCheck
