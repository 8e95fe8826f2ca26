import Mathlib.Data.List.Forall2

/-!
# Steps that change a state

Rules for running steps one after another, when the outcome of the first is known, and for taking a
run apart that is known to have succeeded.
-/

namespace ReturnAudit

variable {σ ε α β : Type}

/-- What holds between two choices that are made alike, if it holds between what they choose. -/
theorem rel_ite {R : α → β → Prop} {c : Prop} [Decidable c] {x x' : α} {y y' : β}
    (h : c → R x y) (h' : ¬ c → R x' y') : R (if c then x else x') (if c then y else y') := by
  by_cases hc : c
  · simpa only [if_pos hc] using h hc
  · simpa only [if_neg hc] using h' hc

/-- A step after a step with a known outcome. -/
theorem run_bind {x : StateM σ α} {f : α → StateM σ β} {s s' : σ} {a : α}
    (h : x s = (a, s')) : (x >>= f) s = f a s' := by
  simp only [bind, StateT.bind, h]

/-- A list of steps of which the first has a known outcome. -/
theorem run_mapM_cons {f : β → StateM σ α} {b : β} {l : List β} {s s' s'' : σ}
    {a : α} {as : List α} (h : f b s = (a, s')) (hl : l.mapM f s' = (as, s'')) :
    (b :: l).mapM f s = (a :: as, s'') := by
  rw [List.mapM_cons, run_bind h, run_bind hl]
  rfl

/-- A step after a step that may fail: both succeeded. -/
theorem of_run_bind {x : StateT σ (Except ε) α} {f : α → StateT σ (Except ε) β} {s s' : σ} {b : β}
    (h : (x >>= f) s = .ok (b, s')) : ∃ a t, x s = .ok (a, t) ∧ f a t = .ok (b, s') := by
  simp only [bind, StateT.bind, Except.bind] at h
  cases hx : x s with
  | error e => simp [hx] at h
  | ok r =>
    obtain ⟨a, t⟩ := r
    exact ⟨a, t, rfl, by simpa only [hx] using h⟩

/-- A step that succeeds after another one that succeeds. -/
theorem run_bind_of_ok {x : StateT σ (Except ε) α} {f : α → StateT σ (Except ε) β} {s t : σ} {a : α}
    {out : Except ε (β × σ)} (h : x s = .ok (a, t)) (hf : f a t = out) : (x >>= f) s = out := by
  simp only [bind, StateT.bind, Except.bind, h]
  exact hf

/-- The outcome of a step that only gives a value. -/
theorem of_run_pure {a b : α} {s s' : σ}
    (h : (pure a : StateT σ (Except ε) α) s = .ok (b, s')) : b = a ∧ s' = s := by
  cases h
  exact ⟨rfl, rfl⟩

/-- The outcome of a step that does not look at the state. -/
theorem of_run_lift {x : Except ε α} {a : α} {s s' : σ}
    (h : (liftM x : StateT σ (Except ε) α) s = .ok (a, s')) : x = .ok a ∧ s' = s := by
  cases x with
  | error e => cases h
  | ok b =>
    cases h
    exact ⟨rfl, rfl⟩

/-- A step that may fail after another one: both succeeded. -/
theorem of_bind {x : Except ε α} {f : α → Except ε β} {b : β} (h : (x >>= f) = .ok b) :
    ∃ a, x = .ok a ∧ f a = .ok b := by
  cases x with
  | error e => cases h
  | ok a => exact ⟨a, rfl, h⟩

/-- A step after one that succeeded. -/
theorem bind_of_ok {x : Except ε α} {f : α → Except ε β} {a : α} (h : x = .ok a) :
    (x >>= f) = f a := by
  rw [h]
  rfl

/-- A step whose value is taken further. -/
theorem of_map {x : Except ε α} {f : α → β} {b : β} (h : x.map f = .ok b) :
    ∃ a, x = .ok a ∧ f a = b := by
  cases x with
  | error e => cases h
  | ok a => exact ⟨a, rfl, Except.ok.inj h⟩

/-- A list of steps that may fail succeeds exactly when each step does. -/
theorem mapM_eq_ok_iff {f : α → Except ε β} {l : List α} {bs : List β} :
    l.mapM f = .ok bs ↔ List.Forall₂ (fun a b => f a = .ok b) l bs := by
  induction l generalizing bs with
  | nil =>
    rw [List.mapM_nil, List.forall₂_nil_left_iff]
    exact ⟨fun h => (Except.ok.inj h).symm, fun h => h ▸ rfl⟩
  | cons a l ih =>
    rw [List.mapM_cons, List.forall₂_cons_left_iff]
    constructor
    · intro h
      obtain ⟨b, hb, h⟩ := of_bind h
      obtain ⟨bs', hbs', h⟩ := of_bind h
      exact ⟨b, bs', hb, ih.mp hbs', (Except.ok.inj h).symm⟩
    · rintro ⟨b, bs', hb, hbs', rfl⟩
      rw [bind_of_ok hb, bind_of_ok (ih.mpr hbs')]
      rfl

/-- A list of steps that may fail has an outcome exactly when each step has one. -/
theorem exists_mapM_eq_ok_iff {f : α → Except ε β} {l : List α} :
    (∃ bs, l.mapM f = .ok bs) ↔ ∀ a ∈ l, ∃ b, f a = .ok b := by
  simp only [mapM_eq_ok_iff]
  induction l with
  | nil => simp
  | cons a l ih =>
    rw [List.forall_mem_cons, ← ih]
    constructor
    · rintro ⟨_, hab⟩
      cases hab with
      | cons hb hbs => exact ⟨⟨_, hb⟩, _, hbs⟩
    · rintro ⟨⟨b, hb⟩, bs, hbs⟩
      exact ⟨b :: bs, .cons hb hbs⟩

/-- What a list of steps gives is what one of the steps gives. -/
theorem mem_iff_of_mapM {f : α → Except ε β} {l : List α} {bs : List β} (h : l.mapM f = .ok bs)
    {b : β} : b ∈ bs ↔ ∃ a ∈ l, f a = .ok b := by
  rw [mapM_eq_ok_iff] at h
  induction h with
  | nil => simp
  | cons hb _ ih => simp [ih, hb, eq_comm]

/-- What is collected from the values of a list of steps may be collected from the list. -/
theorem flatMap_of_mapM {γ : Type} {f : α → Except ε β} {l : List α} {bs : List β} {g : β → List γ}
    {k : α → List γ} (h : l.mapM f = .ok bs) (hgk : ∀ a b, f a = .ok b → g b = k a) :
    bs.flatMap g = l.flatMap k := by
  rw [mapM_eq_ok_iff] at h
  induction h with
  | nil => rfl
  | cons hb _ ih => rw [List.flatMap_cons, List.flatMap_cons, hgk _ _ hb, ih]

/-- The value of a step that may fail. -/
theorem toOption_eq_some_iff {x : Except ε α} {a : α} : x.toOption = some a ↔ x = .ok a := by
  cases x <;> simp [Except.toOption]

/-- A step whose error is told in other words. -/
theorem of_mapError {ε' : Type} {x : Except ε α} {f : ε → ε'} {a : α}
    (h : x.mapError f = .ok a) : x = .ok a := by
  cases x with
  | error e => cases h
  | ok b =>
    cases h
    rfl

end ReturnAudit
