import ReturnAudit.Proofs.ClassFile.TakenBytes

/-!
# How deep element values nest

An element value takes three bytes or more and an annotation takes four, so values can only nest as
deep as there are bytes left. A bound on the levels that covers the bytes left is never reached, and
every two such bounds give the same outcome, whether a value is read or not.
-/

namespace ReturnAudit.ClassFile

variable {α β : Type} {pool : Pool} {visible : Bool}

/-- An element with a name takes the bytes of its name. -/
theorem takesAtLeast_readNamed (pool : Pool) {readValue : Reader ElementValue}
    (h : TakesAtLeast 0 readValue) : TakesAtLeast 2 (readNamed pool readValue) :=
  TakesAtLeast.u2.bind fun _ => (TakesAtLeast.look _).bind fun _ =>
    (h.within _).bind fun _ => .pure _

/-- A value takes its tag and an index or more, an annotation its type and its count or more. -/
theorem takesAtLeast_read (pool : Pool) (visible : Bool) (levels : Nat) :
    TakesAtLeast 3 (readElementValue pool visible levels) ∧
      TakesAtLeast 4 (readAnnotationBody pool visible levels) := by
  induction levels with
  | zero =>
    constructor
    · intro c v c' hrun
      cases hrun
    · intro c v c' hrun
      cases hrun
  | succ levels ih =>
    obtain ⟨hvalue, hbody⟩ := ih
    have hsome : TakesAtLeast 0 (readElementValue pool visible levels) := hvalue.mono (by omega)
    have hindex : ∀ {f : UInt16 → Reader ElementValue}, (∀ i, TakesAtLeast 0 (f i)) →
        TakesAtLeast 2 (Reader.u2 >>= f) := fun hf => TakesAtLeast.u2.bind hf
    constructor
    · unfold readElementValue
      refine TakesAtLeast.u1.bind fun tag => (?_ : TakesAtLeast 2 _)
      split
      · exact hindex fun _ => (TakesAtLeast.look _).bind fun _ => .pure _
      split
      · exact hindex fun _ => (TakesAtLeast.look _).bind fun _ => .pure _
      split
      · refine hindex fun _ => (TakesAtLeast.u2.bind fun _ => (TakesAtLeast.look _).bind fun _ =>
          (TakesAtLeast.look _).bind fun _ => .pure _).mono (Nat.zero_le _)
      split
      · exact hindex fun _ => (TakesAtLeast.look _).bind fun _ => .pure _
      split
      · exact (hbody.bind fun _ => .pure _).mono (by omega)
      split
      · exact hindex fun _ => (TakesAtLeast.many (fun _ => hsome) _).bind fun _ => .pure _
      · exact .fail 2 _
    · unfold readAnnotationBody
      have hnamed := (takesAtLeast_readNamed pool hsome).mono (Nat.zero_le 2)
      exact TakesAtLeast.u2.bind fun _ => (TakesAtLeast.look _).bind fun _ =>
        TakesAtLeast.u2.bind fun _ => (TakesAtLeast.many (fun _ => hnamed) _).bind fun _ => .pure _

/-- Whether two readers do the same wherever at most so many bytes are left. -/
def AgreeUpTo (n : Nat) (r r' : Reader α) : Prop :=
  ∀ c : Cursor, c.rest.length ≤ n → r c = r' c

namespace AgreeUpTo

variable {m n : Nat} {r r' : Reader α}

/-- A reader does what it does. -/
theorem refl (n : Nat) (r : Reader α) : AgreeUpTo n r r :=
  fun _ _ => rfl

/-- What agrees where more bytes are left agrees where fewer are. -/
theorem mono (h : AgreeUpTo n r r') (hle : m ≤ n) : AgreeUpTo m r r' :=
  fun c hc => h c (hc.trans hle)

/-- Readers that agree do so at any place that faults are told at. -/
theorem within (place : Place) (h : AgreeUpTo n r r') :
    AgreeUpTo n (Reader.within place r) (Reader.within place r') := by
  intro c hc
  rw [Reader.within, Reader.within, h c hc]

/-- Two readers in a row: the second one finds fewer bytes left by those that the first one took. -/
theorem bind {f g : α → Reader β} {k : Nat} (h : AgreeUpTo n r r') (htakes : TakesAtLeast k r)
    (hf : ∀ a, AgreeUpTo (n - k) (f a) (g a)) : AgreeUpTo n (r >>= f) (r' >>= g) := by
  intro c hc
  simp only [Bind.bind, StateT.bind, ← h c hc]
  cases hr : r c with
  | error e => rfl
  | ok out =>
    obtain ⟨a, t⟩ := out
    obtain ⟨b, hrest, -, hb⟩ := htakes c a t hr
    rw [hrest, List.length_append] at hc
    exact hf a t (by omega)

/-- The same reader before readers that agree. -/
theorem after {f g : α → Reader β} {k : Nat} (htakes : TakesAtLeast k r)
    (hf : ∀ a, AgreeUpTo (n - k) (f a) (g a)) : AgreeUpTo n (r >>= f) (r >>= g) :=
  (refl n r).bind htakes hf

/-- Counted lists agree when their items do. -/
theorem many {item item' : Nat → Reader α} (h : ∀ i, AgreeUpTo n (item i) (item' i))
    (htakes : ∀ i, TakesAtLeast 0 (item i)) (count : Nat) :
    AgreeUpTo n (Reader.many count item) (Reader.many count item') := by
  have hfrom : ∀ first, AgreeUpTo n (Reader.manyFrom item first count)
      (Reader.manyFrom item' first count) := by
    induction count with
    | zero => exact fun first => refl n _
    | succ count ih =>
      intro first
      refine (h first).bind (htakes first) fun a => ?_
      exact (ih (first + 1)).bind (.manyFrom htakes (first + 1) count) fun as => refl _ _
  exact hfrom 0

end AgreeUpTo

/-- No value is read where nothing is left, whatever the bound. -/
theorem readElementValue_of_nil (levels o : Nat) :
    readElementValue pool visible levels ⟨o, []⟩ = .error (.of (.truncated 1 o)) := by
  cases levels with
  | zero => rfl
  | succ levels =>
    unfold readElementValue
    rfl

/-- No annotation is read where nothing is left, whatever the bound. -/
theorem readAnnotationBody_of_nil (levels o : Nat) :
    readAnnotationBody pool visible levels ⟨o, []⟩ = .error (.of (.truncated 2 o)) := by
  cases levels with
  | zero => rfl
  | succ levels =>
    unfold readAnnotationBody
    rfl

/-- Two bounds that cover the bytes left give the same outcome. The induction is on the number of
bytes: a level takes a byte or more before it asks for the next one. -/
theorem agreeUpTo_read (pool : Pool) (visible : Bool) {n levels levels' : Nat} (h : n ≤ levels)
    (h' : n ≤ levels') :
    AgreeUpTo n (readElementValue pool visible levels) (readElementValue pool visible levels') ∧
      AgreeUpTo n (readAnnotationBody pool visible levels)
        (readAnnotationBody pool visible levels') := by
  induction n generalizing levels levels' with
  | zero =>
    -- nothing is left to read, so both fail alike at the first byte
    constructor
    · rintro ⟨o, rest⟩ hc
      obtain rfl : rest = [] := List.eq_nil_of_length_eq_zero (Nat.le_zero.mp hc)
      rw [readElementValue_of_nil, readElementValue_of_nil]
    · rintro ⟨o, rest⟩ hc
      obtain rfl : rest = [] := List.eq_nil_of_length_eq_zero (Nat.le_zero.mp hc)
      rw [readAnnotationBody_of_nil, readAnnotationBody_of_nil]
  | succ n ih =>
    obtain ⟨l, rfl⟩ : ∃ l, levels = l + 1 := ⟨levels - 1, by omega⟩
    obtain ⟨l', rfl⟩ : ∃ l', levels' = l' + 1 := ⟨levels' - 1, by omega⟩
    obtain ⟨hvalue, hbody⟩ := ih (Nat.le_of_succ_le_succ h) (Nat.le_of_succ_le_succ h')
    obtain ⟨htakes, htakes'⟩ := takesAtLeast_read pool visible l
    have hitem : TakesAtLeast 0 (readElementValue pool visible l) := htakes.mono (Nat.zero_le 3)
    constructor
    · unfold readElementValue
      refine .after TakesAtLeast.u1 fun tag => (?_ : AgreeUpTo n _ _)
      split
      · exact .refl n _
      split
      · exact .refl n _
      split
      · exact .refl n _
      split
      · exact .refl n _
      split
      · exact hbody.bind htakes' fun inner => .refl _ _
      split
      · refine .after TakesAtLeast.u2 fun count => ?_
        have hmany := AgreeUpTo.many (fun _ => hvalue) (fun _ => hitem) count.toNat
        exact (hmany.mono (Nat.sub_le n 2)).bind (.many (fun _ => hitem) _) fun values => .refl _ _
      · exact .refl n _
    · unfold readAnnotationBody
      refine .after TakesAtLeast.u2 fun typeIndex => .after (TakesAtLeast.look _) fun type => ?_
      refine .after TakesAtLeast.u2 fun count => ?_
      have hnamed : AgreeUpTo n (readNamed pool (readElementValue pool visible l))
          (readNamed pool (readElementValue pool visible l')) :=
        .after TakesAtLeast.u2 fun index => .after (TakesAtLeast.look _) fun name =>
          ((hvalue.mono (Nat.sub_le n 2)).within _).bind (hitem.within _) fun value => .refl _ _
      have hpair := (takesAtLeast_readNamed pool hitem).mono (Nat.zero_le 2)
      have hmany := AgreeUpTo.many (fun _ => hnamed) (fun _ => hpair) count.toNat
      exact (hmany.mono (by omega)).bind (.many (fun _ => hpair) _) fun pairs => .refl _ _

end ReturnAudit.ClassFile
