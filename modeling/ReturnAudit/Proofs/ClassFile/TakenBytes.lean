import ReturnAudit.Proofs.ClassFile.Extent

/-!
# What a reader has taken

Where a reader succeeds it has taken some bytes off the front and moved on by as many. For the
readers of numbers and texts the value tells which bytes these were, so that there is one way only
to write what is read.
-/

namespace ReturnAudit.ClassFile

open Assembly (beShort beWord)

variable {α β : Type}

/-- Whether the bytes that a reader takes where it succeeds stand in a relation to its value. -/
def Takes (r : Reader α) (R : α → Bytes → Prop) : Prop :=
  ∀ c v c', r c = .ok (v, c') →
    ∃ b, c.rest = b ++ c'.rest ∧ c'.offset = c.offset + b.length ∧ R v b

private theorem toUInt8_eq {n : Nat} {x : UInt8} (h : n % 256 = x.toNat) : n.toUInt8 = x := by
  refine UInt8.toNat_inj.mp ?_
  rw [Nat.toUInt8, UInt8.toNat_ofNat']
  exact h

private theorem beShort_eq (x y : UInt8) : beShort (256 * x.toNat + y.toNat) = [x, y] := by
  have hx := x.toNat_lt
  have hy := y.toNat_lt
  have hhigh : ((256 * x.toNat + y.toNat) / 256).toUInt8 = x := toUInt8_eq (by omega)
  have hlow : (256 * x.toNat + y.toNat).toUInt8 = y := toUInt8_eq (by omega)
  rw [beShort, hhigh, hlow]

/-- Only the low sixteen bits of a number are written as two bytes. -/
theorem beShort_add (k n : Nat) : beShort (65536 * k + n) = beShort n := by
  have hbyte : ∀ {m m' : Nat}, m % 256 = m' % 256 → m.toUInt8 = m'.toUInt8 := by
    intro m m' h
    refine toUInt8_eq ?_
    rw [Nat.toUInt8, UInt8.toNat_ofNat']
    exact h
  have hhigh : ((65536 * k + n) / 256).toUInt8 = (n / 256).toUInt8 := hbyte (by omega)
  have hlow : (65536 * k + n).toUInt8 = n.toUInt8 := hbyte (by omega)
  rw [beShort, beShort, hhigh, hlow]

/-- Only the low thirty-two bits of a number are written as four bytes. -/
theorem beWord_add (k n : Nat) : beWord (4294967296 * k + n) = beWord n := by
  have hhigh : (4294967296 * k + n) / 65536 = 65536 * k + n / 65536 := by omega
  have hlow : 4294967296 * k + n = 65536 * (65536 * k) + n := by omega
  rw [beWord, beWord, hhigh, beShort_add, hlow, beShort_add]

/-- The two bytes that a number of sixteen bits is read from are those it is written as. -/
theorem beShort_toNat (x y : UInt8) :
    beShort (x.toUInt16 <<< 8 ||| y.toUInt16).toNat = [x, y] := by
  have hx := x.toNat_lt
  have hy := y.toNat_lt
  have hreads := Reads.u2 (o := 0) (256 * x.toNat + y.toNat) []
  rw [beShort_eq] at hreads
  have hvalue : x.toUInt16 <<< 8 ||| y.toUInt16 = (256 * x.toNat + y.toNat).toUInt16 :=
    congrArg Prod.fst (Except.ok.inj hreads)
  rw [hvalue, toNat_toUInt16 (by omega), beShort_eq]

/-- The four bytes that a number of thirty-two bits is read from are those it is written as. -/
theorem beWord_toNat (w x y z : UInt8) :
    beWord (w.toUInt32 <<< 24 ||| x.toUInt32 <<< 16 ||| y.toUInt32 <<< 8 ||| z.toUInt32).toNat =
      [w, x, y, z] := by
  have hw := w.toNat_lt
  have hx := x.toNat_lt
  have hy := y.toNat_lt
  have hz := z.toNat_lt
  let high := 256 * w.toNat + x.toNat
  let low := 256 * y.toNat + z.toNat
  have hbytes : beWord (65536 * high + low) = [w, x, y, z] := by
    have hhigh : (65536 * high + low) / 65536 = high := by omega
    rw [beWord, hhigh, beShort_add, beShort_eq, beShort_eq]
    rfl
  have hreads := Reads.u4 (o := 0) (65536 * high + low) []
  rw [hbytes] at hreads
  have hvalue : w.toUInt32 <<< 24 ||| x.toUInt32 <<< 16 ||| y.toUInt32 <<< 8 ||| z.toUInt32 =
      (65536 * high + low).toUInt32 := congrArg Prod.fst (Except.ok.inj hreads)
  rw [hvalue, toNat_toUInt32 (by omega), hbytes]

namespace Takes

variable {R R' : α → Bytes → Prop} {Q : β → Bytes → Prop} {r : Reader α}

/-- A relation to the bytes implies what is weaker. -/
theorem mono (h : Takes r R) (himp : ∀ v b, R v b → R' v b) : Takes r R' := by
  intro c v c' hrun
  obtain ⟨b, hrest, hoffset, hR⟩ := h c v c' hrun
  exact ⟨b, hrest, hoffset, himp v b hR⟩

/-- A value takes no bytes. -/
theorem pure {v : α} (h : R v []) : Takes (Pure.pure v) R := by
  intro c w c' hrun
  obtain ⟨rfl, rfl⟩ := of_run_pure hrun
  exact ⟨[], rfl, rfl, h⟩

/-- A reader that fails takes whatever one likes. -/
theorem fail (fault : Fault) : Takes (Reader.fail fault) R := by
  intro c v c' hrun
  cases hrun

/-- A result that does not depend on the bytes takes none. -/
theorem look {result : Except ReadError α} (h : ∀ v, result = .ok v → R v []) :
    Takes (Reader.look result) R := by
  intro c v c' hrun
  obtain ⟨w, hw, heq⟩ := of_map hrun
  cases heq
  exact ⟨[], rfl, rfl, h v hw⟩

/-- The place that faults are told at makes no difference. -/
theorem within (place : Place) (h : Takes r R) : Takes (Reader.within place r) R :=
  fun c v c' hrun => h c v c' (of_run_within hrun)

/-- Two readers in a row: the second takes its bytes behind those of the first. -/
theorem bind {f : α → Reader β} (h : Takes r R)
    (hf : ∀ a b, R a b → Takes (f a) fun w b' => Q w (b ++ b')) : Takes (r >>= f) Q := by
  intro c w c' hrun
  obtain ⟨a, t, ha, hfa⟩ := of_run_bind hrun
  obtain ⟨b, hrest, hoffset, hR⟩ := h c a t ha
  obtain ⟨b', hrest', hoffset', hQ⟩ := hf a b hR t w c' hfa
  refine ⟨b ++ b', ?_, ?_, hQ⟩
  · rw [hrest, hrest', List.append_assoc]
  · rw [hoffset', hoffset, List.length_append, Nat.add_assoc]

/-- What is taken for another value. -/
theorem map (f : α → β) (h : Takes r fun v b => Q (f v) b) : Takes (f <$> r) Q := by
  rw [map_eq_pure_bind]
  refine h.bind fun a b hQ => pure ?_
  rwa [List.append_nil]

/-- A byte takes itself. -/
theorem u1 : Takes Reader.u1 fun v b => b = [v] := by
  intro c v c' hrun
  obtain ⟨offset, text⟩ := c
  cases text with
  | nil => cases hrun
  | cons x text =>
    cases hrun
    exact ⟨[v], rfl, rfl, rfl⟩

/-- A short takes its two bytes. -/
theorem u2 : Takes Reader.u2 fun v b => b = beShort v.toNat := by
  intro c v c' hrun
  obtain ⟨offset, text⟩ := c
  match text, hrun with
  | x :: y :: rest, hrun =>
    cases hrun
    exact ⟨[x, y], rfl, rfl, (beShort_toNat x y).symm⟩

/-- A word takes its four bytes. -/
theorem u4 : Takes Reader.u4 fun v b => b = beWord v.toNat := by
  intro c v c' hrun
  obtain ⟨offset, text⟩ := c
  match text, hrun with
  | w :: x :: y :: z :: rest, hrun =>
    cases hrun
    exact ⟨[w, x, y, z], rfl, rfl, (beWord_toNat w x y z).symm⟩

/-- Bytes that are taken are those that are given. -/
theorem take (n : Nat) : Takes (Reader.take n) fun v b => b = v ∧ v.length = n := by
  intro c v c' hrun
  unfold Reader.take at hrun
  split at hrun
  · rename_i taken rest hsplit
    cases hrun
    obtain ⟨htext, hlength⟩ := eq_append_of_splitExactly hsplit
    exact ⟨v, htext, by rw [hlength], rfl, hlength⟩
  · cases hrun

end Takes

/-- Whether a reader takes so many bytes or more where it succeeds. -/
def TakesAtLeast (n : Nat) (r : Reader α) : Prop :=
  Takes r fun _ b => n ≤ b.length

namespace TakesAtLeast

variable {m n : Nat} {r : Reader α}

/-- A lower bound can be lowered. -/
theorem mono (h : TakesAtLeast n r) (hle : m ≤ n) : TakesAtLeast m r :=
  Takes.mono h fun _ _ hb => hle.trans hb

/-- A value need not take anything. -/
theorem pure (v : α) : TakesAtLeast 0 (Pure.pure v : Reader α) :=
  Takes.pure (Nat.zero_le _)

/-- A result that does not depend on the bytes takes none. -/
theorem look (result : Except ReadError α) : TakesAtLeast 0 (Reader.look result) :=
  Takes.look fun _ _ => Nat.zero_le _

/-- A reader that fails takes as many as one likes. -/
theorem fail (n : Nat) (fault : Fault) : TakesAtLeast n (Reader.fail fault : Reader α) :=
  Takes.fail fault

/-- A byte takes one. -/
theorem u1 : TakesAtLeast 1 Reader.u1 :=
  Takes.u1.mono fun v b hb => by rw [hb]; exact Nat.le_refl _

/-- A short takes two. -/
theorem u2 : TakesAtLeast 2 Reader.u2 :=
  Takes.u2.mono fun v b hb => by rw [hb]; exact Nat.le_refl _

/-- The place that faults are told at makes no difference. -/
theorem within (place : Place) (h : TakesAtLeast n r) : TakesAtLeast n (Reader.within place r) :=
  Takes.within place h

/-- Two readers in a row take together what each of them takes. -/
theorem bind {f : α → Reader β} (h : TakesAtLeast m r) (hf : ∀ a, TakesAtLeast n (f a)) :
    TakesAtLeast (m + n) (r >>= f) := by
  refine Takes.bind h fun a b hb => Takes.mono (hf a) fun w b' hb' => ?_
  rw [List.length_append]
  exact Nat.add_le_add hb hb'

/-- A list may take nothing. -/
theorem manyFrom {item : Nat → Reader α} (h : ∀ i, TakesAtLeast 0 (item i)) (first count : Nat) :
    TakesAtLeast 0 (Reader.manyFrom item first count) := by
  induction count generalizing first with
  | zero => exact pure []
  | succ count ih => exact (h first).bind fun a => (ih (first + 1)).bind fun as => pure (a :: as)

/-- A counted list may take nothing. -/
theorem many {item : Nat → Reader α} (h : ∀ i, TakesAtLeast 0 (item i)) (count : Nat) :
    TakesAtLeast 0 (Reader.many count item) :=
  manyFrom h 0 count

end TakesAtLeast

end ReturnAudit.ClassFile
