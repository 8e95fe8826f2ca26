import ReturnAudit.ClassFile.Class
import ReturnAudit.Proofs.ClassFile.Reads
import ReturnAudit.Proofs.Steps

/-!
# How far a reader looks

A reader is frugal when, wherever it succeeds, it has taken some bytes off the front and would have
taken the same bytes in front of any other rest. Reading a class file is frugal through all its
parts: attributes are taken by their declared length, and whatever is read inside of an attribute
sees nothing else. So what a frugal reader takes cannot be cut short: it fails on every text that
ends before the last byte it would take.
-/

namespace ReturnAudit.ClassFile

variable {α β : Type}

/-- Where the reader succeeds it takes some bytes, and it takes these whatever follows. -/
def Frugal (r : Reader α) : Prop :=
  ∀ o text v c, r ⟨o, text⟩ = .ok (v, c) → ∃ b, text = b ++ c.rest ∧ Reads o r b v

/-- The place that a reader leaves behind the bytes it takes. -/
theorem Reads.cursor_eq {o : Nat} {r : Reader α} {b : Bytes} {v w : α} {c : Cursor}
    (h : Reads o r b v) (hr : r ⟨o, b ++ c.rest⟩ = .ok (w, c)) :
    w = v ∧ c = ⟨o + b.length, c.rest⟩ := by
  have heq := hr.symm.trans (h c.rest)
  exact Prod.mk.inj (Except.ok.inj heq)

/-- A place is only told to faults. -/
theorem of_run_within {place : Place} {r : Reader α} {c c' : Cursor} {v : α}
    (h : Reader.within place r c = .ok (v, c')) : r c = .ok (v, c') := by
  rw [Reader.within] at h
  cases hr : r c with
  | error e =>
    rw [hr] at h
    cases h
  | ok out =>
    rw [hr] at h
    exact h

/-- A text that can be split is made up of the parts. -/
theorem eq_append_of_splitExactly {n : Nat} {text taken rest : Bytes}
    (h : Bytes.splitExactly n text = some (taken, rest)) :
    text = taken ++ rest ∧ taken.length = n := by
  induction n generalizing text taken with
  | zero =>
    cases h
    exact ⟨rfl, rfl⟩
  | succ n ih =>
    cases text with
    | nil => cases h
    | cons x text =>
      obtain ⟨⟨taken', rest'⟩, hsplit, heq⟩ := Option.map_eq_some_iff.mp h
      cases heq
      obtain ⟨htext, hlength⟩ := ih hsplit
      exact ⟨congrArg (x :: ·) htext, congrArg (· + 1) hlength⟩

namespace Frugal

/-- A value takes no bytes. -/
theorem pure (v : α) : Frugal (Pure.pure v : Reader α) := by
  intro o text w c h
  obtain ⟨rfl, rfl⟩ := of_run_pure h
  exact ⟨[], rfl, Reads.pure w⟩

/-- A reader that fails takes nothing. -/
theorem fail (fault : Fault) : Frugal (Reader.fail fault : Reader α) := by
  intro o text v c h
  cases h

/-- A result that does not depend on the bytes takes none. -/
theorem look (result : Except ReadError α) : Frugal (Reader.look result) := by
  intro o text v c h
  cases result with
  | error e => cases h
  | ok a =>
    cases h
    exact ⟨[], rfl, Reads.look rfl⟩

/-- Two readers in a row: the second takes its bytes behind those of the first. -/
theorem bind {r : Reader α} {f : α → Reader β} (h : Frugal r) (hf : ∀ a, Frugal (f a)) :
    Frugal (r >>= f) := by
  intro o text w c hrun
  obtain ⟨a, t, hr, hfa⟩ := of_run_bind hrun
  obtain ⟨b, rfl, hb⟩ := h o text a t hr
  obtain ⟨-, ht⟩ := hb.cursor_eq hr
  rw [ht] at hfa
  obtain ⟨b', hrest, hb'⟩ := hf a _ _ w c hfa
  exact ⟨b ++ b', by rw [hrest, List.append_assoc], hb.bind hb'⟩

/-- Changing the value takes no more bytes. -/
theorem map {r : Reader α} (f : α → β) (h : Frugal r) : Frugal (f <$> r) := by
  rw [map_eq_pure_bind]
  exact h.bind fun a => pure (f a)

/-- The place that faults are told at makes no difference. -/
theorem within (place : Place) {r : Reader α} (h : Frugal r) : Frugal (Reader.within place r) := by
  intro o text v c hrun
  obtain ⟨b, htext, hb⟩ := h o text v c (of_run_within hrun)
  exact ⟨b, htext, hb.within place⟩

/-- A byte takes itself. -/
theorem u1 : Frugal Reader.u1 := by
  intro o text v c h
  cases text with
  | nil => cases h
  | cons x text =>
    cases h
    exact ⟨[v], rfl, Reads.u1 v⟩

/-- A short takes two bytes. -/
theorem u2 : Frugal Reader.u2 := by
  intro o text v c h
  match text, h with
  | x :: y :: rest, h =>
    cases h
    exact ⟨[x, y], rfl, fun _ => rfl⟩

/-- A word takes four bytes. -/
theorem u4 : Frugal Reader.u4 := by
  intro o text v c h
  match text, h with
  | w :: x :: y :: z :: rest, h =>
    cases h
    exact ⟨[w, x, y, z], rfl, fun _ => rfl⟩

/-- Bytes that are taken are those that are given. -/
theorem take (n : Nat) : Frugal (Reader.take n) := by
  intro o text v c h
  unfold Reader.take at h
  split at h
  · rename_i taken rest hsplit
    cases h
    obtain ⟨htext, rfl⟩ := eq_append_of_splitExactly hsplit
    exact ⟨v, htext, Reads.take v⟩
  · cases h

/-- Bytes that are skipped are taken. -/
theorem skip (n : Nat) : Frugal (Reader.skip n) := by
  intro o text v c h
  unfold Reader.skip at h
  split at h
  · rename_i taken rest hsplit
    cases h
    obtain ⟨htext, rfl⟩ := eq_append_of_splitExactly hsplit
    exact ⟨taken, htext, Reads.skip taken⟩
  · cases h

/-- A list of readers in a row, each told its position. -/
theorem manyFrom {item : Nat → Reader α} (h : ∀ i, Frugal (item i)) (first count : Nat) :
    Frugal (Reader.manyFrom item first count) := by
  induction count generalizing first with
  | zero => exact pure []
  | succ count ih => exact (h first).bind fun a => (ih (first + 1)).bind fun as => pure (a :: as)

/-- A counted list is frugal when its items are. -/
theorem many {item : Nat → Reader α} (h : ∀ i, Frugal (item i)) (count : Nat) :
    Frugal (Reader.many count item) :=
  manyFrom h 0 count

/-- What a frugal reader takes cannot be cut short. -/
theorem exists_error {o : Nat} {r : Reader α} {p q : Bytes} {v : α} (h : Frugal r)
    (hreads : Reads o r (p ++ q) v) (hq : q ≠ []) : ∃ e, r ⟨o, p⟩ = .error e := by
  cases hp : r ⟨o, p⟩ with
  | error e => exact ⟨e, rfl⟩
  | ok out =>
    -- what it took of the beginning it also takes of the whole, and that is all it takes
    obtain ⟨w, c⟩ := out
    obtain ⟨b, rfl, hb⟩ := h o p w c hp
    have hwhole := hreads []
    have hshort := hb (c.rest ++ q)
    rw [List.append_nil] at hwhole
    rw [← List.append_assoc, hwhole] at hshort
    have hrest : c.rest ++ q = [] := (congrArg (fun out => out.2.rest) (Except.ok.inj hshort)).symm
    exact absurd (List.append_eq_nil_iff.mp hrest).2 hq

end Frugal

namespace Constant

private theorem frugal_index (index : Nat) (make : UInt16 → Constant) :
    Frugal (make <$> Reader.within (.constant index) Reader.u2) :=
  (Frugal.u2.within _).map make

private theorem frugal_indices (index : Nat) (make : UInt16 → UInt16 → Constant) :
    Frugal (Reader.within (.constant index) do
      let first ← Reader.u2
      let second ← Reader.u2
      pure (make first second)) :=
  (Frugal.u2.bind fun _ => Frugal.u2.bind fun _ => .pure _).within _

private theorem frugal_word (index : Nat) (make : UInt32 → Constant) :
    Frugal (make <$> Reader.within (.constant index) Reader.u4) :=
  (Frugal.u4.within _).map make

private theorem frugal_words (index : Nat) (make : UInt64 → Constant) :
    Frugal (Reader.within (.constant index) do
      let high ← Reader.u4
      let low ← Reader.u4
      pure (make (high.toUInt64 <<< 32 ||| low.toUInt64))) :=
  (Frugal.u4.bind fun _ => Frugal.u4.bind fun _ => .pure _).within _

/-- A constant is read frugally, whichever of the seventeen kinds its tag marks. -/
theorem frugal_read (index : Nat) : Frugal (Constant.read index) := by
  unfold Constant.read
  refine (Frugal.u1.within _).bind fun tag => ?_
  dsimp only
  split
  · exact (Frugal.u2.within _).bind fun length => ((Frugal.take _).within _).map utf8
  · exact frugal_word index integer
  · exact frugal_word index float
  · exact frugal_words index long
  · exact frugal_words index double
  · exact frugal_index index classRef
  · exact frugal_index index string
  · exact frugal_indices index fieldRef
  · exact frugal_indices index methodRef
  · exact frugal_indices index interfaceMethodRef
  · exact frugal_indices index nameAndType
  · exact (Frugal.u1.bind fun _ => Frugal.u2.bind fun _ => .pure _).within _
  · exact frugal_index index methodType
  · exact frugal_indices index dynamic
  · exact frugal_indices index invokeDynamic
  · exact frugal_index index module
  · exact frugal_index index package
  · exact Frugal.fail _

end Constant

/-- The constants of a pool are read frugally, also when the last one takes an index too many. -/
theorem Pool.frugal_readFrom (index count : Nat) : Frugal (Pool.readFrom index count) := by
  fun_induction Pool.readFrom index count with
  | case1 index => exact .pure []
  | case2 index => exact (Constant.frugal_read index).bind fun c => .pure _
  | case3 index count ihTwo ihOne =>
    refine (Constant.frugal_read index).bind fun c => ?_
    split
    · exact ihTwo.bind fun rest => .pure _
    · exact ihOne.bind fun rest => .pure _

/-- The constants of a class are read frugally. -/
theorem Pool.frugal_read : Frugal Pool.read := by
  refine (Frugal.u2.within _).bind fun count => ?_
  split
  · exact .pure _
  · exact (Pool.frugal_readFrom 1 _).bind fun entries => .pure _

/-- An attribute is read frugally. -/
theorem frugal_readAttribute (pool : Pool) : Frugal (readAttribute pool) :=
  Frugal.u2.bind fun _ => (Frugal.look _).bind fun _ => Frugal.u4.bind fun _ =>
    ((Frugal.take _).within _).bind fun _ => .pure _

/-- The attributes of a class or member are read frugally. -/
theorem frugal_readAttributes (pool : Pool) : Frugal (readAttributes pool) :=
  Frugal.u2.bind fun count => .many (fun _ => frugal_readAttribute pool) count.toNat

/-- A member is read frugally: its annotations are looked up in attributes that were taken whole. -/
theorem frugal_readMember (pool : Pool) : Frugal (readMember pool) :=
  Frugal.u2.bind fun _ => Frugal.u2.bind fun _ => Frugal.u2.bind fun _ =>
    (Frugal.look _).bind fun _ => (Frugal.look _).bind fun _ =>
      ((frugal_readAttributes pool).within _).bind fun _ => (Frugal.look _).bind fun _ => .pure _

/-- The fields of a class are read frugally. -/
theorem frugal_readFields (pool : Pool) : Frugal (readFields pool) := by
  refine (Frugal.u2.within _).bind fun count => .many (fun i => ?_) count.toNat
  exact ((frugal_readMember pool).within _).bind fun m => .pure _

/-- Methods are read frugally: their bodies are looked up in attributes that were taken whole. -/
theorem frugal_readMethods (pool : Pool) : Frugal (readMethods pool) := by
  refine (Frugal.u2.within _).bind fun count => .many (fun i => ?_) count.toNat
  exact ((frugal_readMember pool).within _).bind fun m => (Frugal.look _).bind fun bodies => .pure _

/-- Looking up the name of a class that may be missing takes no bytes. -/
theorem frugal_optionalClassName (pool : Pool) (place : Place) (index : UInt16) :
    Frugal (optionalClassName pool place index) := by
  unfold optionalClassName
  split
  · exact .pure []
  · exact (Frugal.look _).map _

/-- What follows the constants is read frugally. -/
theorem frugal_readDeclaration (major minor : Nat) (pool : Pool) :
    Frugal (readDeclaration major minor pool) := by
  refine (Frugal.u2.within _).bind fun access => (Frugal.u2.within _).bind fun nameIndex => ?_
  refine ((Frugal.look _).map _).bind fun name => (Frugal.u2.within _).bind fun superIndex => ?_
  refine (frugal_optionalClassName pool _ superIndex).bind fun super => ?_
  refine (Frugal.u2.within _).bind fun count => ?_
  refine (Frugal.many (fun i => ?_) count.toNat).bind fun interfaces => ?_
  · exact (Frugal.u2.within _).bind fun index => (Frugal.look _).map _
  refine ((frugal_readFields pool).within _).bind fun fields => ?_
  refine ((frugal_readMethods pool).within _).bind fun methods => ?_
  refine (((frugal_readAttributes pool).within _).within _).bind fun attributes => ?_
  exact (Frugal.look _).bind fun found => .pure _

/-- A class file is read frugally. -/
theorem frugal_readClass : Frugal readClass := by
  refine (Frugal.u4.within _).bind fun found => ?_
  dsimp only
  split
  · intro o text v c h
    cases h
  · refine (Frugal.u2.within _).bind fun minor => (Frugal.u2.within _).bind fun major => ?_
    exact (Pool.frugal_read.within _).bind fun pool => frugal_readDeclaration _ _ pool

/-- The first `n` bytes of a class file decide about it and no fewer do. -/
structure Extent (data : Bytes) (k : Class) (n : Nat) : Prop where
  /-- The bytes are there. -/
  le_length : n ≤ data.length
  /-- Every text that starts with them holds the same class, whatever follows. -/
  accepted : ∀ other, other.take n = data.take n → parse other = .ok k
  /-- Without the last of them there is no class. -/
  rejected : ∀ m < n, ∃ e, parse (data.take m) = .error e

namespace Extent

/-- The bytes that a class is read from are its extent. -/
theorem of_reads {b : Bytes} {k : Class} (h : Reads 0 readClass b k) (rest : Bytes) :
    Extent (b ++ rest) k b.length where
  le_length := by simp
  accepted := by
    intro other hother
    rw [List.take_left] at hother
    rw [← List.take_append_drop b.length other, hother, parse, Reader.run, Cursor.start, h]
    rfl
  rejected := by
    intro m hm
    rw [List.take_append_of_le_length (Nat.le_of_lt hm)]
    have hwhole : Reads 0 readClass (b.take m ++ b.drop m) k := by rwa [List.take_append_drop]
    obtain ⟨e, he⟩ := frugal_readClass.exists_error hwhole (by simpa using hm)
    exact ⟨e, by rw [parse, Reader.run, Cursor.start, he]; rfl⟩

/-- A text has at most one extent: below the larger one it would be rejected. -/
theorem eq_of_extent {data : Bytes} {k k' : Class} {n n' : Nat} (h : Extent data k n)
    (h' : Extent data k' n') : n' = n := by
  have hle : ∀ {k k' : Class} {n n' : Nat}, Extent data k n → Extent data k' n' → n' ≤ n := by
    intro k k' n n' h h'
    by_contra hlt
    obtain ⟨e, he⟩ := h'.rejected n (Nat.lt_of_not_le hlt)
    have hk := h.accepted (data.take n) (by rw [List.take_take, Nat.min_self])
    rw [he] at hk
    cases hk
  exact Nat.le_antisymm (hle h h') (hle h' h)

end Extent

/-- What is accepted has an extent. -/
theorem exists_extent {data : Bytes} {k : Class} (h : parse data = .ok k) :
    ∃ n, Extent data k n := by
  unfold parse Reader.run at h
  cases hrun : readClass (Cursor.start data) with
  | error e =>
    rw [hrun] at h
    cases h
  | ok out =>
    obtain ⟨v, c⟩ := out
    rw [hrun] at h
    cases h
    obtain ⟨b, hdata, hb⟩ := frugal_readClass 0 data v c hrun
    exact ⟨b.length, hdata ▸ Extent.of_reads hb c.rest⟩

end ReturnAudit.ClassFile
