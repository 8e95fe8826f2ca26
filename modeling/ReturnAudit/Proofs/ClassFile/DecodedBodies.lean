import ReturnAudit.Proofs.ClassFile.Extent
import ReturnAudit.Proofs.ClassFile.PoolLookups

/-!
# Bodies decoded with the pool of their class

The instructions of a class that is read are those that its code arrays are decoded to with the
constants of the same class. So whatever a decoder makes of a code array is found in the class.
-/

namespace ReturnAudit.ClassFile

variable {α β : Type}

/-- Whether every value that a reader gives has a property. -/
def Gives (r : Reader α) (P : α → Prop) : Prop :=
  ∀ c v c', r c = .ok (v, c') → P v

namespace Gives

variable {P : α → Prop} {Q : β → Prop} {r : Reader α}

/-- Every reader gives something. -/
theorem anything (r : Reader α) : Gives r fun _ => True :=
  fun _ _ _ _ => trivial

/-- A value without a step. -/
theorem pure {v : α} (h : P v) : Gives (Pure.pure v) P := by
  intro c w c' hrun
  cases hrun
  exact h

/-- A result that does not depend on the bytes. -/
theorem look {result : Except ReadError α} (h : ∀ v, result = .ok v → P v) :
    Gives (Reader.look result) P := by
  intro c v c' hrun
  obtain ⟨w, hw, heq⟩ := of_map hrun
  cases heq
  exact h v hw

/-- The place that faults are told at makes no difference to what is given. -/
theorem within (place : Place) (h : Gives r P) : Gives (Reader.within place r) P :=
  fun c v c' hrun => h c v c' (of_run_within hrun)

/-- What is known of the value of a first reader holds when the second one runs. -/
theorem bind {f : α → Reader β} (h : Gives r P) (h' : ∀ a, P a → Gives (f a) Q) :
    Gives (r >>= f) Q := by
  intro c v c' hrun
  obtain ⟨a, t, ha, hf⟩ := of_run_bind hrun
  exact h' a (h c a t ha) t v c' hf

/-- A second reader that does not depend on what the first one gives. -/
theorem after {f : α → Reader β} (h : ∀ a, Gives (f a) Q) : Gives (r >>= f) Q :=
  (anything r).bind fun a _ => h a

/-- A counted list gives values with the property of its items. -/
theorem many {item : Nat → Reader α} (h : ∀ i, Gives (item i) P) (count : Nat) :
    Gives (Reader.many count item) fun vs => ∀ v ∈ vs, P v := by
  have hfrom : ∀ first, Gives (Reader.manyFrom item first count) fun vs => ∀ v ∈ vs, P v := by
    induction count with
    | zero => exact fun first => pure fun v hv => (List.not_mem_nil hv).elim
    | succ count ih =>
      refine fun first => (h first).bind fun v hv => (ih (first + 1)).bind fun vs hvs => pure ?_
      intro w hw
      rcases List.mem_cons.mp hw with rfl | hw
      · exact hv
      · exact hvs w hw
  exact hfrom 0

end Gives

/-- Whether the instructions of a body are those that its bytes are decoded to. -/
def Code.DecodedWith (code : Code) (pool : Pool) : Prop :=
  decode (some pool) code.bytes = .ok code.instructions

/-- Whether the body of a method, if it has one, is decoded with some constants. -/
def Method.DecodedWith (m : Method) (pool : Pool) : Prop :=
  ∀ code, m.code = some code → code.DecodedWith pool

/-- A body that is read is decoded with the constants that it is read with. -/
theorem decodedWith_of_readCode {pool : Pool} {info : Bytes} {code : Code}
    (h : readCode pool info = .ok code) : code.DecodedWith pool := by
  unfold readCode at h
  obtain ⟨body, -, h⟩ := of_bind h
  obtain ⟨instructions, hdecode, h⟩ := of_bind h
  cases h
  exact hdecode

/-- What holds of the value of every step holds of all values of a list of steps. -/
private theorem forall_of_mapM {P : β → Prop} {f : α → Except ReadError β} {l : List α}
    {bs : List β} (hf : ∀ a b, f a = .ok b → P b) (h : l.mapM f = .ok bs) : ∀ b ∈ bs, P b := by
  intro b hb
  obtain ⟨a, -, ha⟩ := (mem_iff_of_mapM h).mp hb
  exact hf a b ha

/-- The body of a method that is read is decoded with the constants that it is read with. -/
theorem gives_readMethod (pool : Pool) (i : Nat) :
    Gives (readMethod pool i) fun m => m.DecodedWith pool := by
  have hbodies : ∀ m bodies, bodiesOf pool m = .ok bodies → ∀ code ∈ bodies,
      code.DecodedWith pool :=
    fun m bodies => forall_of_mapM fun a code h => decodedWith_of_readCode (locate_eq_ok_iff.mp h)
  refine .after fun m => (Gives.look (hbodies m)).bind fun bodies h => .pure ?_
  exact fun code hcode => h code (List.mem_of_getLast? hcode)

/-- Every body behind the constants is decoded with them. -/
theorem gives_readDeclaration (major minor : Nat) (pool : Pool) :
    Gives (readDeclaration major minor pool) fun k =>
      k.pool = pool ∧ ∀ m ∈ k.methods, m.DecodedWith pool := by
  refine .after fun access => .after fun nameIndex => .after fun name => .after fun superIndex => ?_
  refine .after fun super => .after fun count => .after fun interfaces => .after fun fields => ?_
  have hmethods : Gives (readMethods pool) fun ms => ∀ m ∈ ms, m.DecodedWith pool :=
    .after fun count => Gives.many (gives_readMethod pool) count.toNat
  refine (hmethods.within _).bind fun methods hm => .after fun attributes => ?_
  exact .after fun found => .pure ⟨rfl, hm⟩

/-- The bodies of all methods of a class that is read are decoded with its constants. -/
theorem gives_readClass :
    Gives readClass fun k => ∀ m ∈ k.methods, m.DecodedWith k.pool := by
  refine .after fun found => ?_
  dsimp only
  split
  · intro c k c' hrun
    cases hrun
  · refine .after fun minor => .after fun major => .after fun pool c k c' hrun => ?_
    obtain ⟨hpool, hm⟩ := gives_readDeclaration _ _ _ c k c' hrun
    exact hpool ▸ hm

/-- Every body of a class that is read is decoded with the constants of the class. -/
theorem decodedWith_of_parse {data : Bytes} {k : Class} (h : parse data = .ok k) :
    ∀ m ∈ k.methods, m.DecodedWith k.pool := by
  obtain ⟨⟨k', c⟩, hrun, rfl⟩ := of_map h
  exact gives_readClass _ _ _ hrun

end ReturnAudit.ClassFile
