import Mathlib.Algebra.GroupWithZero.Nat
import ReturnAudit.Proofs.Text.Cuts
import ReturnAudit.Symbol

/-!
# Method types and their descriptors

The grammar of method descriptors as a syntax tree: a method type has parameters and a result, and
its text lists the parameters between parentheses and then the result. The slots of the parameters
are counted right for every method type, whatever the names of classes look like. The result is
found behind the last closing parenthesis of the text, so it is found exactly when no closing
parenthesis stands in the result itself.
-/

namespace ReturnAudit.Descriptor

/-- A class name as it stands in a descriptor. -/
structure ClassName where
  /-- The name. -/
  text : Bytes
  /-- The name has no semicolon, which would end it. -/
  not_mem : 59 ∉ text

/-- The types that are no references. -/
inductive Primitive where
  | boolean
  | byte
  | char
  | short
  | int
  | long
  | float
  | double
  deriving DecidableEq, Repr

/-- The letter of a type in a descriptor. -/
def Primitive.letter : Primitive → UInt8
  | boolean => 90
  | byte => 66
  | char => 67
  | short => 83
  | int => 73
  | long => 74
  | float => 70
  | double => 68

/-- The slots that a value takes. -/
def Primitive.slots : Primitive → Nat
  | long | double => 2
  | boolean | byte | char | short | int | float => 1

/-- The types of values. -/
inductive ValueType where
  /-- A number or a truth value. -/
  | primitive (p : Primitive)
  /-- A reference to an object of a class. -/
  | object (name : ClassName)
  /-- A reference to an array. -/
  | array (element : ValueType)

namespace ValueType

/-- The descriptor of a type. -/
def text : ValueType → Bytes
  | primitive p => [p.letter]
  | object name => 76 :: (name.text ++ [59])
  | array element => 91 :: element.text

/-- The slots that a value takes; every reference takes one. -/
def slots : ValueType → Nat
  | primitive p => p.slots
  | object _ | array _ => 1

end ValueType

/-- What a method returns. -/
inductive ResultType where
  /-- Nothing. -/
  | void
  /-- A value. -/
  | value (type : ValueType)

/-- The descriptor of a result. -/
def ResultType.text : ResultType → Bytes
  | void => [86]
  | value type => type.text

/-- The type of a method. -/
structure MethodType where
  /-- The types of the parameters. -/
  parameters : List ValueType
  /-- What the method returns. -/
  result : ResultType

/-- The descriptor of a method. -/
def MethodType.text (m : MethodType) : Bytes :=
  40 :: (m.parameters.flatMap ValueType.text ++ 41 :: m.result.text)

/-! ## Slots -/

/-- A class name is passed over up to its semicolon. -/
theorem slotsFrom_className {name : Bytes} (h : 59 ∉ name) (rest : Bytes) :
    slotsFrom .className (name ++ 59 :: rest) = slotsFrom .boundary rest := by
  induction name with
  | nil => rfl
  | cons b name ih =>
    rw [List.mem_cons, not_or] at h
    rw [List.cons_append, slotsFrom, if_neg (Ne.symm h.1), ih h.2]

/-- What an array holds is passed over. -/
theorem slotsFrom_brackets (t : ValueType) (rest : Bytes) :
    slotsFrom .brackets (t.text ++ rest) = slotsFrom .boundary rest := by
  induction t with
  | primitive p => cases p <;> rfl
  | object name =>
    have hname := slotsFrom_className name.not_mem rest
    simpa [ValueType.text, slotsFrom] using hname
  | array element ih => simpa [ValueType.text, slotsFrom] using ih

/-- Behind a parameter the reading stands between two parameters again. -/
theorem slotsFrom_boundary (t : ValueType) (rest : Bytes) :
    slotsFrom .boundary (t.text ++ rest) = t.slots + slotsFrom .boundary rest := by
  cases t with
  | primitive p => cases p <;> rfl
  | object name =>
    have hname := slotsFrom_className name.not_mem rest
    simpa [ValueType.text, ValueType.slots, slotsFrom] using hname
  | array element =>
    have helement := slotsFrom_brackets element rest
    simpa [ValueType.text, ValueType.slots, slotsFrom] using helement

/-- The parameters end at the first closing parenthesis between two of them. -/
theorem slotsFrom_parameters (ts : List ValueType) (rest : Bytes) :
    slotsFrom .boundary (ts.flatMap ValueType.text ++ 41 :: rest) =
      (ts.map ValueType.slots).sum := by
  induction ts with
  | nil => rfl
  | cons t ts ih =>
    rw [List.flatMap_cons, List.append_assoc, slotsFrom_boundary, ih, List.map_cons, List.sum_cons]

/-- The slots of a method type are those of its parameters: two for a long and a double, one for
everything else. -/
theorem argumentSlots_text (m : MethodType) :
    argumentSlots m.text = (m.parameters.map ValueType.slots).sum :=
  slotsFrom_parameters m.parameters m.result.text

example : argumentSlots "([[LJ)D[;JI)[J" = 4 := by decide

/-! ## Results -/

/-- No closing parenthesis is left in what is taken for the result. -/
theorem not_mem_returnType (s : Bytes) : 41 ∉ returnType s := by
  unfold returnType
  split
  · exact (Bytes.cutLast_eq_some_iff.mp ‹_›).2
  · exact List.not_mem_nil

/-- What follows the last closing parenthesis is given as the return type. -/
theorem returnType_append {result : Bytes} (h : 41 ∉ result) (outer : Bytes) :
    returnType (outer ++ 41 :: result) = result := by
  have hcut : Bytes.cutLast 41 (outer ++ 41 :: result) = some (outer, result) :=
    Bytes.cutLast_eq_some_iff.mpr ⟨rfl, h⟩
  rw [returnType, hcut]

/-- What is given as the return type ends the descriptor. -/
theorem returnType_suffix (s : Bytes) : returnType s <:+ s := by
  unfold returnType
  split
  · rename_i before result hcut
    obtain ⟨rfl, -⟩ := Bytes.cutLast_eq_some_iff.mp hcut
    exact (List.suffix_cons 41 result).trans (List.suffix_append before _)
  · exact List.nil_suffix

/-- What is taken for the result does not reach back over any closing parenthesis. -/
theorem returnType_append_suffix (outer inner : Bytes) :
    returnType (outer ++ 41 :: inner) <:+ inner := by
  have hinner : 41 :: inner <:+ outer ++ 41 :: inner := List.suffix_append outer _
  have hno := not_mem_returnType (outer ++ 41 :: inner)
  rcases List.suffix_or_suffix_of_suffix hinner (returnType_suffix (outer ++ 41 :: inner)) with
    hlonger | hshorter
  · exact absurd (hlonger.subset List.mem_cons_self) hno
  · rcases List.suffix_cons_iff.mp hshorter with heq | hsuffix
    · rw [heq] at hno
      exact absurd List.mem_cons_self hno
    · exact hsuffix

/-- What is taken for the result of a method type ends the descriptor of the result. It is the
whole of it exactly when no closing parenthesis stands in the result, and then a method returns its
owner exactly when the result is the descriptor of the owner. -/
theorem returnType_text (m : MethodType) :
    returnType m.text <:+ m.result.text ∧
      (returnType m.text = m.result.text ↔ 41 ∉ m.result.text) ∧
      ∀ r : MethodRef, r.signature = m.text → 41 ∉ m.result.text →
        (r.returnsOwner = true ↔ m.result.text = 76 :: slashed r.owner ++ [59]) := by
  have hwhole : 41 ∉ m.result.text → returnType m.text = m.result.text :=
    fun h => returnType_append h (40 :: m.parameters.flatMap ValueType.text)
  refine ⟨?_, ⟨?_, hwhole⟩, ?_⟩
  · exact returnType_append_suffix (40 :: m.parameters.flatMap ValueType.text) m.result.text
  · intro heq
    exact heq ▸ not_mem_returnType m.text
  · intro r hsignature hresult
    rw [MethodRef.returnsOwner, decide_eq_true_iff, MethodRef.returnType, hsignature,
      hwhole hresult, ofClass]

/-- The method type of a setter that takes a list of arrays and a number and returns its class;
a parameter has parentheses in its name. -/
private def fluentSetter : MethodType where
  parameters := [.array (.array (.object ⟨"a)I(b", by decide⟩)), .primitive .long]
  result := .value (.object ⟨"p/Setter", by decide⟩)

/-- Parentheses in the names of parameters do no harm. -/
theorem returnType_text_fluentSetter :
    fluentSetter.text = Bytes.ofString "([[La)I(b;J)Lp/Setter;" ∧
      returnType fluentSetter.text = Bytes.ofString "Lp/Setter;" ∧
      (MethodRef.mk "p.Setter" "set" fluentSetter.text false).returnsOwner = true := by
  have hresult : 41 ∉ fluentSetter.result.text := by decide
  obtain ⟨-, hwhole, howner⟩ := returnType_text fluentSetter
  refine ⟨by decide, hwhole.mpr hresult, ?_⟩
  exact (howner ⟨"p.Setter", "set", fluentSetter.text, false⟩ rfl hresult).mpr (by decide)

/-- A method that returns the class `a)b`. -/
private def parenthesized : MethodType where
  parameters := []
  result := .value (.object ⟨"a)b", by decide⟩)

/-- The name of a class may have a closing parenthesis; the result is then cut inside of the name,
and a method that returns its owner is not known as such. -/
theorem returnType_of_parenthesized :
    (∀ b ∈ Bytes.ofString "a)b", b ≠ 46 ∧ b ≠ 59 ∧ b ≠ 91) ∧
      parenthesized.text = Bytes.ofString "()La)b;" ∧
      parenthesized.result.text = ofClass "a)b" ∧
      returnType parenthesized.text = Bytes.ofString "b;" ∧
      returnType parenthesized.text ≠ parenthesized.result.text ∧
      (MethodRef.mk "a)b" "m" parenthesized.text false).returnsOwner = false := by
  decide +kernel

end ReturnAudit.Descriptor
