import ReturnAudit.Assembly.Line
import ReturnAudit.ClassFile.Constant
import ReturnAudit.Proofs.Text.Cuts

/-!
# What the operand of a line names

A method operand is written as `owner.name(descriptor`, a field operand as `owner.name:descriptor`.
The parts that the assembler takes an operand apart into are the only ones that it can be put
together from, so a line names at most one member.
-/

namespace ReturnAudit.Assembly

open ClassFile (MemberRef)

/-- Whether an operand is written as `owner.name(descriptor`: the descriptor starts at the first
parenthesis, and the name at the last dot before it. -/
structure IsMethodOperand (operand owner name descriptor : Bytes) : Prop where
  /-- How the parts are put together. -/
  text : operand = owner ++ "." ++ name ++ descriptor
  /-- The descriptor starts with a parenthesis. -/
  parenthesis : ∃ rest, descriptor = 40 :: rest
  /-- It is the first one. -/
  first : 40 ∉ owner ++ name
  /-- No dot is part of the name. -/
  undotted : 46 ∉ name

/-- Whether an operand is written as `owner.name:descriptor`: the descriptor follows the first
colon, and the name the last dot before it. -/
structure IsFieldOperand (operand owner name descriptor : Bytes) : Prop where
  /-- How the parts are put together. -/
  text : operand = owner ++ "." ++ name ++ ":" ++ descriptor
  /-- The colon is the first one. -/
  first : 58 ∉ owner ++ name
  /-- No dot is part of the name. -/
  undotted : 46 ∉ name

/-- Splitting gives the parts of an operand exactly when it is written as a method. -/
theorem splitMethod_eq_ok_iff {operand owner name descriptor : Bytes} :
    splitMethod operand = .ok (owner, name, descriptor) ↔
      IsMethodOperand operand owner name descriptor := by
  have hdot : Bytes.ofString "." = [46] := by decide
  constructor
  · intro h
    rw [splitMethod] at h
    cases hcut : Bytes.cut 40 operand with
    | none => simp only [hcut, reduceCtorEq] at h
    | some parts =>
      obtain ⟨before, after⟩ := parts
      cases hlast : Bytes.cutLast 46 before with
      | none => simp only [hcut, hlast, reduceCtorEq] at h
      | some parts =>
        simp only [hcut, hlast, Except.ok.injEq, Prod.mk.injEq] at h
        obtain ⟨rfl, rfl, rfl⟩ := h
        obtain ⟨rfl, hfirst⟩ := Bytes.cut_eq_some_iff.mp hcut
        obtain ⟨rfl, hundotted⟩ := Bytes.cutLast_eq_some_iff.mp hlast
        refine ⟨by simp [hdot], ⟨_, rfl⟩, fun hmem => hfirst ?_, hundotted⟩
        rcases List.mem_append.mp hmem with h | h
        · exact List.mem_append_left _ h
        · exact List.mem_append_right _ (List.mem_cons_of_mem _ h)
  · rintro ⟨rfl, ⟨rest, rfl⟩, hfirst, hundotted⟩
    have hcut : Bytes.cut 40 (owner ++ "." ++ name ++ 40 :: rest) =
        some (owner ++ 46 :: name, rest) :=
      Bytes.cut_eq_some_iff.mpr ⟨by simp [hdot], by simpa using hfirst⟩
    simp only [splitMethod, hcut, Bytes.cutLast_eq_some_iff.mpr ⟨rfl, hundotted⟩]

/-- Splitting gives the parts of an operand exactly when it is written as a field. -/
theorem splitField_eq_ok_iff {operand owner name descriptor : Bytes} :
    splitField operand = .ok (owner, name, descriptor) ↔
      IsFieldOperand operand owner name descriptor := by
  have hdot : Bytes.ofString "." = [46] := by decide
  have hcolon : Bytes.ofString ":" = [58] := by decide
  constructor
  · intro h
    rw [splitField] at h
    cases hcut : Bytes.cut 58 operand with
    | none => simp only [hcut, reduceCtorEq] at h
    | some parts =>
      obtain ⟨before, after⟩ := parts
      cases hlast : Bytes.cutLast 46 before with
      | none => simp only [hcut, hlast, reduceCtorEq] at h
      | some parts =>
        simp only [hcut, hlast, Except.ok.injEq, Prod.mk.injEq] at h
        obtain ⟨rfl, rfl, rfl⟩ := h
        obtain ⟨rfl, hfirst⟩ := Bytes.cut_eq_some_iff.mp hcut
        obtain ⟨rfl, hundotted⟩ := Bytes.cutLast_eq_some_iff.mp hlast
        refine ⟨by simp [hdot, hcolon], fun hmem => hfirst ?_, hundotted⟩
        rcases List.mem_append.mp hmem with h | h
        · exact List.mem_append_left _ h
        · exact List.mem_append_right _ (List.mem_cons_of_mem _ h)
  · rintro ⟨rfl, hfirst, hundotted⟩
    have hcut : Bytes.cut 58 (owner ++ "." ++ name ++ ":" ++ descriptor) =
        some (owner ++ 46 :: name, descriptor) :=
      Bytes.cut_eq_some_iff.mpr ⟨by simp [hdot, hcolon], by simpa using hfirst⟩
    simp only [splitField, hcut, Bytes.cutLast_eq_some_iff.mpr ⟨rfl, hundotted⟩]

/-- Whether a line calls a method or gets or sets a field, and which one it names. -/
inductive RefersTo (line : Bytes) : MemberRef → Prop
  /-- A call names a method, of an interface if it is a call through an interface. -/
  | call {op : Opcode} {owner name descriptor : Bytes} :
      Opcode.ofMnemonic? (splitLine line).1 = some op → op.isInvoke = true →
      IsMethodOperand (splitLine line).2 owner name descriptor →
      RefersTo line ⟨Descriptor.slashed owner, name, descriptor, op = .invokeinterface⟩
  /-- Every other opcode with a member operand and no further bytes is about a field. -/
  | field {op : Opcode} {owner name descriptor : Bytes} :
      Opcode.ofMnemonic? (splitLine line).1 = some op → op.isInvoke = false →
      op.operands = .member 0 → IsFieldOperand (splitLine line).2 owner name descriptor →
      RefersTo line ⟨Descriptor.slashed owner, name, descriptor, false⟩

/-- The mnemonics of the opcodes of a family. -/
def mnemonicsOf (family : Opcode → Bool) : List String :=
  Opcode.mnemonics.zipIdx.filterMap fun (m, i) => if family ⟨i.toUInt8⟩ then some m else none

example : mnemonicsOf (·.isInvoke) =
    ["invokevirtual", "invokespecial", "invokestatic", "invokeinterface"] := by
  decide +kernel

example : mnemonicsOf (fun op => !op.isInvoke && op.operands = .member 0) =
    ["getstatic", "putstatic", "getfield", "putfield"] := by
  decide +kernel

/-- The owner of a member is written with slashes. -/
theorem RefersTo.exists_owner {line : Bytes} {r : MemberRef} (h : RefersTo line r) :
    ∃ owner, r.owner = Descriptor.slashed owner := by
  cases h with
  | call => exact ⟨_, rfl⟩
  | field => exact ⟨_, rfl⟩

/-- A line that names a member has an opcode with a member operand. -/
theorem RefersTo.hasMemberOperand {line : Bytes} {r : MemberRef} (h : RefersTo line r) {op : Opcode}
    (hop : Opcode.ofMnemonic? (splitLine line).1 = some op) : op.hasMemberOperand = true := by
  cases h with
  | call hop' hinvoke =>
    obtain rfl := Option.some.inj (hop.symm.trans hop')
    simp only [Opcode.isInvoke, Bool.or_eq_true, decide_eq_true_eq] at hinvoke
    rcases hinvoke with ((rfl | rfl) | rfl) | rfl <;> rfl
  | field hop' _ hoperands =>
    obtain rfl := Option.some.inj (hop.symm.trans hop')
    rw [Opcode.hasMemberOperand, hoperands]

/-- A line names one member. -/
theorem RefersTo.unique {line : Bytes} {r r' : MemberRef} (h : RefersTo line r)
    (h' : RefersTo line r') : r = r' := by
  cases h with
  | call hop hinvoke h =>
    cases h' with
    | call hop' _ h' =>
      obtain rfl := Option.some.inj (hop.symm.trans hop')
      have hsplit := splitMethod_eq_ok_iff.mpr h
      rw [splitMethod_eq_ok_iff.mpr h'] at hsplit
      cases hsplit
      rfl
    | field hop' hfield _ _ =>
      obtain rfl := Option.some.inj (hop.symm.trans hop')
      rw [hinvoke] at hfield
      cases hfield
  | field hop hfield _ h =>
    cases h' with
    | call hop' hinvoke _ =>
      obtain rfl := Option.some.inj (hop.symm.trans hop')
      rw [hinvoke] at hfield
      cases hfield
    | field hop' _ _ h' =>
      have hsplit := splitField_eq_ok_iff.mpr h
      rw [splitField_eq_ok_iff.mpr h'] at hsplit
      cases hsplit
      rfl

/-- Whether a line is about a class, and which one it names. -/
def RefersToClass (line name : Bytes) : Prop :=
  ∃ op : Opcode, Opcode.ofMnemonic? (splitLine line).1 = some op ∧ op.hasClassOperand = true ∧
    name = Descriptor.slashed (splitLine line).2

example : mnemonicsOf (·.hasClassOperand) =
    ["new", "anewarray", "checkcast", "instanceof", "multianewarray"] := by
  decide +kernel

end ReturnAudit.Assembly
