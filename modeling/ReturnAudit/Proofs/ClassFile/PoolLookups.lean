import ReturnAudit.ClassFile.Constant
import ReturnAudit.Proofs.Steps

/-!
# What an index leads to

A constant stands at an index or none does. Classes, names with a type and members are found by
going from a constant to those it refers to, until texts are reached. A look-up succeeds exactly
when every constant on the way stands where it is looked for and is of the kind that is wanted.
-/

namespace ReturnAudit.ClassFile

/-- A fault is only told from further out. -/
theorem locate_eq_ok_iff {α : Type} {place : Place} {result : Except ReadError α} {a : α} :
    locate place result = .ok a ↔ result = .ok a := by
  cases result with
  | ok b => rfl
  | error e =>
    refine iff_of_false ?_ ?_
    · rintro ⟨⟩
    · rintro ⟨⟩

namespace Pool

variable {pool : Pool} {index : UInt16}

/-- Whether a constant stands at an index. Nothing stands at index zero. -/
def Holds (pool : Pool) (index : UInt16) (c : Constant) : Prop :=
  index ≠ 0 ∧ pool.entries[index.toNat]? = some (some c)

instance (pool : Pool) (index : UInt16) (c : Constant) : Decidable (pool.Holds index c) :=
  inferInstanceAs (Decidable (_ ∧ _))

/-- Whether an index leads to a class with a name. -/
def ClassAt (pool : Pool) (index : UInt16) (name : Bytes) : Prop :=
  ∃ i, pool.Holds index (.classRef i) ∧ pool.Holds i (.utf8 name)

/-- Whether an index leads to a name and a descriptor. -/
def TypedNameAt (pool : Pool) (index : UInt16) (name descriptor : Bytes) : Prop :=
  ∃ i j, pool.Holds index (.nameAndType i j) ∧ pool.Holds i (.utf8 name) ∧
    pool.Holds j (.utf8 descriptor)

/-- Whether an index leads to a field, a method or a dynamic call site. -/
inductive MemberAt (pool : Pool) (index : UInt16) : MemberRef → Prop
  /-- A field of a class. -/
  | field {i j : UInt16} {owner name descriptor : Bytes} :
      pool.Holds index (.fieldRef i j) → pool.ClassAt i owner →
      pool.TypedNameAt j name descriptor → MemberAt pool index ⟨owner, name, descriptor, false⟩
  /-- A method of a class. -/
  | method {i j : UInt16} {owner name descriptor : Bytes} :
      pool.Holds index (.methodRef i j) → pool.ClassAt i owner →
      pool.TypedNameAt j name descriptor → MemberAt pool index ⟨owner, name, descriptor, false⟩
  /-- A method of an interface. -/
  | interfaceMethod {i j : UInt16} {owner name descriptor : Bytes} :
      pool.Holds index (.interfaceMethodRef i j) → pool.ClassAt i owner →
      pool.TypedNameAt j name descriptor → MemberAt pool index ⟨owner, name, descriptor, true⟩
  /-- A value that is computed when it is first asked for; it belongs to no class. -/
  | dynamic {bootstrap j : UInt16} {name descriptor : Bytes} :
      pool.Holds index (.dynamic bootstrap j) → pool.TypedNameAt j name descriptor →
      MemberAt pool index ⟨[], name, descriptor, false⟩
  /-- A dynamic call site; it belongs to no class. -/
  | invokeDynamic {bootstrap j : UInt16} {name descriptor : Bytes} :
      pool.Holds index (.invokeDynamic bootstrap j) → pool.TypedNameAt j name descriptor →
      MemberAt pool index ⟨[], name, descriptor, false⟩

/-- Looking for constants of some kinds finds the one that stands at the index, if it is of these
kinds. -/
theorem get_eq_ok_iff {wanted : List Nat} {c : Constant} :
    pool.get index wanted = .ok c ↔ pool.Holds index c ∧ c.tag ∈ wanted := by
  unfold Pool.get Holds
  cases hentry : pool.entries[index.toNat]? with
  | none => simp
  | some entry =>
    by_cases hzero : index = 0
    · simp [hzero]
    · cases entry with
      | none => simp [hzero]
      | some d =>
        by_cases htag : d.tag ∈ wanted
        · simp only [hzero, if_false, List.contains_iff_mem.mpr htag, if_true, Except.ok.injEq,
            ne_eq, not_false_eq_true, Option.some.injEq, true_and]
          constructor
          · rintro rfl
            exact ⟨rfl, htag⟩
          · exact fun h => h.1
        · have hcontains : wanted.contains d.tag = false := by simpa using htag
          simp only [hzero, if_false, hcontains, Bool.false_eq_true, ne_eq, not_false_eq_true,
            Option.some.injEq, true_and, reduceCtorEq, false_iff, not_and]
          rintro rfl
          exact htag

private theorem get_of_holds {wanted : List Nat} {c : Constant} (h : pool.Holds index c)
    (htag : c.tag ∈ wanted) : pool.get index wanted = .ok c :=
  get_eq_ok_iff.mpr ⟨h, htag⟩

/-- A text is found exactly where the pool holds it. -/
theorem utf8_eq_ok_iff {text : Bytes} :
    pool.utf8 index = .ok text ↔ pool.Holds index (.utf8 text) := by
  unfold Pool.utf8
  constructor
  · intro h
    obtain ⟨c, hget, hc⟩ := of_bind h
    obtain ⟨hholds, -⟩ := get_eq_ok_iff.mp hget
    cases c <;> cases hc
    exact hholds
  · intro h
    have hget : pool.get index [1] = .ok (.utf8 text) := get_of_holds h (List.mem_singleton.mpr rfl)
    rw [hget]
    rfl

/-- The name of a class is found exactly where the class stands. -/
theorem className_eq_ok_iff {name : Bytes} :
    pool.className index = .ok name ↔ pool.ClassAt index name := by
  unfold Pool.className
  constructor
  · intro h
    obtain ⟨c, hget, hc⟩ := of_bind h
    obtain ⟨hholds, -⟩ := get_eq_ok_iff.mp hget
    cases c with
    | classRef i => exact ⟨i, hholds, utf8_eq_ok_iff.mp hc⟩
    | _ => cases hc
  · rintro ⟨i, hholds, htext⟩
    have hget : pool.get index [7] = .ok (.classRef i) :=
      get_of_holds hholds (List.mem_singleton.mpr rfl)
    rw [hget]
    exact utf8_eq_ok_iff.mpr htext

/-- A name with a descriptor is found exactly where the two stand. -/
theorem nameAndType_eq_ok_iff {name descriptor : Bytes} :
    pool.nameAndType index = .ok (name, descriptor) ↔ pool.TypedNameAt index name descriptor := by
  unfold Pool.nameAndType
  constructor
  · intro h
    obtain ⟨c, hget, hc⟩ := of_bind h
    obtain ⟨hholds, -⟩ := get_eq_ok_iff.mp hget
    cases c with
    | nameAndType i j =>
      obtain ⟨n, hn, hc⟩ := of_bind hc
      obtain ⟨d, hd, hpure⟩ := of_bind hc
      cases hpure
      exact ⟨i, j, hholds, utf8_eq_ok_iff.mp hn, utf8_eq_ok_iff.mp hd⟩
    | _ => cases hc
  · rintro ⟨i, j, hholds, hn, hd⟩
    have hget : pool.get index [12] = .ok (.nameAndType i j) :=
      get_of_holds hholds (List.mem_singleton.mpr rfl)
    rw [hget]
    simp only [bind, Except.bind, utf8_eq_ok_iff.mpr hn, utf8_eq_ok_iff.mpr hd]
    rfl

private theorem ownedMember_eq_ok_iff {i j : UInt16} {isInterface : Bool} {m : MemberRef} :
    pool.ownedMember index i j isInterface = .ok m ↔
      pool.ClassAt i m.owner ∧ pool.TypedNameAt j m.name m.descriptor ∧
        m.isInterface = isInterface := by
  unfold Pool.ownedMember
  constructor
  · intro h
    obtain ⟨o, ho, h⟩ := of_bind h
    obtain ⟨⟨n, d⟩, hnd, hpure⟩ := of_bind h
    cases hpure
    exact ⟨className_eq_ok_iff.mp (locate_eq_ok_iff.mp ho),
      nameAndType_eq_ok_iff.mp (locate_eq_ok_iff.mp hnd), rfl⟩
  · rintro ⟨hclass, hnd, rfl⟩
    rw [className_eq_ok_iff.mpr hclass, nameAndType_eq_ok_iff.mpr hnd]
    rfl

private theorem dynamicMember_eq_ok_iff {j : UInt16} {m : MemberRef} :
    pool.dynamicMember index j = .ok m ↔
      m.owner = [] ∧ pool.TypedNameAt j m.name m.descriptor ∧ m.isInterface = false := by
  unfold Pool.dynamicMember
  constructor
  · intro h
    obtain ⟨⟨n, d⟩, hnd, hpure⟩ := of_bind h
    cases hpure
    exact ⟨rfl, nameAndType_eq_ok_iff.mp (locate_eq_ok_iff.mp hnd), rfl⟩
  · obtain ⟨owner, name, descriptor, isInterface⟩ := m
    rintro ⟨rfl, hnd, rfl⟩
    rw [nameAndType_eq_ok_iff.mpr hnd]
    rfl

/-- A member is found exactly when all constants that tell about it are. -/
theorem member_eq_ok_iff {m : MemberRef} :
    pool.member index = .ok m ↔ pool.MemberAt index m := by
  unfold Pool.member
  constructor
  · intro h
    obtain ⟨c, hget, hc⟩ := of_bind h
    obtain ⟨hholds, -⟩ := get_eq_ok_iff.mp hget
    obtain ⟨owner, name, descriptor, isInterface⟩ := m
    cases c with
    | fieldRef i j =>
      obtain ⟨hclass, hnd, rfl⟩ := ownedMember_eq_ok_iff.mp hc
      exact .field hholds hclass hnd
    | methodRef i j =>
      obtain ⟨hclass, hnd, rfl⟩ := ownedMember_eq_ok_iff.mp hc
      exact .method hholds hclass hnd
    | interfaceMethodRef i j =>
      obtain ⟨hclass, hnd, rfl⟩ := ownedMember_eq_ok_iff.mp hc
      exact .interfaceMethod hholds hclass hnd
    | dynamic i j =>
      obtain ⟨rfl, hnd, rfl⟩ := dynamicMember_eq_ok_iff.mp hc
      exact .dynamic hholds hnd
    | invokeDynamic i j =>
      obtain ⟨rfl, hnd, rfl⟩ := dynamicMember_eq_ok_iff.mp hc
      exact .invokeDynamic hholds hnd
    | _ => cases hc
  · -- the tags of all five kinds are among those that are looked for
    have hfound : ∀ {c : Constant}, pool.Holds index c → c.tag ∈ memberTags →
        pool.get index memberTags = .ok c := fun hholds htag => get_of_holds hholds htag
    rintro (⟨hholds, hclass, hnd⟩ | ⟨hholds, hclass, hnd⟩ | ⟨hholds, hclass, hnd⟩ |
      ⟨hholds, hnd⟩ | ⟨hholds, hnd⟩)
    · rw [hfound hholds (by simp [Constant.tag, memberTags])]
      exact ownedMember_eq_ok_iff.mpr ⟨hclass, hnd, rfl⟩
    · rw [hfound hholds (by simp [Constant.tag, memberTags])]
      exact ownedMember_eq_ok_iff.mpr ⟨hclass, hnd, rfl⟩
    · rw [hfound hholds (by simp [Constant.tag, memberTags])]
      exact ownedMember_eq_ok_iff.mpr ⟨hclass, hnd, rfl⟩
    · rw [hfound hholds (by simp [Constant.tag, memberTags])]
      exact dynamicMember_eq_ok_iff.mpr ⟨rfl, hnd, rfl⟩
    · rw [hfound hholds (by simp [Constant.tag, memberTags])]
      exact dynamicMember_eq_ok_iff.mpr ⟨rfl, hnd, rfl⟩

end Pool

end ReturnAudit.ClassFile
