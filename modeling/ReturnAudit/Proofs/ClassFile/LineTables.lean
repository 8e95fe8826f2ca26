import ReturnAudit.Proofs.Assembly.CodeRoundTrip
import ReturnAudit.Proofs.ClassFile.LineLookup
import ReturnAudit.Proofs.ClassFile.PoolLookups
import ReturnAudit.Proofs.ClassFile.TakenBytes

/-!
# The line tables of a body

How the bytes of a method body are laid out, as far as it takes to say which line tables they hold:
the sizes of the stack and of the locals, the code, the protected ranges of eight bytes each, and
the attributes with their names in the constants. A body that is read holds line tables in one way
only, any number of them with entries in any order, and the line of every position is the one that
these tables have for it.
-/

namespace ReturnAudit.ClassFile

open Assembly (beShort beWord tablesIn)

/-- Whether some bytes start with a line table: the number of its entries and two numbers for
each. -/
def IsLineTable (info : Bytes) (table : List LineNumber) : Prop :=
  ∃ (rows : List (UInt16 × UInt16)) (rest : Bytes), rows.length ≤ 65535 ∧
    table = rows.map (fun r => ⟨r.1.toNat, r.2.toNat⟩) ∧
    info = beShort rows.length ++
      (rows.map fun r => beShort r.1.toNat ++ beShort r.2.toNat).flatten ++ rest

/-- Whether some bytes are those of an attribute, whose name stands among the constants. -/
def IsAttribute (pool : Pool) (b : Bytes) (a : Attribute) : Prop :=
  ∃ index : UInt16, pool.utf8 index = .ok a.name ∧ a.info.length < 2 ^ 32 ∧
    b = beShort index.toNat ++ (beWord a.info.length ++ a.info)

/-- How the bytes of a method body are laid out. -/
structure BodyLayout (pool : Pool) (info : Bytes) where
  /-- The depth of the operand stack. -/
  maxStack : UInt16
  /-- The number of local variables. -/
  maxLocals : UInt16
  /-- The code array. -/
  code : Bytes
  /-- The bytes of each protected range. -/
  handlers : List Bytes
  /-- The bytes of each attribute. -/
  parts : List Bytes
  /-- The attributes. -/
  attributes : List Attribute
  /-- What follows the body. -/
  rest : Bytes
  /-- The length of the code fits four bytes. -/
  length_code : code.length < 2 ^ 32
  /-- The number of protected ranges fits two bytes. -/
  length_handlers : handlers.length ≤ 65535
  /-- A protected range is four numbers. -/
  length_handler : ∀ b ∈ handlers, b.length = 8
  /-- The number of attributes fits two bytes. -/
  length_parts : parts.length ≤ 65535
  /-- Each attribute is read from its bytes. -/
  isAttribute : List.Forall₂ (IsAttribute pool) parts attributes
  /-- The parts of the body follow each other. -/
  info_eq : info = beShort maxStack.toNat ++ (beShort maxLocals.toNat ++ (beWord code.length ++
    (code ++ (beShort handlers.length ++ (handlers.flatten ++
      (beShort parts.length ++ (parts.flatten ++ rest)))))))

/-- Whether the attributes of a body that are line tables are some tables, one after another. -/
def BodyLayout.Holds {pool : Pool} {info : Bytes} (layout : BodyLayout pool info)
    (tables : List (List LineNumber)) : Prop :=
  List.Forall₂ (fun a table => IsLineTable a.info table)
    (layout.attributes.filter fun a => a.name = Bytes.ofString "LineNumberTable") tables

/-! ## Tables -/

/-- As many readers in a row as there are parts take the parts one after another. -/
theorem Takes.many {α : Type} {R : α → Bytes → Prop} {item : Nat → Reader α}
    (h : ∀ i, Takes (item i) R) (count : Nat) :
    Takes (Reader.many count item) fun vs b =>
      ∃ parts, parts.length = count ∧ b = parts.flatten ∧
        List.Forall₂ (fun p v => R v p) parts vs := by
  have hfrom : ∀ first, Takes (Reader.manyFrom item first count) fun vs b =>
      ∃ parts, parts.length = count ∧ b = parts.flatten ∧
        List.Forall₂ (fun p v => R v p) parts vs := by
    induction count with
    | zero => exact fun first => .pure ⟨[], rfl, rfl, .nil⟩
    | succ count ih =>
      refine fun first => (h first).bind fun v b hv => (ih (first + 1)).bind fun vs b' hvs => ?_
      obtain ⟨parts, hlength, rfl, hparts⟩ := hvs
      refine .pure ⟨b :: parts, by rw [List.length_cons, hlength], ?_, .cons hv hparts⟩
      rw [List.append_nil, List.flatten_cons]
  exact hfrom 0

/-- The bytes of a row are its two numbers. -/
theorem takes_readLineNumber : Takes readLineNumber fun e b =>
    ∃ r : UInt16 × UInt16, e = ⟨r.1.toNat, r.2.toNat⟩ ∧
      b = beShort r.1.toNat ++ beShort r.2.toNat := by
  refine Takes.u2.bind fun pc b hb => Takes.u2.bind fun line b' hb' => .pure ⟨(pc, line), rfl, ?_⟩
  rw [hb, hb', List.append_nil]

private theorem exists_rows {parts : List Bytes} {entries : List LineNumber}
    (h : List.Forall₂ (fun p e => ∃ r : UInt16 × UInt16, e = ⟨r.1.toNat, r.2.toNat⟩ ∧
      p = beShort r.1.toNat ++ beShort r.2.toNat) parts entries) :
    ∃ rows : List (UInt16 × UInt16),
      parts = rows.map (fun r => beShort r.1.toNat ++ beShort r.2.toNat) ∧
        entries = rows.map fun r => ⟨r.1.toNat, r.2.toNat⟩ := by
  induction h with
  | nil => exact ⟨[], rfl, rfl⟩
  | cons hr _ ih =>
    obtain ⟨r, rfl, rfl⟩ := hr
    obtain ⟨rows, rfl, rfl⟩ := ih
    exact ⟨r :: rows, rfl, rfl⟩

/-- Two numbers are read as a row. -/
theorem reads_readLineNumber (r : UInt16 × UInt16) (o : Nat) :
    Reads o readLineNumber (beShort r.1.toNat ++ beShort r.2.toNat) ⟨r.1.toNat, r.2.toNat⟩ :=
  (Reads.u2_toNat r.1).bind (Reads.u2_toNat r.2).bind_pure

/-- A line table is read from the bytes that start with it. -/
theorem readLineNumbers_eq_ok_iff {info : Bytes} {table : List LineNumber} :
    readLineNumbers info = .ok table ↔ IsLineTable info table := by
  constructor
  · intro h
    obtain ⟨⟨vs, c⟩, hrun, rfl⟩ := of_map h
    obtain ⟨count, c', hcount, hmany⟩ := of_run_bind hrun
    obtain ⟨b, hinfo, -, rfl⟩ := Takes.u2 _ _ _ hcount
    obtain ⟨b', hrest, -, parts, hlength, rfl, hparts⟩ :=
      Takes.many (fun _ => takes_readLineNumber) _ _ _ _ hmany
    obtain ⟨rows, rfl, rfl⟩ := exists_rows hparts
    rw [List.length_map] at hlength
    have hbound := count.toNat_lt
    refine ⟨rows, c.rest, by omega, rfl, ?_⟩
    rw [hlength, List.append_assoc, ← hrest]
    exact hinfo
  · rintro ⟨rows, rest, hlength, rfl, rfl⟩
    have heach : ReadsEach (fun _ => readLineNumber)
        (rows.map fun r => beShort r.1.toNat ++ beShort r.2.toNat)
        (rows.map fun r => ⟨r.1.toNat, r.2.toNat⟩) :=
      List.forall₂_map_left_iff.mpr (List.forall₂_map_right_iff.mpr
        (List.forall₂_same.mpr fun r _ _ o => reads_readLineNumber r o))
    have hcounted := Reads.counted (o := 0) (Reads.u2 _) (by rwa [List.length_map]) heach rest
    rw [List.length_map] at hcounted
    rw [readLineNumbers, Reader.run, Cursor.start, hcounted]
    rfl

/-- The tables among some attributes are read from their contents. -/
theorem tablesIn_eq_ok_iff {attributes : List Attribute} {tables : List (List LineNumber)} :
    tablesIn attributes = .ok tables ↔ List.Forall₂ (fun a table => IsLineTable a.info table)
      (attributes.filter fun a => a.name = Bytes.ofString "LineNumberTable") tables := by
  simp only [tablesIn, mapM_eq_ok_iff, locate_eq_ok_iff, readLineNumbers_eq_ok_iff]

/-! ## Bodies -/

/-- What an attribute takes are the index of its name, its length and its content. -/
theorem takes_readAttribute (pool : Pool) :
    Takes (readAttribute pool) fun a b => IsAttribute pool b a := by
  refine Takes.u2.bind fun index b hb => ?_
  refine Takes.bind (R := fun name b' => pool.utf8 index = .ok name ∧ b' = [])
    (.look fun name h => ⟨locate_eq_ok_iff.mp h, rfl⟩) fun name b' hname => ?_
  refine Takes.u4.bind fun length b₂ hlength => ?_
  refine ((Takes.take _).within _).bind fun info b₃ hinfo => ?_
  obtain ⟨hname, rfl⟩ := hname
  obtain ⟨rfl, hsize⟩ := hinfo
  refine .pure ⟨index, hname, ?_, ?_⟩
  · exact hsize ▸ length.toNat_lt
  · rw [hb, hlength, hsize, List.nil_append, List.append_nil]

/-- Such bytes are read as the attribute. -/
theorem reads_readAttribute {pool : Pool} {b : Bytes} {a : Attribute} (h : IsAttribute pool b a)
    (o : Nat) : Reads o (readAttribute pool) b a := by
  obtain ⟨index, hname, hlength, rfl⟩ := h
  refine (Reads.u2_toNat index).bind ((Reads.look_locate _ hname).bind_nil ?_)
  refine (Reads.u4 a.info.length).bind ?_
  rw [toNat_toUInt32 hlength]
  exact ((Reads.take a.info).within _).bind_pure

/-- Two readers in a row that take so many bytes each. -/
private theorem takes_length_bind {α β : Type} {m n : Nat} {r : Reader α} {f : α → Reader β}
    (h : Takes r fun _ b => b.length = m) (hf : ∀ a, Takes (f a) fun _ b => b.length = n) :
    Takes (r >>= f) fun _ b => b.length = m + n := by
  refine h.bind fun a b hb => (hf a).mono fun v b' hb' => ?_
  rw [List.length_append, hb, hb']

/-- A protected range takes eight bytes. -/
theorem takes_readHandler (pool : Pool) (i : Nat) :
    Takes (readHandler pool i) fun _ b => b.length = 8 := by
  have hu2 : Takes Reader.u2 fun _ b => b.length = 2 :=
    Takes.u2.mono fun v b hb => by rw [hb]; rfl
  have hname : ∀ index, Takes (optionalClassName pool (.catchType i) index) fun _ b =>
      b.length = 0 := by
    intro index
    unfold optionalClassName
    split
    · exact .pure rfl
    · exact .map _ (.look fun _ _ => rfl)
  have hfields := takes_length_bind hu2 fun start => takes_length_bind hu2 fun stop =>
    takes_length_bind hu2 fun handler => takes_length_bind hu2 fun catchIndex =>
      Takes.pure (R := fun _ b => b.length = 0) (v := (start, stop, handler, catchIndex)) rfl
  exact takes_length_bind (hfields.within _) fun fields => takes_length_bind (hname _) fun _ =>
    .pure rfl

/-- A body that is read is laid out as a body, and its lines are those of its tables. -/
theorem exists_layout {pool : Pool} {info : Bytes} {code : Code}
    (h : readCode pool info = .ok code) : ∃ (layout : BodyLayout pool info)
      (tables : List (List LineNumber)), layout.Holds tables ∧ code.lines = sortLines tables := by
  obtain ⟨body, hbody, hcode⟩ := of_bind h
  obtain ⟨insns, -, hcode⟩ := of_bind hcode
  cases hcode
  obtain ⟨⟨body', c⟩, hrun, rfl⟩ := of_map hbody
  obtain ⟨maxStack, c₁, hmaxStack, hrun⟩ := of_run_bind hrun
  obtain ⟨maxLocals, c₂, hmaxLocals, hrun⟩ := of_run_bind hrun
  obtain ⟨length, c₃, hlength, hrun⟩ := of_run_bind hrun
  obtain ⟨bytes, c₄, hbytes, hrun⟩ := of_run_bind hrun
  obtain ⟨count, c₅, hcount, hrun⟩ := of_run_bind hrun
  obtain ⟨ranges, c₆, hranges, hrun⟩ := of_run_bind hrun
  obtain ⟨attributes, c₇, hattributes, hrun⟩ := of_run_bind hrun
  obtain ⟨tables, c₈, htables, hrun⟩ := of_run_bind hrun
  obtain ⟨rfl, -⟩ := of_run_pure hrun
  -- what each reader took, up to the tables, which are looked up in the attributes
  obtain ⟨b₁, hrest₁, -, rfl⟩ := Takes.u2.within _ _ _ _ hmaxStack
  obtain ⟨b₂, hrest₂, -, rfl⟩ := Takes.u2.within _ _ _ _ hmaxLocals
  obtain ⟨b₃, hrest₃, -, rfl⟩ := Takes.u4.within _ _ _ _ hlength
  obtain ⟨b₄, hrest₄, -, rfl, hsize⟩ := (Takes.take _).within _ _ _ _ hbytes
  obtain ⟨b₅, hrest₅, -, rfl⟩ := Takes.u2.within _ _ _ _ hcount
  obtain ⟨b₆, hrest₆, -, handlers, hhandlers, rfl, hhandler⟩ :=
    Takes.many (takes_readHandler pool) _ _ _ _ hranges
  obtain ⟨number, c₉, hnumber, hmany⟩ := of_run_bind (of_run_within hattributes)
  obtain ⟨b₇, hrest₇, -, rfl⟩ := Takes.u2 _ _ _ hnumber
  obtain ⟨b₈, hrest₈, -, parts, hparts, rfl, hattribute⟩ :=
    Takes.many (fun _ => takes_readAttribute pool) _ _ _ _ hmany
  obtain ⟨found, hfound, heq⟩ := of_map htables
  cases heq
  have hparts16 := number.toNat_lt
  have hcount16 := count.toNat_lt
  refine ⟨⟨maxStack, maxLocals, b₄, handlers, parts, attributes, c₇.rest, ?_, by omega, ?_,
    by omega, hattribute, ?_⟩, tables, ?_, rfl⟩
  · exact hsize ▸ length.toNat_lt
  · have hboth : List.Forall₂ (fun b _ => b.length = 8 ∧ True) handlers ranges :=
      hhandler.imp fun _ _ hb => ⟨hb, trivial⟩
    exact ((List.forall₂_and_left _ _).mp hboth).1
  · rw [hsize, hhandlers, hparts, ← hrest₈, ← hrest₇, ← hrest₆, ← hrest₅, ← hrest₄, ← hrest₃,
      ← hrest₂]
    exact hrest₁
  · exact tablesIn_eq_ok_iff.mp hfound

/-- Reads the line tables of a body and passes over everything else. -/
def readTables (pool : Pool) : Reader (List (List LineNumber)) := do
  let _ ← Reader.u2
  let _ ← Reader.u2
  let length ← Reader.u4
  let _ ← Reader.take length.toNat
  let count ← Reader.u2
  let _ ← Reader.many count.toNat fun _ => Reader.take 8
  let attributes ← readAttributes pool
  Reader.look (tablesIn attributes)

/-- The tables of a layout are the ones that reading its bytes gives. -/
theorem BodyLayout.Holds.run_readTables {pool : Pool} {info : Bytes}
    {layout : BodyLayout pool info} {tables : List (List LineNumber)} (h : layout.Holds tables) :
    (readTables pool).run info = .ok tables := by
  have hhandlers : ReadsEach (fun _ => Reader.take 8) layout.handlers layout.handlers := by
    refine List.forall₂_same.mpr fun b hb _ o => ?_
    exact layout.length_handler b hb ▸ Reads.take b
  have hattributes : ReadsEach (fun _ => readAttribute pool) layout.parts layout.attributes :=
    layout.isAttribute.imp fun _ _ ha _ o => reads_readAttribute ha o
  have hreads : Reads 0 (readTables pool) (beShort layout.maxStack.toNat ++
      (beShort layout.maxLocals.toNat ++ (beWord layout.code.length ++ (layout.code ++
        (beShort layout.handlers.length ++ (layout.handlers.flatten ++
          (beShort layout.parts.length ++ layout.parts.flatten))))))) tables := by
    refine (Reads.u2_toNat layout.maxStack).bind ((Reads.u2_toNat layout.maxLocals).bind ?_)
    refine (Reads.u4 layout.code.length).bind ?_
    rw [toNat_toUInt32 layout.length_code]
    refine (Reads.take layout.code).bind ((Reads.u2 layout.handlers.length).bind ?_)
    rw [toNat_toUInt16 layout.length_handlers]
    refine (Reads.many hhandlers).bind ?_
    refine (Reads.counted (Reads.u2 _) layout.length_parts hattributes).bind_last ?_
    exact Reads.look (tablesIn_eq_ok_iff.mpr h)
  have hrun := hreads layout.rest
  simp only [List.append_assoc] at hrun
  rw [← layout.info_eq] at hrun
  rw [Reader.run, Cursor.start, hrun]
  rfl

/-- The line of a position in a body that is read is the one that the line tables of the body have
for it, in the order in which they stand in the class file: that of the entry that starts latest at
or before the position, of several such entries that of the last one, and zero where there is none.
-/
theorem lineAt_eq_iff_lineIn {pool : Pool} {info : Bytes} {code : Code}
    (h : readCode pool info = .ok code) :
    (∃ (layout : BodyLayout pool info) (tables : List (List LineNumber)), layout.Holds tables) ∧
      ∀ (layout : BodyLayout pool info) (tables : List (List LineNumber)), layout.Holds tables →
        ∀ pc line : Int, code.lineAt pc = line ↔ LineIn tables.flatten pc line := by
  obtain ⟨layout, tables, hholds, hlines⟩ := exists_layout h
  refine ⟨⟨layout, tables, hholds⟩, fun layout' tables' hholds' pc line => ?_⟩
  obtain rfl : tables' = tables :=
    Except.ok.inj (hholds'.run_readTables.symm.trans hholds.run_readTables)
  have hline : LineIn tables'.flatten pc (code.lineAt pc) := by
    rw [Code.lineAt, hlines]
    exact lineIn_sortLines tables' pc
  constructor
  · rintro rfl
    exact hline
  · exact hline.unique

/-- The names of the attributes of a body with two line tables. -/
private def tableNames : Pool :=
  ⟨#[none, some (.utf8 "LineNumberTable"), some (.utf8 "Signature")]⟩

/-- A body with two line tables, which are not sorted and share a position, and another attribute
between them. -/
private def twoTables : Bytes :=
  [0, 2, 0, 1, 0, 0, 0, 1, 0xb1, 0, 0, 0, 3,
    0, 1, 0, 0, 0, 10, 0, 2, 0, 5, 0, 20, 0, 0, 0, 10,
    0, 2, 0, 0, 0, 0,
    0, 1, 0, 0, 0, 10, 0, 2, 0, 5, 0, 21, 0, 9, 0, 30]

/-- The parts of this body. -/
private def twoTablesLayout : BodyLayout tableNames twoTables where
  maxStack := 2
  maxLocals := 1
  code := [0xb1]
  handlers := []
  parts := [[0, 1, 0, 0, 0, 10, 0, 2, 0, 5, 0, 20, 0, 0, 0, 10], [0, 2, 0, 0, 0, 0],
    [0, 1, 0, 0, 0, 10, 0, 2, 0, 5, 0, 21, 0, 9, 0, 30]]
  attributes := [⟨"LineNumberTable", [0, 2, 0, 5, 0, 20, 0, 0, 0, 10]⟩, ⟨"Signature", []⟩,
    ⟨"LineNumberTable", [0, 2, 0, 5, 0, 21, 0, 9, 0, 30]⟩]
  rest := []
  length_code := by decide
  length_handlers := by decide
  length_handler := by decide
  length_parts := by decide
  isAttribute := .cons ⟨1, rfl, by decide, rfl⟩ (.cons ⟨2, rfl, by decide, rfl⟩
    (.cons ⟨1, rfl, by decide, rfl⟩ .nil))
  info_eq := rfl

/-- The later of two entries for one position stands, and before the first entry there is no
line. -/
theorem lineAt_eq_iff_lineIn_twoTables :
    let tables : List (List LineNumber) := [[⟨5, 20⟩, ⟨0, 10⟩], [⟨5, 21⟩, ⟨9, 30⟩]]
    ∃ code, readCode tableNames twoTables = .ok code ∧ twoTablesLayout.Holds tables ∧
      code.lineAt (-1) = 0 ∧ code.lineAt 4 = 10 ∧ code.lineAt 8 = 21 := by
  intro tables
  have hcode : readCode tableNames twoTables = .ok ⟨2, 1, [0xb1], [⟨0, ⟨0xb1⟩, 1, 0, none, none⟩],
      [], sortLines tables⟩ := rfl
  have hholds : twoTablesLayout.Holds tables :=
    .cons ⟨[(5, 20), (0, 10)], [], by decide, rfl, rfl⟩
      (.cons ⟨[(5, 21), (9, 30)], [], by decide, rfl, rfl⟩ .nil)
  have hlines := (lineAt_eq_iff_lineIn hcode).2 twoTablesLayout tables hholds
  refine ⟨_, hcode, hholds, ?_, ?_, ?_⟩
  · exact (hlines (-1) 0).mpr (.uncovered (by decide))
  · exact (hlines 4 10).mpr (.covered [⟨5, 20⟩] ⟨0, 10⟩ [⟨5, 21⟩, ⟨9, 30⟩] rfl (by decide)
      (by decide) (by decide))
  · exact (hlines 8 21).mpr (.covered [⟨5, 20⟩, ⟨0, 10⟩] ⟨5, 21⟩ [⟨9, 30⟩] rfl (by decide)
      (by decide) (by decide))

end ReturnAudit.ClassFile
