import ReturnAudit.Proofs.Assembly.Instructions
import ReturnAudit.Proofs.Assembly.Writing

/-!
# Method bodies read back

The body of a described method is an attribute that holds its code, its protected ranges and, when
the first line is known, a line table. The table is written in the order of the instructions, which
is the order of their positions, so sorting it by position changes nothing.
-/

namespace ReturnAudit.Assembly

open ClassFile (Pool Reads ReadsEach Reader Attribute ExceptionRange LineNumber readAttribute)

/-- Whether a number fits two bytes. -/
def FitsShort (n : Int) : Prop := 0 ≤ n ∧ n ≤ 65535

instance : DecidablePred FitsShort :=
  fun n => inferInstanceAs (Decidable (0 ≤ n ∧ n ≤ 65535))

/-- The low bytes of a number that fits two bytes are its bytes. -/
theorem lowShort_natCast {n : Nat} (h : n ≤ 65535) : lowShort n = beShort n := by
  have hmod : (n : Int) % (2 ^ 16 : Nat) = n := by omega
  rw [lowShort, BitVec.toNat_ofInt, hmod, Int.toNat_natCast]

/-- The low bytes of a number are two. -/
theorem length_lowShort (n : Int) : (lowShort n).length = 2 := rfl

/-- A number that fits is read back from its two low bytes. -/
theorem reads_lowShort {n : Int} (h : FitsShort n) :
    ∃ v : UInt16, (v.toNat : Int) = n ∧ ∀ o, Reads o Reader.u2 (lowShort n) v := by
  obtain ⟨k, rfl⟩ := Int.eq_ofNat_of_zero_le h.1
  have hk : k ≤ 65535 := Int.ofNat_le.mp h.2
  refine ⟨k.toUInt16, ?_, fun o => ?_⟩
  · rw [ClassFile.toNat_toUInt16 hk]
  · rw [lowShort_natCast hk]
    exact Reads.u2 k

/-- What a protected range must keep within its fields. -/
@[mk_iff] structure HandlerFits (h : Handler) : Prop where
  /-- The first protected position fits. -/
  start : FitsShort h.start
  /-- The first position after the range fits. -/
  stop : FitsShort h.stop
  /-- The position of the handler fits. -/
  handler : FitsShort h.handler

instance : DecidablePred HandlerFits :=
  fun h => decidable_of_iff _ (handlerFits_iff h).symm

/-- A protected range as it is read. -/
def rangeOf (h : Handler) : ExceptionRange :=
  ⟨h.start, h.stop, h.handler, Descriptor.dotted h.catchType⟩

/-- A protected range is written so that it is read as the same range. -/
theorem writes_handler {h : Handler} (hfits : HandlerFits h) :
    Writes (encodeHandler h) fun cp b => TakenAs 8 (ClassFile.readHandler cp) (rangeOf h) b := by
  refine (writes_optionalClass _).bind fun catchType => Writes.pure ?_
  rintro cp ⟨i, rfl, hi⟩
  obtain ⟨start, hstart, hreads₁⟩ := reads_lowShort hfits.start
  obtain ⟨stop, hstop, hreads₂⟩ := reads_lowShort hfits.stop
  obtain ⟨handler, hhandler, hreads₃⟩ := reads_lowShort hfits.handler
  have hrange : rangeOf h =
      ⟨start.toNat, stop.toNat, handler.toNat, Descriptor.dotted h.catchType⟩ := by
    rw [rangeOf, hstart, hstop, hhandler]
  refine ⟨rfl, fun k o => ?_⟩
  unfold ClassFile.readHandler
  rw [hrange, List.append_assoc, List.append_assoc]
  exact Reads.bind_last (((hreads₁ _).bind ((hreads₂ _).bind
    ((hreads₃ _).bind (Reads.u2_toNat i).bind_pure))).within _) (hi _ _).bind_pure

/-- The lines of instructions at some positions. -/
def lineTable (firstLine : Int) (pcs : List Nat) : List LineNumber :=
  pcs.zipIdx.map fun (pc, i) => ⟨pc, firstLine + i⟩

/-- What a line table must keep within its fields. -/
structure LinesFit (firstLine : Int) (pcs : List Nat) : Prop where
  /-- The first line is known. -/
  known : 0 < firstLine
  /-- Every position fits. -/
  positions : ∀ pc ∈ pcs, pc ≤ 65535
  /-- Every line fits. -/
  lines : ∀ i < pcs.length, firstLine + i ≤ 65535

/-- Lines that fit a table are not too many to be counted in two bytes. -/
theorem LinesFit.length_le {firstLine : Int} {pcs : List Nat} (h : LinesFit firstLine pcs) :
    pcs.length ≤ 65535 := by
  have hknown := h.known
  cases hlength : pcs.length with
  | zero => omega
  | succ n =>
    have hlast := h.lines n (by omega)
    omega

/-- An entry of a line table is read back. -/
private theorem reads_readLineNumber {pc : Nat} {line : Int} (hpc : pc ≤ 65535)
    (hline : FitsShort line) (o : Nat) :
    Reads o ClassFile.readLineNumber (beShort pc ++ lowShort line) ⟨pc, line⟩ := by
  obtain ⟨v, hv, hreads⟩ := reads_lowShort hline
  have hentry : LineNumber.mk pc line = ⟨pc.toUInt16.toNat, v.toNat⟩ := by
    rw [ClassFile.toNat_toUInt16 hpc, hv]
  rw [hentry]
  exact (Reads.u2 pc).bind (hreads _).bind_pure

/-- A line table is read back. -/
theorem readLineNumbers_encodeLines {firstLine : Int} {pcs : List Nat}
    (h : LinesFit firstLine pcs) :
    ClassFile.readLineNumbers (encodeLines firstLine pcs) = .ok (lineTable firstLine pcs) := by
  let entries := pcs.zipIdx.map fun (pc, i) => beShort pc ++ lowShort (firstLine + i)
  have hlength : entries.length = pcs.length := by
    rw [List.length_map, List.length_zipIdx]
  have hreads : ReadsEach (fun _ => ClassFile.readLineNumber) entries
      (lineTable firstLine pcs) := by
    refine List.forall₂_map_left_iff.mpr (List.forall₂_map_right_iff.mpr
      (List.forall₂_same.mpr ?_))
    rintro ⟨pc, i⟩ hmem _ o
    obtain ⟨hi, hpc⟩ := List.mem_zipIdx' hmem
    have hknown := h.known
    have hline := h.lines i hi
    exact reads_readLineNumber (h.positions pc (hpc ▸ List.getElem_mem hi)) ⟨by omega, hline⟩ o
  have hcounted := Reads.counted (o := 0) (Reads.u2 entries.length) (hlength ▸ h.length_le) hreads
  rw [hlength] at hcounted
  exact ClassFile.run_eq_of_reads hcounted

/-- A line table for increasing positions is already sorted. -/
theorem sortLines_lineTable {firstLine : Int} {pcs : List Nat} (h : pcs.Pairwise (· < ·)) :
    ClassFile.sortLines [lineTable firstLine pcs] = (lineTable firstLine pcs).toArray := by
  have hsorted : (lineTable firstLine pcs).Pairwise fun a b =>
      decide (a.startPc ≤ b.startPc) = true := by
    refine List.pairwise_map.mpr ?_
    rw [← List.zipIdx_map_fst 0 pcs, List.pairwise_map] at h
    exact h.imp fun hlt => decide_eq_true (Int.ofNat_le.mpr (Nat.le_of_lt hlt))
  rw [ClassFile.sortLines, List.flatten_singleton, List.mergeSort_of_pairwise hsorted]

/-- The lines of a body: none unless the first line is known. -/
def linesOf (firstLine : Int) (pcs : List Nat) : Array LineNumber :=
  if 0 < firstLine then (lineTable firstLine pcs).toArray else #[]

/-- The number of bytes that the line table of some instructions takes as an attribute. -/
def lineTableSize (firstLine : Int) (count : Nat) : Nat :=
  if 0 < firstLine then 8 + 4 * count else 0

/-- A line table has two bytes and four for each line. -/
theorem length_encodeLines (firstLine : Int) (pcs : List Nat) :
    (encodeLines firstLine pcs).length = 2 + 4 * pcs.length := by
  simp only [encodeLines, List.length_append, List.length_flatMap, length_beShort, length_lowShort,
    Nat.reduceAdd, List.map_const', List.sum_replicate_nat, List.length_zipIdx, Nat.mul_comm]

/-- The tables among some attributes of a body. -/
def tablesIn (attrs : List Attribute) : Except ClassFile.ReadError (List (List LineNumber)) :=
  (attrs.filter fun a => a.name = Bytes.ofString "LineNumberTable").mapM fun a =>
    ClassFile.locate .lineNumbers (ClassFile.readLineNumbers a.info)

/-- The attributes of a body hold its lines. -/
theorem writes_lineTable {firstLine : Int} {pcs : List Nat} (hincreasing : pcs.Pairwise (· < ·))
    (hfits : 0 < firstLine → LinesFit firstLine pcs) :
    Writes (encodeLineTable firstLine pcs) fun cp b =>
      b.length = 2 + lineTableSize firstLine pcs.length ∧ ∃ attrs tables,
        (∀ o, Reads o (ClassFile.readAttributes cp) b attrs) ∧ tablesIn attrs = .ok tables ∧
          ClassFile.sortLines tables = linesOf firstLine pcs := by
  unfold encodeLineTable linesOf lineTableSize
  by_cases hknown : 0 < firstLine
  · simp only [if_pos hknown]
    have hlines := hfits hknown
    have hlength := length_encodeLines firstLine pcs
    have hcount := hlines.length_le
    refine (writes_attribute "LineNumberTable" _).bind fun lines => Writes.pure ?_
    intro cp hattribute
    obtain ⟨hsize, hreads⟩ := hattribute (by omega)
    refine ⟨?_, [⟨"LineNumberTable", encodeLines firstLine pcs⟩], [lineTable firstLine pcs],
      fun o => ?_, ?_, sortLines_lineTable hincreasing⟩
    · rw [List.length_append, hsize, hlength, length_beShort]
      omega
    · have hone : [lines].length ≤ 65535 := by rw [List.length_singleton]; decide
      have hcounted := Reads.counted (o := o) (Reads.u2 _) hone (.cons hreads .nil)
      rwa [List.flatten_singleton] at hcounted
    · simp only [tablesIn, List.filter_cons, decide_true, if_true, List.filter_nil,
        List.mapM_cons, List.mapM_nil, readLineNumbers_encodeLines hlines]
      rfl
  · simp only [if_neg hknown]
    refine Writes.pure fun cp => ⟨rfl, [], [], fun o => ?_, rfl, ?_⟩
    · exact (Reads.u2 0).bind_last (Reads.pure [])
    · rw [ClassFile.sortLines, List.flatten_nil, List.mergeSort_nil]

/-- The number of bytes of the attribute that holds the body of a method. -/
def bodySize (m : Method) : Nat :=
  12 + codeLength m.code + 8 * m.handlers.length + lineTableSize m.firstLine m.code.length

/-- What the body of a method must keep within its fields. -/
@[mk_iff] structure CodeFits (m : Method) : Prop where
  /-- The protected ranges are counted. -/
  handlerCount : m.handlers.length ≤ 65535
  /-- Each protected range fits. -/
  handlers : ∀ h ∈ m.handlers, HandlerFits h
  /-- The attribute gives its length in four bytes. -/
  size : bodySize m < 2 ^ 32
  /-- When there is a line table, every position fits. -/
  positions : 0 < m.firstLine → codeLength m.code ≤ 65535
  /-- When there is a line table, every line fits. -/
  lines : 0 < m.firstLine → ∀ i < m.code.length, m.firstLine + i ≤ 65535

instance : DecidablePred CodeFits :=
  fun m => decidable_of_iff _ (codeFits_iff m).symm

/-- The lines of a method that fits make up a table that fits. -/
theorem CodeFits.linesFit {m : Method} (hfits : CodeFits m) {p q : PoolBuilder} {code : Bytes}
    {pcs : List Nat} (h : Assembles m.code 0 p code pcs q) (hknown : 0 < m.firstLine) :
    LinesFit m.firstLine pcs := by
  refine ⟨hknown, ?_, ?_⟩
  · intro pc hpc
    have hlast := (h.increasing.2 pc hpc).2
    have hlength := hfits.positions hknown
    rw [h.length_eq] at hlast
    omega
  · rw [h.length_pcs]
    exact hfits.lines hknown

/-- What stands in a method body before its instructions are decoded is read back. -/
theorem reads_readBody {cp : Pool} {code attributes : Bytes} {handlers : List Bytes}
    {ranges : List ExceptionRange} {attrs : List Attribute} {tables : List (List LineNumber)}
    (hcode : code.length < 2 ^ 32) (hcount : handlers.length ≤ 65535)
    (hranges : ReadsEach (ClassFile.readHandler cp) handlers ranges)
    (hattrs : ∀ o, Reads o (ClassFile.readAttributes cp) attributes attrs)
    (htables : tablesIn attrs = .ok tables) :
    Reads 0 (ClassFile.readBody cp) (beShort 16 ++ beShort 16 ++ beWord code.length ++ code
      ++ beShort handlers.length ++ handlers.flatten ++ attributes)
      ⟨16, 16, code, [], ranges, ClassFile.sortLines tables⟩ := by
  simp only [List.append_assoc]
  refine ((Reads.u2 16).within _).bind (((Reads.u2 16).within _).bind ?_)
  refine ((Reads.u4 _).within _).bind ?_
  rw [ClassFile.toNat_toUInt32 hcode]
  refine ((Reads.take code).within _).bind (((Reads.u2 _).within _).bind ?_)
  rw [ClassFile.toNat_toUInt16 hcount]
  refine (Reads.many hranges).bind (((hattrs _).within _).bind_last ?_)
  exact (Reads.look htables).bind_pure

/-- The body of a method as it is read. -/
def codeOf (m : Method) (code : Bytes) (pcs : List Nat) (insns : List ClassFile.Instruction) :
    ClassFile.Code :=
  ⟨16, 16, code, insns, m.handlers.map rangeOf, linesOf m.firstLine pcs⟩

/-- The body of a method is read back from its attribute when its code is decoded. -/
theorem writes_code {m : Method} (hfits : CodeFits m) {p q : PoolBuilder} {code : Bytes}
    {pcs : List Nat} (h : Assembles m.code 0 p code pcs q) :
    Writes (encodeCode m code pcs) fun cp b => ∃ info,
      (∀ (_ : Nat) o, Reads o (readAttribute cp) b ⟨"Code", info⟩) ∧
        ∀ insns, ClassFile.decode (some cp) code = .ok insns →
          ClassFile.readCode cp info = .ok (codeOf m code pcs insns) := by
  refine (Writes.mapM fun e he => writes_handler (hfits.handlers e he)).bind fun handlers => ?_
  refine (writes_lineTable h.increasing.1 (hfits.linesFit h)).bind fun attributes => ?_
  refine (writes_attribute "Code" _).mono ?_
  rintro cp b hattribute ⟨hsize, attrs, tables, hattrs, htables, hlines⟩ hhandlers
  obtain ⟨hcount, hlength, hranges⟩ := takenAs_list hhandlers
  rw [List.map_const', List.sum_replicate_nat] at hlength
  -- the length of the code fits because that of the whole attribute does
  have hcode : code.length < 2 ^ 32 := by
    have hbody := hfits.size
    rw [bodySize, ← h.length_eq] at hbody
    omega
  refine ⟨_, (hattribute ?_).2, ?_⟩
  · have hbody := hfits.size
    rw [bodySize, ← h.length_eq, ← h.length_pcs] at hbody
    simp only [List.length_append, length_beShort, length_beWord, hlength, hsize]
    omega
  · intro insns hinsns
    have hbody := reads_readBody hcode (hcount ▸ hfits.handlerCount) hranges hattrs htables
    rw [hcount, hlines] at hbody
    rw [ClassFile.readCode, ClassFile.run_eq_of_reads hbody]
    simp only [bind, Except.bind, codeOf, hinsns]
    rfl

end ReturnAudit.Assembly
