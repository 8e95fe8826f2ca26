import ReturnAudit.ClassFile.Attribute
import ReturnAudit.ClassFile.Descriptor
import ReturnAudit.ClassFile.Instruction

/-!
# Method bodies

A method body holds its instructions, the ranges of code that an exception handler protects and a
table from code positions to source lines.
-/

namespace ReturnAudit.ClassFile

/-- A protected range of code and its handler. -/
structure ExceptionRange where
  /-- The first protected position. -/
  startPc : Int
  /-- The first position after the range. -/
  endPc : Int
  /-- Where the handler starts. -/
  handlerPc : Int
  /-- The dotted name of the caught class; empty when everything is caught. -/
  catchType : Bytes
  deriving DecidableEq, Repr

namespace ExceptionRange

/-- Whether a position is protected. -/
def contains (r : ExceptionRange) (pc : Int) : Bool :=
  r.startPc ≤ pc && pc < r.endPc

/-- The number of protected bytes, as a 64-bit number. -/
def width (r : ExceptionRange) : Int :=
  (r.endPc - r.startPc).bmod (1 <<< 64)

/-- The better of two candidates: the new one only if it is narrower. -/
def narrower (best : Option ExceptionRange) (r : ExceptionRange) : Option ExceptionRange :=
  match best with
  | none => some r
  | some b => if r.width < b.width then some r else some b

/-- The narrowest range that protects a position; of several, the first. -/
def narrowest (ranges : List ExceptionRange) (pc : Int) : Option ExceptionRange :=
  (ranges.filter (·.contains pc)).foldl narrower none

end ExceptionRange

/-- The source line of the code from a position on. -/
structure LineNumber where
  /-- The first position. -/
  startPc : Int
  /-- The source line. -/
  line : Int
  deriving DecidableEq, Repr

namespace LineNumber

/-- Halves the interval from `lo` to `hi` until it is empty; what lies below it starts at `pc` or
before, as far as the halving has looked. -/
def search (lines : Array LineNumber) (pc : Int) (lo hi : Nat) : Nat :=
  if lo < hi then
    let mid := (lo + hi) / 2
    match lines[mid]? with
    | some entry =>
      if entry.startPc > pc then search lines pc lo mid else search lines pc (mid + 1) hi
    | none => search lines pc lo mid
  else lo
termination_by hi - lo

/-- The source line at a position, or zero when no entry covers it. -/
def lineAt (lines : Array LineNumber) (pc : Int) : Int :=
  match search lines pc 0 lines.size with
  | 0 => 0
  | i + 1 => (lines[i]?.map LineNumber.line).getD 0

end LineNumber

/-- A method body. -/
structure Code where
  /-- The depth of the operand stack. -/
  maxStack : Nat
  /-- The number of local variables. -/
  maxLocals : Nat
  /-- The code array. -/
  bytes : Bytes
  /-- The instructions in the code array. -/
  instructions : List Instruction
  /-- The protected ranges in the order of the class file. -/
  exceptionTable : List ExceptionRange
  /-- The source lines, ordered by position. -/
  lines : Array LineNumber
  deriving DecidableEq, Repr

/-- The source line at a position, or zero when no entry covers it. -/
def Code.lineAt (code : Code) (pc : Int) : Int :=
  LineNumber.lineAt code.lines pc

/-- The dotted name of the class at an index, where index zero stands for no class. -/
def optionalClassName (pool : Pool) (place : Place) (index : UInt16) : Reader Bytes :=
  if index = 0 then pure []
  else Descriptor.dotted <$> Reader.look (locate place (pool.className index))

/-- Reads the `i`-th protected range with its handler. -/
def readHandler (pool : Pool) (i : Nat) : Reader ExceptionRange := do
  let (start, stop, handler, catchIndex) ← Reader.within (.handler i) do
    let start ← Reader.u2
    let stop ← Reader.u2
    let handler ← Reader.u2
    let catchIndex ← Reader.u2
    pure (start, stop, handler, catchIndex)
  let catchType ← optionalClassName pool (.catchType i) catchIndex
  pure ⟨start.toNat, stop.toNat, handler.toNat, catchType⟩

/-- Reads an entry of a line table. -/
def readLineNumber : Reader LineNumber := do
  let pc ← Reader.u2
  let line ← Reader.u2
  pure (LineNumber.mk pc.toNat line.toNat)

/-- Reads the entries of a line table. -/
def readLineNumbers (info : Bytes) : Except ReadError (List LineNumber) :=
  Reader.run (do
    let count ← Reader.u2
    Reader.many count.toNat fun _ => readLineNumber) info

/-- The entries of several line tables in one table, ordered by position; entries for one position
keep their order. -/
def sortLines (tables : List (List LineNumber)) : Array LineNumber :=
  (tables.flatten.mergeSort fun a b => a.startPc ≤ b.startPc).toArray

/-- What stands in a method body before its instructions are decoded. -/
def readBody (pool : Pool) : Reader Code := do
  let maxStack ← Reader.within .maxStack Reader.u2
  let maxLocals ← Reader.within .maxLocals Reader.u2
  let length ← Reader.within .codeLength Reader.u4
  let bytes ← Reader.within .codeBytes (Reader.take length.toNat)
  let count ← Reader.within .handlerCount Reader.u2
  let exceptionTable ← Reader.many count.toNat (readHandler pool)
  let attributes ← Reader.within .codeAttributes (readAttributes pool)
  let numbered := attributes.filter fun a => a.name = Bytes.ofString "LineNumberTable"
  let tables ← Reader.look <| numbered.mapM fun a =>
    locate .lineNumbers (readLineNumbers a.info)
  pure ⟨maxStack.toNat, maxLocals.toNat, bytes, [], exceptionTable, sortLines tables⟩

/-- Reads a method body. -/
def readCode (pool : Pool) (info : Bytes) : Except ReadError Code := do
  let body ← Reader.run (readBody pool) info
  let instructions ← decode (some pool) body.bytes
  pure { body with instructions }

end ReturnAudit.ClassFile
