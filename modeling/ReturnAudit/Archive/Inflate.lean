import ReturnAudit.Text.Numeral

/-!
# Inflating

Compressed entries are a sequence of blocks: stored bytes, or literals and references to earlier
output in a prefix code that is fixed or described by the block itself. What was produced before a
fault is kept, and a fault tells how many bytes had been read.
-/

namespace ReturnAudit.Archive

/-- A prefix code: the bits of the input lead from the root to a symbol. -/
inductive CodeTree where
  /-- No code word goes on here. -/
  | none
  /-- A code word ends here. -/
  | symbol (value : Nat)
  /-- The next bit decides. -/
  | branch (zero one : CodeTree)
  deriving DecidableEq, Repr

namespace CodeTree

/-- The symbol and the length of the code word at the low end of some bits. -/
def lookup : CodeTree → Nat → Option (Nat × Nat)
  | none, _ => .none
  | symbol value, _ => some (value, 0)
  | branch zero one, bits =>
    let found := if bits % 2 = 0 then zero.lookup (bits / 2) else one.lookup (bits / 2)
    found.map fun (value, n) => (value, n + 1)

/-- The tree with one more code word, given by its bits. -/
def insert (value : Nat) : List Bool → CodeTree → CodeTree
  | [], _ => symbol value
  | bit :: rest, tree =>
    let (zero, one) :=
      match tree with
      | branch zero one => (zero, one)
      | _ => (none, none)
    if bit then branch zero (insert value rest one) else branch (insert value rest zero) one

/-- The bits of a number, highest first. -/
def bitsOf : Nat → Nat → List Bool
  | 0, _ => []
  | n + 1, code => code.testBit n :: bitsOf n code

/-- The longest code word. -/
def maxLength : Nat := 15

/-- The first code word of each length from one on, and the number after the last code word of the
last length. -/
private def firstCodes (lengths : List Nat) : Nat → Nat → Nat → List Nat × Nat
  | 0, _, code => ([], code)
  | n + 1, length, code =>
    let count := lengths.count length
    let (rest, last) := firstCodes lengths n (length + 1) (2 * (code + count))
    (code :: rest, if n = 0 then code + count else last)

/-- Adds the code words of symbols to a tree, in the order of the symbols; `starts` are the next
free code words of each length. -/
private def assign (starts : List Nat) : List (Nat × Nat) → CodeTree → CodeTree
  | [], tree => tree
  | (value, length) :: rest, tree =>
    if length = 0 then assign starts rest tree
    else
      let code := (starts.drop (length - 1)).headD 0
      assign (starts.set (length - 1) (code + 1)) rest (tree.insert value (bitsOf length code))

/-- The canonical code with the given lengths of code words, zero for symbols that do not occur, and
its shortest length. The code has to be complete, or to have a single word of one bit, or to be
empty. -/
def ofLengths? (lengths : List Nat) : Option (CodeTree × Nat) :=
  let used := lengths.filter (0 < ·)
  let longest := used.foldl max 0
  let shortest := used.foldl min (used.headD 0)
  if longest = 0 then some (none, 0)
  else
    let (starts, last) := firstCodes lengths longest 1 0
    if last != 1 <<< longest && !(last = 1 && longest = 1) then .none
    else
      let codes := lengths.zipIdx.map fun (length, value) => (value, length)
      some (assign starts codes none, shortest)

end CodeTree

/-- Why inflating stopped. -/
inductive InflateFault where
  /-- The input ends too early. -/
  | truncated
  /-- The input is no compressed text; so many bytes of it had been read. -/
  | corrupt (offset : Nat)
  deriving DecidableEq, Repr

/-- The wording of a fault. -/
def InflateFault.message : InflateFault → Bytes
  | truncated => "unexpected EOF"
  | corrupt offset => "flate: corrupt input before offset " ++ Numeral.ofNat offset

/-- The state of inflating. -/
structure Inflater where
  /-- The bytes that are not read yet. -/
  rest : Bytes
  /-- How many bytes were read. -/
  taken : Nat := 0
  /-- The bits that are read and not used yet, the first one lowest. -/
  held : Nat := 0
  /-- How many there are. -/
  count : Nat := 0
  /-- What was produced. -/
  out : Array UInt8 := #[]

/-- A step of inflating, which keeps its output when it fails. -/
abbrev Inflate := ExceptT InflateFault (StateM Inflater)

namespace Inflate

/-- Stops because the input makes no sense. -/
def corrupt : Inflate α := do
  throw (.corrupt (← get).taken)

/-- Reads a byte into the held bits. -/
def moreBits : Inflate Unit := do
  let s ← get
  match s.rest with
  | [] => throw .truncated
  | b :: rest =>
    set { s with
      rest, taken := s.taken + 1, held := s.held + b.toNat <<< s.count, count := s.count + 8 }

/-- Makes sure that some bits are held; never more than two bytes are missing. -/
def need (n : Nat) : Inflate Unit := do
  if (← get).count < n then moreBits
  if (← get).count < n then moreBits

/-- Takes some of the held bits. -/
def takeBits (n : Nat) : Inflate Nat := do
  need n
  let s ← get
  set { s with held := s.held >>> n, count := s.count - n }
  return s.held % 1 <<< n

/-- Reads a symbol. Bits that are not read yet are taken for zeros until a code word demands them.
-/
def symbol (tree : CodeTree) : Nat → Nat → Inflate Nat
  | 0, _ => corrupt
  | fuel + 1, least => do
    need least
    let s ← get
    match tree.lookup s.held with
    | none => corrupt
    | some (value, length) =>
      if length ≤ s.count then
        set { s with held := s.held >>> length, count := s.count - length }
        return value
      else symbol tree fuel length

/-- Reads a symbol of a code with its shortest length. -/
def next (code : CodeTree × Nat) : Inflate Nat :=
  symbol code.1 (CodeTree.maxLength + 1) code.2

/-- Adds a byte to the output. -/
def push (b : UInt8) : Inflate Unit :=
  modify fun s => { s with out := s.out.push b }

/-- Repeats bytes from a distance before the end of the output, which may be shorter than what is
repeated. -/
private def copyBytes (out : Array UInt8) (distance : Nat) : Nat → Array UInt8
  | 0 => out
  | n + 1 => copyBytes (out.push (out.getD (out.size - distance) 0)) distance n

/-- Repeats earlier output. -/
def copy (length distance : Nat) : Inflate Unit := do
  if (← get).out.size < distance then corrupt
  modify fun s => { s with out := copyBytes s.out distance length }

/-- The least length that a symbol stands for, and how many bits are added to it. -/
def lengthOf (value : Nat) : Nat × Nat :=
  if value < 265 then (value - 254, 0)
  else if value < 285 then
    let extra := (value - 261) / 4
    ((4 + (value - 261) % 4) <<< extra + 3, extra)
  else (258, 0)

/-- Reads the distance that a symbol stands for. -/
def distanceOf (value : Nat) : Inflate Nat := do
  if value < 4 then return value + 1
  else if value < 30 then
    let extra := (value - 2) / 2
    let low ← takeBits extra
    return 1 <<< (extra + 1) + 1 + (value % 2) <<< extra + low
  else corrupt

/-- The lowest bits of a number in reverse. -/
private def reverseBits : Nat → Nat → Nat
  | 0, _ => 0
  | n + 1, bits => (bits % 2) <<< n + reverseBits n (bits / 2)

/-- Reads the symbols of a block up to the one that ends it. Without a code for distances, these
have five bits. -/
def symbols (literals : CodeTree × Nat) (distances : Option (CodeTree × Nat)) : Nat → Inflate Unit
  | 0 => corrupt
  | fuel + 1 => do
    let value ← next literals
    if value < 256 then
      push value.toUInt8
      symbols literals distances fuel
    else if value = 256 then return
    else if 286 ≤ value then corrupt
    else
      let (least, extra) := lengthOf value
      let more ← takeBits extra
      let code ←
        match distances with
        | none => reverseBits 5 <$> takeBits 5
        | some code => next code
      copy (least + more) (← distanceOf code)
      symbols literals distances fuel

/-- Copies a stored block. -/
def stored : Inflate Unit := do
  modify fun s => { s with held := 0, count := 0 }
  let s ← get
  match s.rest with
  | a :: b :: c :: d :: rest =>
    set { s with rest, taken := s.taken + 4 }
    let n := a.toNat + 256 * b.toNat
    if n + c.toNat + 256 * d.toNat != 65535 then corrupt
    let piece := rest.take n
    modify fun s =>
      { s with rest := rest.drop n, taken := s.taken + piece.length, out := s.out ++ piece.toArray }
    if piece.length < n then throw .truncated
  | short =>
    set { s with rest := [], taken := s.taken + short.length }
    throw .truncated

/-- The lengths of code words in the fixed code. -/
def fixedLengths : List Nat :=
  List.replicate 144 8 ++ List.replicate 112 9 ++ List.replicate 24 7 ++ List.replicate 8 8

/-- The order in which a block gives the lengths of the code for lengths. -/
def codeOrder : List Nat :=
  [16, 17, 18, 0, 8, 7, 9, 6, 10, 5, 11, 4, 12, 3, 13, 2, 14, 1, 15]

/-- Reads lengths of code words up to a total, given last first. -/
private def lengths (code : CodeTree × Nat) (total : Nat) : Nat → List Nat → Inflate (List Nat)
  | 0, read => return read.reverse
  | fuel + 1, read => do
    if total ≤ read.length then return read.reverse
    let value ← next code
    if value < 16 then lengths code total fuel (value :: read)
    else
      let (least, bits, length) ←
        if value = 16 then
          match read with
          | [] => corrupt
          | last :: _ => pure (3, 2, last)
        else if value = 17 then pure (3, 3, 0)
        else pure (11, 7, 0)
      let times := least + (← takeBits bits)
      if total < read.length + times then corrupt
      lengths code total fuel (List.replicate times length ++ read)

/-- A code, where the lengths of the code words give one. -/
private def orCorrupt (code : Option (CodeTree × Nat)) : Inflate (CodeTree × Nat) :=
  match code with
  | some code => pure code
  | none => corrupt

/-- Reads the codes of a block that describes them. -/
def dynamicCodes : Inflate ((CodeTree × Nat) × (CodeTree × Nat)) := do
  need 14
  let literalCount := (← get).held % 32 + 257
  if 286 < literalCount then corrupt
  let distanceCount := (← get).held / 32 % 32 + 1
  if 30 < distanceCount then corrupt
  let given := (← takeBits 14) / 1024 + 4
  let widths ← (List.range given).mapM fun _ => takeBits 3
  let table := codeOrder.zip (widths ++ List.replicate (19 - given) 0)
  let code ← orCorrupt (CodeTree.ofLengths? ((List.range 19).map fun i => (table.lookup i).getD 0))
  let all ← lengths code (literalCount + distanceCount) (literalCount + distanceCount + 1) []
  let literals ← orCorrupt (CodeTree.ofLengths? (all.take literalCount))
  let distances ← orCorrupt (CodeTree.ofLengths? (all.drop literalCount))
  let blockEnd := (all.drop 256).headD 0
  return ((literals.1, max literals.2 blockEnd), distances)

/-- Reads blocks up to the last one. -/
def blocks : Nat → Inflate Unit
  | 0 => throw .truncated
  | fuel + 1 => do
    need 3
    let header ← takeBits 3
    let steps := 8 * (← get).rest.length + (← get).count + 1
    match header / 2 with
    | 0 => stored
    | 1 =>
      match CodeTree.ofLengths? fixedLengths with
      | some code => symbols code none steps
      | none => corrupt
    | 2 =>
      let (literals, distances) ← dynamicCodes
      symbols literals (some distances) steps
    | _ => corrupt
    if header % 2 = 0 then blocks fuel

end Inflate

/-- The text that some bytes inflate to, as far as there is one, and the fault that ended it. -/
def inflate (s : Bytes) : Bytes × Option InflateFault :=
  let (result, state) := (Inflate.blocks (8 * s.length + 1)).run { rest := s }
  (state.out.toList, match result with
    | .ok () => none
    | .error fault => some fault)

end ReturnAudit.Archive
