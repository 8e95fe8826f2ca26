import ReturnAudit.Assembly.PoolBuilder
import ReturnAudit.Text.Blank

/-!
# Assembly lines

A line of assembly is a mnemonic and its operand. Methods are written as `owner.name(descriptor)`,
fields as `owner.name:descriptor`, classes by name and numbers in decimal. Numbers that do not fit
their field are cut off.
-/

namespace ReturnAudit.Assembly

/-- Why the two numbers of an increment could not be read. -/
inductive ScanFault where
  /-- The text ended before a number. -/
  | ended
  /-- There is no digit where a number must start. -/
  | expectedInteger
  /-- The first number is not followed by white space. -/
  | expectedSpace
  /-- The first number is followed by the end of a line. -/
  | newlineAfterNumber
  /-- A line ends in the white space before the second number. -/
  | unexpectedNewline
  /-- A number does not fit. -/
  | number (token : Bytes) (fault : Numeral.Fault)
  deriving DecidableEq, Repr

/-- The wording of a fault. -/
def ScanFault.message : ScanFault → Bytes
  | .ended => "EOF"
  | .expectedInteger => "expected integer"
  | .expectedSpace => "expected space in input to match format"
  | .newlineAfterNumber => "newline in input does not match format"
  | .unexpectedNewline => "unexpected newline"
  | .number token fault => fault.message "strconv.ParseInt" token

/-- Why a line could not be assembled. -/
inductive LineFault where
  | unknownMnemonic (mnemonic : Bytes)
  | noDescriptor (operand : Bytes)
  | noOwner (operand : Bytes)
  | notAField (operand : Bytes)
  | needsClass (mnemonic : Bytes)
  | badConstant (operand : Bytes) (fault : Numeral.Fault)
  | badIncrement (operand : Bytes) (fault : ScanFault)
  | unsupported (mnemonic : Bytes)
  | takesNoOperand (mnemonic : Bytes)
  | badNumber (mnemonic operand : Bytes) (fault : Numeral.Fault)
  deriving DecidableEq, Repr

/-- The wording of a fault. -/
def LineFault.message : LineFault → Bytes
  | .unknownMnemonic m => "unknown mnemonic " ++ Quoted.text m
  | .noDescriptor o => "method operand " ++ Quoted.text o ++ " has no descriptor"
  | .noOwner o => "method operand " ++ Quoted.text o ++ " has no owner"
  | .notAField o => "field operand " ++ Quoted.text o ++ " is not owner.name:descriptor"
  | .needsClass m => m ++ " needs a class operand"
  | .badConstant o fault =>
    "ldc operand " ++ Quoted.text o ++ ": " ++ fault.message "strconv.ParseInt" o
  | .badIncrement o fault => "iinc operand " ++ Quoted.text o ++ ": " ++ fault.message
  | .unsupported m => m ++ " is not supported"
  | .takesNoOperand m => m ++ " takes no operand"
  | .badNumber m o fault =>
    m ++ " operand " ++ Quoted.text o ++ ": " ++ fault.message "strconv.Atoi" o

/-- A line that could not be assembled. -/
structure AssemblyError where
  /-- The position of the line, counted from one. -/
  line : Nat
  /-- The line. -/
  text : Bytes
  /-- What is wrong with it. -/
  fault : LineFault
  deriving DecidableEq, Repr

/-- The wording of the error. -/
def AssemblyError.message (e : AssemblyError) : Bytes :=
  "line " ++ Numeral.ofNat e.line ++ " " ++ Quoted.text e.text ++ ": " ++ e.fault.message

/-- A step of the assembler: it may add constants or fail. -/
abbrev Assembler := StateT PoolBuilder (Except LineFault)

/-- A request for a constant among steps that can fail. -/
def pooled (request : StateM PoolBuilder α) : Assembler α :=
  fun p => .ok (request p)

/-- The owner, name and descriptor of a method operand. -/
def splitMethod (operand : Bytes) : Except LineFault (Bytes × Bytes × Bytes) :=
  match Bytes.cut 40 operand with
  | none => .error (.noDescriptor operand)
  | some (before, after) =>
    match Bytes.cutLast 46 before with
    | none => .error (.noOwner operand)
    | some (owner, name) => .ok (owner, name, 40 :: after)

/-- The owner, name and descriptor of a field operand. -/
def splitField (operand : Bytes) : Except LineFault (Bytes × Bytes × Bytes) :=
  match Bytes.cut 58 operand with
  | none => .error (.notAField operand)
  | some (ownerName, descriptor) =>
    match Bytes.cutLast 46 ownerName with
    | none => .error (.notAField operand)
    | some (owner, name) => .ok (owner, name, descriptor)

/-- Code points that are still to be read. -/
private abbrev Points := List Nat

/-- Whether a code point is a decimal digit. -/
private def isDigit (point : Nat) : Bool :=
  48 ≤ point && point ≤ 57

/-- Reads a decimal number with an optional sign. -/
private def scanNumber (points : Points) : Except ScanFault (Int × Points) :=
  let (sign, unsigned) := match points with
    | c :: rest => if c = 43 || c = 45 then ([c], rest) else ([], points)
    | [] => ([], [])
  match unsigned with
  | [] => .error .ended
  | c :: _ =>
    if isDigit c then
      let token := Utf8.encode (sign ++ unsigned.takeWhile isDigit)
      match Numeral.readInt 10 64 token with
      | .ok n => .ok (n, unsigned.dropWhile isDigit)
      | .error fault => .error (.number token fault)
    else .error .expectedInteger

/-- Passes the white space between the two numbers, of which there is at least one character. -/
private def scanGap (points : Points) : Except ScanFault Points :=
  match points with
  | [] => .ok []
  | c :: _ =>
    if !Blank.isBlank c then .error .expectedSpace
    else if c = 10 then .error .newlineAfterNumber
    else
      match points.dropWhile fun c => Blank.isBlank c && c ≠ 10 with
      | 10 :: _ => .error .unexpectedNewline
      | rest => .ok rest

/-- Reads a local variable and the number that is added to it. -/
def readIncrement (operand : Bytes) : Except ScanFault (Int × Int) := do
  let (index, rest) ← scanNumber (Utf8.points operand)
  let rest ← scanGap rest
  let (delta, _) ← scanNumber rest
  pure (index, delta)

/-- The low byte of an integer in two's complement. -/
def lowByte (n : Int) : UInt8 :=
  (BitVec.ofInt 8 n).toNat.toUInt8

/-- The two low bytes of an integer in two's complement. -/
def lowShort (n : Int) : Bytes :=
  beShort (BitVec.ofInt 16 n).toNat

/-- The four low bytes of an integer in two's complement. -/
def lowWord (n : Int) : Bytes :=
  beWord (BitVec.ofInt 32 n).toNat

/-- A number operand. -/
def number (mnemonic operand : Bytes) : Except LineFault Int :=
  (Numeral.readInt 10 64 operand).mapError (.badNumber mnemonic operand)

/-- The operand bytes of an instruction. -/
def assembleOperand (op : Opcode) (mnemonic operand : Bytes) : Assembler Bytes :=
  if op.isInvoke then do
    let (owner, name, descriptor) ← splitMethod operand
    if op = .invokeinterface then
      let i ← pooled (PoolBuilder.member .interfaceMethodRef owner name descriptor)
      pure (beShort i.toNat ++ [(1 + Descriptor.argumentSlots descriptor).toUInt8, 0])
    else
      let i ← pooled (PoolBuilder.member .methodRef owner name descriptor)
      pure (beShort i.toNat)
  else if op = .ldc then
    match Quoted.read? operand with
    | some text => do
      let i ← pooled (PoolBuilder.string text)
      pure [i.toUInt8]
    | none => do
      let v ← (Numeral.readInt 10 32 operand).mapError (LineFault.badConstant operand)
      let i ← pooled (PoolBuilder.integer v)
      pure [i.toUInt8]
  else
    match op.operands with
    | .member 0 => do
      let (owner, name, descriptor) ← splitField operand
      let i ← pooled (PoolBuilder.member .fieldRef owner name descriptor)
      pure (beShort i.toNat)
    | .classRef padding => do
      if operand.isEmpty then throw (.needsClass mnemonic)
      let i ← pooled (PoolBuilder.classRef operand)
      pure (beShort i.toNat ++ List.replicate padding 1)
    | .localIncrement => do
      let (index, delta) ← (readIncrement operand).mapError (LineFault.badIncrement operand)
      pure [lowByte index, lowByte delta]
    | .none => if operand.isEmpty then pure [] else throw (.takesNoOperand mnemonic)
    | .byte | .signedByte => do
      let v ← number mnemonic operand
      pure [lowByte v]
    | .short | .signedShort => do
      let v ← number mnemonic operand
      pure (lowShort v)
    | .signedWord => do
      let v ← number mnemonic operand
      pure (lowWord v)
    | .member _ | .tableSwitch | .lookupSwitch | .wide | .undefined =>
      throw (.unsupported mnemonic)

/-- The mnemonic and the operand of a line. -/
def splitLine (line : Bytes) : Bytes × Bytes :=
  let line := Blank.trim line
  match Bytes.cut 32 line with
  | none => (line, [])
  | some (mnemonic, operand) => (mnemonic, Blank.trim operand)

/-- The bytes of the instruction on a line. -/
def assembleLine (line : Bytes) : Assembler Bytes := do
  let (mnemonic, operand) := splitLine line
  match Opcode.ofMnemonic? mnemonic with
  | none => throw (.unknownMnemonic mnemonic)
  | some op =>
    let bytes ← assembleOperand op mnemonic operand
    pure (op.code :: bytes)

/-- The code array of some lines and the position of each instruction. `number` is the position of
the first line and `pc` that of its instruction. -/
def assembleFrom (number pc : Nat) : List Bytes →
    StateT PoolBuilder (Except AssemblyError) (Bytes × List Nat)
  | [] => pure ([], [])
  | line :: lines => fun p =>
    match assembleLine line p with
    | .error fault => .error ⟨number, line, fault⟩
    | .ok (bytes, p) => do
      let ((code, pcs), p) ← assembleFrom (number + 1) (pc + bytes.length) lines p
      pure ((bytes ++ code, pc :: pcs), p)

/-- The code array of some lines and the position of each instruction. -/
def assemble (lines : List Bytes) : StateT PoolBuilder (Except AssemblyError) (Bytes × List Nat) :=
  assembleFrom 1 0 lines

end ReturnAudit.Assembly
