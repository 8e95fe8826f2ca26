import ReturnAudit.Command.Flag

/-!
# Options of the command

Flags and operands may be mixed; two dashes alone end the flags. A flag that is given again
replaces its value, or adds to its list.
-/

namespace ReturnAudit.Command

/-- What the command was told. -/
structure Options where
  /-- Classes, archives and directories to audit. -/
  classPath : List Bytes := []
  /-- Classes that are only consulted. -/
  auxClassPath : List Bytes := []
  /-- The configuration file; empty for none. -/
  config : Bytes := []
  /-- The detectors to run; none stand for the configured ones. -/
  detectors : List Bytes := []
  /-- The least priority of a finding; counts only when positive. -/
  minPriority : Int := 0
  /-- Report every ignored result. -/
  checkAll : Bool := false
  /-- Write a JSON document. -/
  json : Bool := false
  /-- Write more. -/
  verbose : Bool := false
  /-- Also write suppressed findings. -/
  showSuppressed : Bool := false
  /-- Profile the run. -/
  profile : Bool := false
  /-- Show the help text and do nothing else. -/
  help : Bool := false
  /-- Show the version and do nothing else. -/
  version : Bool := false
  /-- The flags that were given, the last first. -/
  given : List Flag := []
  deriving DecidableEq, Repr

/-- Why arguments are refused. -/
inductive UsageError where
  /-- Two dashes are followed by a dash or an equals sign. -/
  | malformed (argument : Bytes)
  /-- No flag has this name. -/
  | unknownName (name : Bytes)
  /-- No flag has this letter; the letters that follow it are kept for the message. -/
  | unknownLetter (letter : UInt8) (rest : Bytes)
  /-- A flag stands at the end without the value that it needs. -/
  | valueMissing (name : Bytes)
  /-- A value does not suit its flag. -/
  | badValue (flag : Flag) (value : Bytes) (cause : ValueFault)
  /-- There is no operand. -/
  | noOperand
  deriving DecidableEq, Repr

/-- The character that stands for a letter in messages: a byte outside of ASCII stands for the first
byte of its own encoding. -/
private def shownLetter (letter : UInt8) : Nat :=
  if letter < 128 then letter.toNat else if letter < 192 then 194 else 195

/-- The wording of an error. -/
def UsageError.message : UsageError → Bytes
  | malformed argument => "bad flag syntax: " ++ argument
  | unknownName name => "unknown flag: --" ++ name
  | unknownLetter letter rest =>
    "unknown shorthand flag: " ++ Quoted.char (shownLetter letter) ++ " in -" ++ letter :: rest
  | valueMissing name => "flag needs an argument: --" ++ name
  | badValue flag value cause =>
    "invalid argument " ++ Quoted.text value ++ " for " ++ Quoted.text flag.title ++ " flag: " ++
      cause.message
  | noOperand => "requires at least 1 arg(s), only received 0"

namespace Options

/-- The options after a flag is given a value. Lists grow, and of other flags the last one
counts. -/
private def assign (o : Options) (value : Bytes) : Flag → Except ValueFault Options
  | .auxClassPath => do
    let paths ← (CommaList.read value).mapError ValueFault.list
    return { o with auxClassPath := o.auxClassPath ++ paths }
  | .detectors => do
    let names ← (CommaList.read value).mapError ValueFault.list
    return { o with detectors := o.detectors ++ names }
  | .minPriority => do
    let n ← (Numeral.readMarkedInt 64 value).mapError (ValueFault.number value)
    return { o with minPriority := n }
  | .config => return { o with config := value }
  | .checkAll => return { o with checkAll := ← readSwitch value }
  | .json => return { o with json := ← readSwitch value }
  | .verbose => return { o with verbose := ← readSwitch value }
  | .showSuppressed => return { o with showSuppressed := ← readSwitch value }
  | .profile => return { o with profile := ← readSwitch value }
  | .help => return { o with help := ← readSwitch value }
  | .version => return { o with version := ← readSwitch value }

/-- Gives a flag a value. -/
def set (o : Options) (flag : Flag) (value : Bytes) : Except UsageError Options :=
  match o.assign value flag with
  | .ok o => .ok { o with given := flag :: o.given }
  | .error cause => .error (.badValue flag value cause)

/-- Adds operands. -/
def addOperands (o : Options) (operands : List Bytes) : Options :=
  { o with classPath := o.classPath ++ operands }

/-- The mark of letters that belong to a test runner and are skipped. -/
private def testMark : Bytes := "test."

/-- Reads the letters behind a single dash. All flags with letters are switches; an equals sign and
at least one byte behind a letter are its value. -/
def setLetters (o : Options) : Bytes → Except UsageError Options
  | [] => .ok o
  | letter :: rest =>
    if testMark.isPrefixOf (letter :: rest) then .ok o
    else
      match Flag.ofLetter? letter with
      | none => .error (.unknownLetter letter rest)
      | some flag =>
        match rest with
        | 61 :: b :: value => o.set flag (b :: value)
        | rest => do setLetters (← o.set flag (flag.impliedValue?.getD [])) rest

/-- What an argument is. -/
inductive Argument where
  /-- An operand. -/
  | operand
  /-- The end of the flags. -/
  | endOfFlags
  /-- Letters of flags. -/
  | letters (letters : Bytes)
  /-- A flag by its name, perhaps with a value. -/
  | named (name : Bytes) (value? : Option Bytes)
  /-- Two dashes with a name that cannot be one. -/
  | malformed
  deriving DecidableEq, Repr

/-- What an argument is, by its first bytes. -/
def Argument.ofText : Bytes → Argument
  | 45 :: 45 :: [] => .endOfFlags
  | 45 :: 45 :: b :: rest =>
    if b = 45 || b = 61 then .malformed
    else
      match Bytes.cut 61 (b :: rest) with
      | some (name, value) => .named name (some value)
      | none => .named (b :: rest) none
  | 45 :: b :: rest => .letters (b :: rest)
  | _ => .operand

/-- Reads arguments from the left. -/
def readArguments (o : Options) : List Bytes → Except UsageError Options
  | [] => .ok o
  | argument :: rest =>
    match Argument.ofText argument with
    | .operand => readArguments (o.addOperands [argument]) rest
    | .endOfFlags => .ok (o.addOperands rest)
    | .malformed => .error (.malformed argument)
    | .letters letters => do readArguments (← o.setLetters letters) rest
    | .named name value? =>
      match Flag.ofName? name with
      | none => .error (.unknownName name)
      | some flag =>
        match value? <|> flag.impliedValue?, rest with
        | some value, rest => do readArguments (← o.set flag value) rest
        | none, value :: rest => do readArguments (← o.set flag value) rest
        | none, [] => .error (.valueMissing name)

/-- Reads the arguments of the command. -/
def parse (arguments : List Bytes) : Except UsageError Options := do
  let o ← ({} : Options).readArguments arguments
  if o.help || o.version || !o.classPath.isEmpty then return o else throw .noOperand

end Options

end ReturnAudit.Command
