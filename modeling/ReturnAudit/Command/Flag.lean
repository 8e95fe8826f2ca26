import ReturnAudit.Text.CommaList

/-!
# Flags

The flags of the command and the values that they take. A switch stands for `true` when no value is
given with it; every other flag needs a value.
-/

namespace ReturnAudit.Command

/-- The flags of the command, by their names in order. -/
inductive Flag where
  /-- Classes that only complete the class path. -/
  | auxClassPath
  /-- Report every ignored result. -/
  | checkAll
  /-- The configuration file. -/
  | config
  /-- The detectors to run. -/
  | detectors
  /-- Show the help text. -/
  | help
  /-- Write a JSON document. -/
  | json
  /-- The least priority of a finding. -/
  | minPriority
  /-- Profile the run. -/
  | profile
  /-- Also write suppressed findings. -/
  | showSuppressed
  /-- Write more. -/
  | verbose
  /-- Show the version. -/
  | version
  deriving DecidableEq, Repr

namespace Flag

/-- All flags in the order of their names. -/
def all : List Flag :=
  [auxClassPath, checkAll, config, detectors, help, json, minPriority, profile, showSuppressed,
    verbose, version]

/-- The name of a flag, as it follows two dashes. -/
def name : Flag → Bytes
  | auxClassPath => "aux-classpath"
  | checkAll => "check-all"
  | config => "config"
  | detectors => "detectors"
  | help => "help"
  | json => "json"
  | minPriority => "min-priority"
  | profile => "profile"
  | showSuppressed => "show-suppressed"
  | verbose => "verbose"
  | version => "version"

/-- The letter of a flag that has one, as it follows a single dash. -/
def letter? : Flag → Option UInt8
  | help => some 104
  | verbose => some 118
  | _ => none

/-- What a flag is called in messages. -/
def title (flag : Flag) : Bytes :=
  match flag.letter? with
  | some letter => "-" ++ letter :: ", --" ++ flag.name
  | none => "--" ++ flag.name

/-- The word for the value that a flag needs; switches need none. -/
def valueWord? : Flag → Option Bytes
  | auxClassPath | detectors => some "strings"
  | config => some "string"
  | minPriority => some "int"
  | _ => none

/-- The value of a flag that is given without one. -/
def impliedValue? (flag : Flag) : Option Bytes :=
  if flag.valueWord?.isNone then some "true" else none

/-- The flag with a name. -/
def ofName? (name : Bytes) : Option Flag :=
  all.find? fun flag => flag.name = name

/-- The flag with a letter. -/
def ofLetter? (letter : UInt8) : Option Flag :=
  all.find? fun flag => flag.letter? = some letter

end Flag

/-- Why a value does not suit a flag. -/
inductive ValueFault where
  /-- The value of a switch is no truth value. -/
  | switch (value : Bytes)
  /-- The value is no number of 64 bits. -/
  | number (value : Bytes) (cause : Numeral.Fault)
  /-- The value is no list. -/
  | list (cause : CommaList.Fault)
  deriving DecidableEq, Repr

/-- The wording of a fault. -/
def ValueFault.message : ValueFault → Bytes
  | switch value => Numeral.Fault.message "strconv.ParseBool" value .malformed
  | number value cause => Numeral.Fault.message "strconv.ParseInt" value cause
  | list cause => cause.message

/-- Reads a truth value. -/
def readSwitch (value : Bytes) : Except ValueFault Bool :=
  let isOne (words : List String) := words.any fun word => value = Bytes.ofString word
  if isOne ["1", "t", "T", "true", "TRUE", "True"] then .ok true
  else if isOne ["0", "f", "F", "false", "FALSE", "False"] then .ok false
  else .error (.switch value)

end ReturnAudit.Command
