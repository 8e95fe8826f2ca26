import ReturnAudit.Command.Help

/-!
# Completing a command line

A shell asks what the last word of a command line can become. It puts a request in front of the
words, as their first operand. The answer offers the names of flags; for all other words it leaves
the shell to offer files. The last line of an answer tells the shell what it may offer besides.
-/

namespace ReturnAudit.Command

/-- A request of a shell. -/
structure CompletionRequest where
  /-- Whether the answer gives the purpose of what it offers. -/
  described : Bool
  /-- The words of the command line; the last of them is being written. -/
  words : List Bytes
  deriving DecidableEq, Repr

namespace CompletionRequest

/-- Whether a flag is known when a request is looked for: the flags about the command itself are
not. -/
private def isEarly (flag : Flag) : Bool :=
  flag ≠ .help && flag ≠ .version

/-- Whether a flag is known then and takes no value. -/
private def isEarlySwitch (flag? : Option Flag) : Bool :=
  flag?.any fun flag => isEarly flag && flag.valueWord?.isNone

/-- Whether an argument is a flag whose value is the next argument; a flag that is not known counts
as one. -/
def takesNext : Bytes → Bool
  | 45 :: 45 :: name => !name.contains 61 && !isEarlySwitch (Flag.ofName? name)
  | [45, letter] => letter ≠ 61 && !isEarlySwitch (Flag.ofLetter? letter)
  | _ => false

/-- The first operand of arguments and all other arguments. An operand that ends the arguments is
not found behind a flag that takes it. -/
def firstOperand? (before : List Bytes) : List Bytes → Option (Bytes × List Bytes)
  | [] => none
  | argument :: rest =>
    if argument = Bytes.ofString "--" then none
    else if takesNext argument then
      match rest with
      | value :: next :: rest => firstOperand? (before ++ [argument, value]) (next :: rest)
      | _ => none
    else if argument.isEmpty || argument.head? = some 45 then
      firstOperand? (before ++ [argument]) rest
    else some (argument, before ++ rest)

/-- The request that arguments make. -/
def ofArguments? (arguments : List Bytes) : Option CompletionRequest := do
  let (operand, words) ← firstOperand? [] arguments
  if operand = Bytes.ofString "__complete" then some ⟨true, words⟩
  else if operand = Bytes.ofString "__completeNoDesc" then some ⟨false, words⟩
  else none

end CompletionRequest

/-- Why a command line cannot be completed. -/
inductive CompletionFault where
  /-- No flag has this name, and its value is being written. -/
  | noFlag (name : Bytes)
  /-- The finished words are refused. -/
  | badWords (words : List Bytes) (cause : UsageError)
  deriving DecidableEq, Repr

/-- The wording of a fault. -/
def CompletionFault.message : CompletionFault → Bytes
  | noFlag name => "Subcommand 'findbugs' does not support flag '" ++ name ++ "'"
  | badWords words cause =>
    "Error while parsing flags from args [" ++ Bytes.join " " words ++ "]: " ++ cause.message

/-- What a shell may offer besides. -/
inductive CompletionDirective where
  /-- The names of files. -/
  | files
  /-- Nothing. -/
  | nothing
  deriving DecidableEq, Repr

namespace CompletionDirective

/-- The number of a directive. -/
def number : CompletionDirective → Bytes
  | files => "0"
  | nothing => "4"

/-- The name of a directive. -/
def name : CompletionDirective → Bytes
  | files => "ShellCompDirectiveDefault"
  | nothing => "ShellCompDirectiveNoFileComp"

end CompletionDirective

/-- The answer to a request. -/
structure Completion where
  /-- The flags that are offered, as they are written, with their purposes. -/
  offers : List (Bytes × Bytes) := []
  /-- What the shell may offer besides. -/
  directive : CompletionDirective
  /-- Why nothing is offered, if there is a fault. -/
  fault? : Option CompletionFault := none
  deriving DecidableEq, Repr

namespace Completion

/-- A command line whose last word is being written. -/
structure Unfinished where
  /-- The flag whose value is being written. -/
  flag? : Option Flag := none
  /-- The words before; the name of such a flag is not among them. -/
  words : List Bytes
  /-- What is there of the last word, or of the value. -/
  word : Bytes
  /-- The name of the flag whose value is being written, if no flag has it. -/
  unknown? : Option Bytes := none
  deriving DecidableEq, Repr

/-- The flag of a name that may also be a letter. -/
private def flagOf? : Bytes → Option Flag
  | [letter] => Flag.ofLetter? letter
  | name => Flag.ofName? name

/-- The name of the flag in a word without its value: of several letters it is the last. -/
private def flagName : Bytes → Bytes
  | 45 :: 45 :: name => name
  | word => word.getLast?.toList

/-- The name of a flag whose value may come in the next word. -/
private def openFlag? (word : Bytes) : Option Bytes :=
  match Options.Argument.ofText word with
  | .operand | .endOfFlags => none
  | _ => if word.contains 61 then none else some (flagName word)

/-- Takes the value of the last word before as what is being written, if that word is a flag and
needs a value. -/
def Unfinished.behindFlag (words : List Bytes) (word value : Bytes) : Unfinished :=
  match words.getLast?.bind openFlag? with
  | none => ⟨none, words, value, none⟩
  | some name =>
    match flagOf? name with
    | none => ⟨none, words, word, some name⟩
    | some flag =>
      if flag.valueWord?.isNone then ⟨none, words, value, none⟩
      else ⟨some flag, words.dropLast, value, none⟩

/-- Finds what is being written. -/
def Unfinished.ofWords (words : List Bytes) (word : Bytes) : Unfinished :=
  if word.head? ≠ some 45 then behindFlag words word word
  else
    match Bytes.cut 61 word with
    | none => ⟨none, words, word, none⟩
    | some (front, value) =>
      match flagName front with
      | [] => behindFlag words word value
      | name =>
        match flagOf? name with
        | none => ⟨none, words, word, some name⟩
        | some flag => ⟨some flag, words, value, none⟩

/-- Whether the flags have ended: two dashes more would be an operand. -/
def flagsEnded (o : Options) (words : List Bytes) : Bool :=
  match ({} : Options).readArguments (words ++ [Bytes.ofString "--"]) with
  | .ok longer => o.classPath.length < longer.classPath.length
  | .error _ => false

/-- The forms of a flag that begin with a text, with its purpose. -/
def formsOf (start : Bytes) (flag : Flag) : List (Bytes × Bytes) :=
  let letterForm : List Bytes := flag.letter?.toList.map fun letter => [45, letter]
  let forms := ("--" ++ flag.name) :: letterForm
  (forms.filter start.isPrefixOf).map (·, flag.purpose)

/-- Whether a flag can still be given: only lists grow when they are given again. -/
def canBeGiven (o : Options) (flag : Flag) : Bool :=
  !o.given.contains flag || flag.valueWord? = some (Bytes.ofString "strings")

/-- Completes a command line. -/
def ofUnfinished (u : Unfinished) : Completion :=
  match ({} : Options).readArguments u.words with
  | .error cause => { directive := .files, fault? := some (.badWords u.words cause) }
  | .ok o =>
    let ended := flagsEnded o u.words
    match u.unknown?, ended with
    | some name, false => { directive := .files, fault? := some (.noFlag name) }
    | _, _ =>
      if o.given.contains .help || o.given.contains .version then { directive := .nothing }
      else if u.flag?.isNone && u.word.head? = some 45 && !u.word.contains 61 && !ended then
        ⟨(Flag.all.filter (canBeGiven o)).flatMap (formsOf u.word), .nothing, none⟩
      else { directive := .files }

/-- Answers a request; `none` when it has no words. -/
def answer? (r : CompletionRequest) : Option Completion :=
  r.words.getLast?.map fun word => ofUnfinished (.ofWords r.words.dropLast word)

/-- The lines of an answer. -/
def text (described : Bool) (c : Completion) : Bytes :=
  let line : Bytes × Bytes → Bytes := fun (form, purpose) =>
    form ++ (if described then 9 :: purpose else []) ++ "\n"
  c.offers.flatMap line ++ ":" ++ c.directive.number ++ "\n"

/-- What is said about an answer. -/
def remark (c : Completion) : Bytes :=
  let fault : Bytes := match c.fault? with
    | some fault => "[Debug] [Error] " ++ fault.message ++ "\n"
    | none => []
  fault ++ "Completion ended with directive: " ++ c.directive.name ++ "\n"

end Completion

end ReturnAudit.Command
