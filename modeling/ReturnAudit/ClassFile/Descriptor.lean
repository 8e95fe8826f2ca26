import ReturnAudit.Text.Bytes

/-!
# Names and descriptors

Class names are written with slashes inside class files and with dots everywhere else. A method
descriptor lists the parameter types between parentheses and then the type of the result.
-/

namespace ReturnAudit.Descriptor

/-- A class name with dots in place of slashes. -/
def dotted (name : Bytes) : Bytes :=
  Bytes.replace 47 46 name

/-- A class name with slashes in place of dots. -/
def slashed (name : Bytes) : Bytes :=
  Bytes.replace 46 47 name

/-- The descriptor of the class with a dotted name. -/
def ofClass (name : Bytes) : Bytes :=
  76 :: slashed name ++ [59]

/-- What follows the last closing parenthesis of a method descriptor: its result type. A text
without one has no result type. -/
def returnType (descriptor : Bytes) : Bytes :=
  match Bytes.cutLast 41 descriptor with
  | some (_, result) => result
  | none => []

/-- The class name inside the descriptor of a class; any other text stays as it is. -/
def className (descriptor : Bytes) : Bytes :=
  match descriptor with
  | 76 :: b :: rest =>
    if (b :: rest).getLast? = some 59 then (b :: rest).dropLast else descriptor
  | _ => descriptor

/-- Where the reading of a parameter list stands. -/
inductive ParameterState where
  /-- Between two parameters. -/
  | boundary
  /-- Inside a class name. -/
  | className
  /-- Inside the brackets of an array. -/
  | brackets
  deriving DecidableEq, Repr

/-- The slots that the remaining parameters take. An array takes one slot whatever it holds, and a
long or a double takes two. -/
def slotsFrom : ParameterState → Bytes → Nat
  | _, [] => 0
  | .boundary, b :: rest =>
    if b = 41 then 0
    else if b = 74 || b = 68 then 2 + slotsFrom .boundary rest
    else if b = 76 then 1 + slotsFrom .className rest
    else if b = 91 then 1 + slotsFrom .brackets rest
    else 1 + slotsFrom .boundary rest
  | .className, b :: rest =>
    if b = 59 then slotsFrom .boundary rest else slotsFrom .className rest
  | .brackets, b :: rest =>
    if b = 91 then slotsFrom .brackets rest
    else if b = 76 then slotsFrom .className rest
    else slotsFrom .boundary rest

/-- The number of local variable slots that the arguments of a method take, its receiver left
out. -/
def argumentSlots (descriptor : Bytes) : Nat :=
  match descriptor with
  | 40 :: rest => slotsFrom .boundary rest
  | _ => 0

end ReturnAudit.Descriptor
