import ReturnAudit.ReturnCheck.Visit

/-!
# Detectors

A detector visits classes and reports findings. Detectors are chosen by name; no two have the same
name.
-/

namespace ReturnAudit

/-- A way of looking for defects. -/
structure Detector where
  /-- The name. -/
  name : Bytes
  /-- The patterns of its findings. -/
  patterns : List Bytes
  /-- The findings in a class, and how many bodies were read. -/
  visit : ClassFile.Class → StateM Session (List Finding × Nat)

namespace Detector

/-- The detector of ignored results. -/
def returnCheck : Detector :=
  ⟨ReturnCheck.name, [ReturnCheck.pattern], ReturnCheck.visit⟩

/-- The detectors that can be chosen. -/
def registered : List Detector := [returnCheck]

/-- The names of the detectors that can be chosen, in order. -/
def names : List Bytes :=
  Bytes.sort (registered.map (·.name))

/-- Why detectors could not be set up. -/
inductive Error where
  /-- There is no detector of that name. -/
  | unknown (name : Bytes)
  /-- A detector of that name is already there. -/
  | taken (name : Bytes)
  deriving DecidableEq, Repr

/-- The wording of an error. -/
def Error.message : Error → Bytes
  | .unknown name => "unknown detector " ++ Quoted.text name
  | .taken name => "detect: detector " ++ Quoted.text name ++ " registered twice"

/-- The detectors with one more, unless its name is taken. -/
def register (d : Detector) (detectors : List Detector) : Except Error (List Detector) :=
  if detectors.any fun e => e.name = d.name then .error (.taken d.name)
  else .ok (d :: detectors)

/-- The detector of a name. -/
def named (name : Bytes) : Except Error Detector :=
  match registered.find? fun d => d.name = name with
  | some d => .ok d
  | none => .error (.unknown name)

/-- The detectors with the given names in their order; no names choose all detectors. -/
def choose (wanted : List Bytes) : Except Error (List Detector) :=
  (if wanted.isEmpty then names else wanted).mapM named

end Detector

end ReturnAudit
