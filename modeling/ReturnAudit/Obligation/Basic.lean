import ReturnAudit.Text.Numeral

/-!
# Obligations

An obligation says whether the caller of a method has to use its result, and how severe it is not
to.
-/

namespace ReturnAudit

/-- What is expected of a caller. -/
inductive ObligationKind where
  /-- Nothing is known about the method. -/
  | unset
  /-- The result has to be used. -/
  | check
  /-- The result may be ignored. -/
  | ignore
  /-- A kind without a meaning of its own. -/
  | other (code : Nat)
  deriving DecidableEq, Repr

/-- The name of a kind. -/
def ObligationKind.text : ObligationKind → Bytes
  | .unset => "unset"
  | .check => "check"
  | .ignore => "ignore"
  | .other code => "kind(" ++ Numeral.ofNat code ++ ")"

/-- What the caller of a method owes. -/
structure Obligation where
  /-- What is expected. -/
  kind : ObligationKind
  /-- How severe a breach is; higher is worse. -/
  priority : Int
  /-- Whether the called class itself declares it. -/
  direct : Bool
  deriving DecidableEq, Repr

namespace Obligation

/-- The lowest priority. -/
def low : Int := 1

/-- The priority in between. -/
def medium : Int := 2

/-- The highest priority. -/
def high : Int := 3

/-- Nothing is known. -/
def unset : Obligation := ⟨.unset, 0, false⟩

/-- The result has to be used, which the called class itself declares. -/
def check (priority : Int) : Obligation := ⟨.check, priority, true⟩

/-- The result has to be used, which the called class does not itself declare. -/
def inherited (priority : Int) : Obligation := ⟨.check, priority, false⟩

/-- The result may be ignored. -/
def ignore : Obligation := ⟨.ignore, 0, false⟩

/-- Whether the result has to be used. -/
def isCheck (o : Obligation) : Bool :=
  o.kind = .check

/-- The obligation in words. -/
def text (o : Obligation) : Bytes :=
  if o.isCheck then
    "check(" ++ Numeral.ofInt o.priority ++ (if o.direct then Bytes.ofString ", direct" else [])
      ++ ")"
  else o.kind.text

end Obligation

end ReturnAudit
