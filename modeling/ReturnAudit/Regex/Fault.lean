import ReturnAudit.Text.Bytes

/-!
# Faults of expressions

Why a text is no expression, with the excerpt that shows it.
-/

namespace ReturnAudit.Regex

/-- The kinds of faults. -/
inductive Fault where
  /-- A class name that is not known, or a range whose ends are in the wrong order. -/
  | charRange
  /-- A backslash before a character that it gives no meaning. -/
  | escape
  /-- A group name that is not closed or not made of word characters. -/
  | groupName
  /-- A question mark after an opening parenthesis that starts nothing known. -/
  | groupFlags
  /-- A repetition right after a repetition. -/
  | nestedRepetition
  /-- A count that is too large, or whose bounds are in the wrong order. -/
  | repeatCount
  /-- Bytes that are not well formed. -/
  | encoding
  /-- A bracket that is not closed. -/
  | openBracket
  /-- A parenthesis that is not closed. -/
  | openParenthesis
  /-- A repetition with nothing to repeat. -/
  | noOperand
  /-- A backslash at the end. -/
  | trailingBackslash
  /-- A closing parenthesis that was not opened. -/
  | strayParenthesis
  /-- A tree that is too deep. -/
  | depth
  /-- An expression whose program would be too large. -/
  | size
  deriving DecidableEq, Repr

/-- The wording of a fault. -/
def Fault.text : Fault → String
  | charRange => "invalid character class range"
  | escape => "invalid escape sequence"
  | groupName => "invalid named capture"
  | groupFlags => "invalid or unsupported Perl syntax"
  | nestedRepetition => "invalid nested repetition operator"
  | repeatCount => "invalid repeat count"
  | encoding => "invalid UTF-8"
  | openBracket => "missing closing ]"
  | openParenthesis => "missing closing )"
  | noOperand => "missing argument to repetition operator"
  | trailingBackslash => "trailing backslash at end of expression"
  | strayParenthesis => "unexpected )"
  | depth => "expression nests too deeply"
  | size => "expression too large"

/-- A fault and the part of the text that shows it. -/
structure Error where
  /-- What is wrong. -/
  fault : Fault
  /-- The excerpt that shows it. -/
  excerpt : Bytes
  deriving DecidableEq, Repr

/-- The message of an error. -/
def Error.message (error : Error) : Bytes :=
  "error parsing regexp: " ++ Bytes.ofString error.fault.text ++ ": `" ++ error.excerpt ++ "`"

/-- The part of a text before what is left of it. -/
def consumed (text rest : Bytes) : Bytes :=
  text.take (text.length - rest.length)

end ReturnAudit.Regex
