import ReturnAudit.Regex.Escape

/-!
# Bracket classes of expressions

A bracket class lists characters, ranges, escapes that stand for a class, and named classes. A
closing bracket that stands first is an ordinary character. Under case folding every item is closed
under changes of case before the whole is negated.
-/

namespace ReturnAudit.Regex

/-- The set of a class name such as `[:alpha:]`; `none` for a text that starts otherwise. -/
def namedClass? (ignoreCase : Bool) (s : Bytes) : Except Error (Option (CharSet × Bytes)) :=
  match s with
  | 91 :: 58 :: rest =>
    match Bytes.cutInfix ":]" rest with
    | none => .ok none
    | some (name, after) =>
      let after := after.drop 2
      let (negated, plain) :=
        match name with
        | 94 :: plain => (true, plain)
        | plain => (false, plain)
      match CharSet.namedClasses.find? fun (known, _) => Bytes.ofString known = plain with
      | none => .error ⟨.charRange, consumed s after⟩
      | some (_, points) =>
        .ok (some (((CharSet.ofRanges points).foldedIf ignoreCase).signed negated, after))
  | _ => .ok none

/-- A character of a class; `whole` is the text from the opening bracket on. -/
def readClassChar (whole : Bytes) : Bytes → Except Error (Nat × Bytes)
  | [] => .error ⟨.openBracket, whole⟩
  | 92 :: rest => readEscape (92 :: rest)
  | s => readChar s

/-- A character or a range of characters. -/
def readRange (ignoreCase : Bool) (whole s : Bytes) : Except Error (CharSet × Bytes) := do
  let (lo, rest) ← readClassChar whole s
  match rest with
  | 45 :: next :: tail =>
    if next = 93 then
      return ((CharSet.single lo).foldedIf ignoreCase, rest)
    let (hi, rest) ← readClassChar whole (next :: tail)
    if hi < lo then throw ⟨.charRange, consumed s rest⟩
    return ((CharSet.ofRanges [(lo, hi)]).foldedIf ignoreCase, rest)
  | _ => return ((CharSet.single lo).foldedIf ignoreCase, rest)

/-- An item of a class. -/
def readClassItem (ignoreCase : Bool) (whole s : Bytes) : Except Error (CharSet × Bytes) := do
  if let some item ← namedClass? ignoreCase s then
    return item
  if let some item ← propertyEscape? ignoreCase s then
    return item
  if let some item := classEscape? ignoreCase s then
    return item
  readRange ignoreCase whole s

/-- Reads the items of a class up to the bracket that closes it; `set` is the union of the items
before. A bracket that stands `first` closes nothing. -/
def readItems (ignoreCase : Bool) (whole : Bytes) :
    Nat → Bool → CharSet → Bytes → Except Error (CharSet × Bytes)
  | 0, _, _, _ => .error ⟨.openBracket, whole⟩
  | n + 1, first, set, s => do
    match first, s with
    | false, 93 :: rest => return (set, rest)
    | _, s =>
      let (item, rest) ← readClassItem ignoreCase whole s
      readItems ignoreCase whole n false (set.union item) rest

/-- A bracket class; the text begins with the opening bracket. -/
def readBracket (ignoreCase : Bool) (s : Bytes) : Except Error (CharSet × Bytes) := do
  let (negated, rest) :=
    match s.drop 1 with
    | 94 :: rest => (true, rest)
    | rest => (false, rest)
  let (set, rest) ← readItems ignoreCase s (rest.length + 1) true CharSet.empty rest
  return (set.signed negated, rest)

end ReturnAudit.Regex
