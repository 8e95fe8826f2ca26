/-!
# Byte texts

Class files, archives and configuration files hold names whose bytes need not form valid UTF-8, so
a text is a list of bytes throughout the project. This module holds the operations on such texts:
literals, searching, splitting, replacing and the bytewise order.
-/

namespace ReturnAudit

/-- A text as the bytes it is made of. -/
abbrev Bytes := List UInt8

namespace Bytes

/-- The UTF-8 bytes of a string. -/
def ofString (s : String) : Bytes :=
  s.toList.flatMap String.utf8EncodeChar

instance : Coe String Bytes := ⟨ofString⟩

/-- The byte of an ASCII character. -/
def ofChar (c : Char) : UInt8 :=
  c.toNat.toUInt8

/-- Every occurrence of one byte replaced by another. -/
def replace (old new : UInt8) (s : Bytes) : Bytes :=
  s.map fun b => if b = old then new else b

/-- The text before the first occurrence of a byte and the text after it. -/
def cut (sep : UInt8) : Bytes → Option (Bytes × Bytes)
  | [] => none
  | b :: rest =>
    if b = sep then some ([], rest)
    else (cut sep rest).map fun (before, after) => (b :: before, after)

/-- The text before the last occurrence of a byte and the text after it. -/
def cutLast (sep : UInt8) (s : Bytes) : Option (Bytes × Bytes) :=
  (cut sep s.reverse).map fun (after, before) => (before.reverse, after.reverse)

/-- The pieces between the occurrences of a byte; there is always at least one piece. -/
def splitOn (sep : UInt8) : Bytes → List Bytes
  | [] => [[]]
  | b :: rest =>
    if b = sep then [] :: splitOn sep rest
    else
      match splitOn sep rest with
      | [] => [[b]]
      | piece :: pieces => (b :: piece) :: pieces

/-- Whether `part` occurs somewhere in the text. -/
def hasInfix (part : Bytes) : Bytes → Bool
  | [] => part.isEmpty
  | b :: rest => part.isPrefixOf (b :: rest) || hasInfix part rest

/-- The text before the first occurrence of `part`, and the text that begins there. -/
def cutInfix (part : Bytes) : Bytes → Option (Bytes × Bytes)
  | [] => if part.isEmpty then some ([], []) else none
  | b :: rest =>
    if part.isPrefixOf (b :: rest) then some ([], b :: rest)
    else (cutInfix part rest).map fun (before, after) => (b :: before, after)

/-- The text without a given ending, if it has that ending. -/
def dropSuffix (ending s : Bytes) : Bytes :=
  if ending.isSuffixOf s then s.take (s.length - ending.length) else s

/-- Bytewise lexicographic comparison; a proper beginning of a text comes before the text. -/
def cmp : Bytes → Bytes → Ordering
  | [], [] => .eq
  | [], _ :: _ => .lt
  | _ :: _, [] => .gt
  | a :: as, b :: bs => if a < b then .lt else if b < a then .gt else cmp as bs

/-- Bytewise lexicographic order. -/
def le (a b : Bytes) : Bool :=
  cmp a b != .gt

/-- The texts in bytewise order. -/
def sort (texts : List Bytes) : List Bytes :=
  texts.mergeSort le

/-- Texts joined with a separator. -/
def join (sep : Bytes) : List Bytes → Bytes
  | [] => []
  | [piece] => piece
  | piece :: pieces => piece ++ sep ++ join sep pieces

/-- The first `n` bytes and the rest, when there are that many. -/
def splitExactly : Nat → Bytes → Option (Bytes × Bytes)
  | 0, s => some ([], s)
  | _ + 1, [] => none
  | n + 1, b :: s => (splitExactly n s).map fun (taken, rest) => (b :: taken, rest)

end Bytes

end ReturnAudit
