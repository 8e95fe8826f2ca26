import ReturnAudit.ClassFile.Constant

/-!
# Attributes

An attribute is a named run of bytes. Attributes with an unknown name are passed over by those who
use them.
-/

namespace ReturnAudit.ClassFile

/-- A named run of bytes. -/
structure Attribute where
  /-- The name. -/
  name : Bytes
  /-- The contents. -/
  info : Bytes
  deriving DecidableEq, Repr

/-- Reads an attribute. -/
def readAttribute (pool : Pool) : Reader Attribute := do
  let index ← Reader.u2
  let name ← Reader.look (locate .attributeName (pool.utf8 index))
  let length ← Reader.u4
  let info ← Reader.within (.attribute name) (Reader.take length.toNat)
  pure ⟨name, info⟩

/-- Reads a counted list of attributes. -/
def readAttributes (pool : Pool) : Reader (List Attribute) := do
  let count ← Reader.u2
  Reader.many count.toNat fun _ => readAttribute pool

end ReturnAudit.ClassFile
