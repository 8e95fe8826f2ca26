import ReturnAudit.Text.Bytes

/-!
# Class descriptions

A class can be described by its names, members, annotations and one line of assembly for each
instruction. Such a description is what a class file is encoded from. Names are dotted.
-/

namespace ReturnAudit.Assembly

/-- An enum constant with the dotted name of its type. -/
structure EnumValue where
  /-- The enum class. -/
  type : Bytes := []
  /-- The constant. -/
  const : Bytes := []
  deriving DecidableEq, Repr, Inhabited

/-- An annotation with string, string array and enum elements; each list has one entry for a name.
-/
structure Annotation where
  /-- The annotation class. -/
  type : Bytes := []
  /-- Whether the annotation is dropped at run time. -/
  invisible : Bool := false
  /-- The string elements. -/
  strings : List (Bytes × Bytes) := []
  /-- The string array elements. -/
  arrays : List (Bytes × List Bytes) := []
  /-- The enum elements. -/
  enums : List (Bytes × EnumValue) := []
  deriving DecidableEq, Repr, Inhabited

/-- A field. -/
structure Field where
  /-- The name. -/
  name : Bytes := []
  /-- The type. -/
  descriptor : Bytes := []
  /-- Whether it is static. -/
  static : Bool := false
  deriving DecidableEq, Repr, Inhabited

/-- A protected range with its handler; an empty class name catches everything. -/
structure Handler where
  /-- The first protected position. -/
  start : Int := 0
  /-- The first position after the range. -/
  stop : Int := 0
  /-- Where the handler starts. -/
  handler : Int := 0
  /-- The caught class. -/
  catchType : Bytes := []
  deriving DecidableEq, Repr, Inhabited

/-- A method. Without code it is native or abstract. -/
structure Method where
  /-- The name. -/
  name : Bytes := []
  /-- The types of the parameters and of the result. -/
  descriptor : Bytes := []
  /-- Whether it is static. -/
  static : Bool := false
  /-- Whether a method without code is native. -/
  native : Bool := false
  /-- The annotations. -/
  annotations : List Annotation := []
  /-- One line of assembly for each instruction. -/
  code : List Bytes := []
  /-- The protected ranges. -/
  handlers : List Handler := []
  /-- When positive, the source line of the first instruction; the others follow one by one. -/
  firstLine : Int := 0
  deriving DecidableEq, Repr, Inhabited

/-- A class. -/
structure Class where
  /-- The name. -/
  name : Bytes := []
  /-- The class it extends; when empty, the root of all classes. -/
  super : Bytes := []
  /-- The interfaces. -/
  interfaces : List Bytes := []
  /-- Whether it is an interface. -/
  isInterface : Bool := false
  /-- The annotations. -/
  annotations : List Annotation := []
  /-- The fields. -/
  fields : List Field := []
  /-- The methods. -/
  methods : List Method := []
  deriving DecidableEq, Repr, Inhabited

end ReturnAudit.Assembly
