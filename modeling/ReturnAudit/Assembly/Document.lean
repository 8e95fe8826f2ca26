import ReturnAudit.Assembly.Description
import ReturnAudit.Yaml.Decode

/-!
# Class descriptions in documents

How classes are described in YAML documents.
-/

namespace ReturnAudit.Assembly

open Yaml (Shape)

/-- Enum constants. -/
def EnumValue.shape (steps : Nat) : Shape EnumValue :=
  Shape.record "enum constant" {} [
    Shape.field "type" Shape.text (·.type) fun v e => { e with type := v },
    Shape.field "const" Shape.text (·.const) fun v e => { e with const := v }] steps

/-- Annotations. -/
def annotationShape (steps : Nat) : Shape Annotation :=
  Shape.record "annotation" {} [
    Shape.field "type" Shape.text (·.type) fun v a => { a with type := v },
    Shape.field "invisible" Shape.flag (·.invisible) fun v a => { a with invisible := v },
    Shape.field "strings" (Shape.dictOf Shape.text steps) (·.strings)
      fun v a => { a with strings := v },
    Shape.field "arrays" (Shape.dictOf (Shape.listOf Shape.text) steps) (·.arrays)
      fun v a => { a with arrays := v },
    Shape.field "enums" (Shape.dictOf (EnumValue.shape steps) steps) (·.enums)
      fun v a => { a with enums := v }] steps

/-- Fields. -/
def Field.shape (steps : Nat) : Shape Field :=
  Shape.record "field" {} [
    Shape.field "name" Shape.text (·.name) fun v f => { f with name := v },
    Shape.field "descriptor" Shape.text (·.descriptor) fun v f => { f with descriptor := v },
    Shape.field "static" Shape.flag (·.static) fun v f => { f with static := v }] steps

/-- Protected ranges. -/
def Handler.shape (steps : Nat) : Shape Handler :=
  Shape.record "handler" {} [
    Shape.field "start" Shape.integer (·.start) fun v h => { h with start := v },
    Shape.field "end" Shape.integer (·.stop) fun v h => { h with stop := v },
    Shape.field "handler" Shape.integer (·.handler) fun v h => { h with handler := v },
    Shape.field "catch" Shape.text (·.catchType) fun v h => { h with catchType := v }] steps

/-- Methods. -/
def Method.shape (steps : Nat) : Shape Method :=
  Shape.record "method" {} [
    Shape.field "name" Shape.text (·.name) fun v m => { m with name := v },
    Shape.field "descriptor" Shape.text (·.descriptor) fun v m => { m with descriptor := v },
    Shape.field "static" Shape.flag (·.static) fun v m => { m with static := v },
    Shape.field "native" Shape.flag (·.native) fun v m => { m with native := v },
    Shape.field "annotations" (Shape.listOf (annotationShape steps)) (·.annotations)
      fun v m => { m with annotations := v },
    Shape.field "code" (Shape.listOf Shape.text) (·.code) fun v m => { m with code := v },
    Shape.field "try" (Shape.listOf (Handler.shape steps)) (·.handlers)
      fun v m => { m with handlers := v },
    Shape.field "first_line" Shape.integer (·.firstLine) fun v m => { m with firstLine := v }] steps

/-- Classes. -/
def Class.shape (steps : Nat) : Shape Class :=
  Shape.record "class" {} [
    Shape.field "name" Shape.text (·.name) fun v c => { c with name := v },
    Shape.field "super" Shape.text (·.super) fun v c => { c with super := v },
    Shape.field "interfaces" (Shape.listOf Shape.text) (·.interfaces)
      fun v c => { c with interfaces := v },
    Shape.field "interface" Shape.flag (·.isInterface) fun v c => { c with isInterface := v },
    Shape.field "annotations" (Shape.listOf (annotationShape steps)) (·.annotations)
      fun v c => { c with annotations := v },
    Shape.field "fields" (Shape.listOf (Field.shape steps)) (·.fields)
      fun v c => { c with fields := v },
    Shape.field "methods" (Shape.listOf (Method.shape steps)) (·.methods)
      fun v c => { c with methods := v }] steps

/-- Documents that list classes. -/
def classListShape (steps : Nat) : Shape (List Class) :=
  Shape.record "class list" [] [
    Shape.field "classes" (Shape.listOf (Class.shape steps)) id fun v _ => v] steps

end ReturnAudit.Assembly
