/-
  The values in a component's state.

  * `Node` is a value with the names that are attached to it, `Content` the
    value alone: a truth value, a text of some kind, bytes, a variant with its
    fields, a collection, a map or a tuple;
  * `Content.kind` is its kind, `Content.text?` the text it holds, and
    `Content.option?` reads the two variants of an optional value.
-/
import LedgerClient.State.Kind

namespace LedgerClient.State

mutual

/-- A value with the names attached to it: that of the field it is in, and
    that of its type. -/
inductive Node where
  | mk (fieldName typeName : Option String) (content : Content)

/-- A value. -/
inductive Content where
  | bool (b : Bool)
  | text (kind : TextKind) (s : String)
  | bytes (elementKind : Option String) (hex : String)
  | variant (id : Fin 256) (name : Option String) (fields : List Node)
  | array (elementKind : Option String) (elements : List Node)
  | map (keyKind valueKind : Option String) (entries : List (Node × Node))
  | tuple (fields : List Node)

end

namespace Content

/-- The kind of a value. -/
def kind : Content → Kind
  | bool _ => .bool
  | text kind _ => .text kind
  | bytes _ _ => .bytes
  | variant _ _ _ => .variant
  | array _ _ => .array
  | map _ _ _ => .map
  | tuple _ => .tuple

/-- The text of a value that has one; that of bytes is in hexadecimal. -/
def text? : Content → Option String
  | text _ s => some s
  | bytes _ hex => some hex
  | _ => none

/-- Reads an optional value: the variant 0 without fields is the absent one,
    the variant 1 holds the value in its only field. Their names may be missing. -/
def option? : Content → Option (Option Node)
  | variant 0 none [] | variant 0 (some "None") [] => some none
  | variant 1 none [inner] | variant 1 (some "Some") [inner] => some (some inner)
  | _ => none

/-- The absent optional value. -/
def absent : Content :=
  variant 0 (some "None") []

/-- A present optional value. -/
def present (inner : Node) : Content :=
  variant 1 (some "Some") [inner]

end Content

namespace Node

/-- A value without names. -/
def plain (content : Content) : Node :=
  mk none none content

/-- The name of the field a value is in. -/
def fieldName : Node → Option String
  | mk fieldName _ _ => fieldName

/-- The name of the type of a value. -/
def typeName : Node → Option String
  | mk _ typeName _ => typeName

/-- The value without its names. -/
def content : Node → Content
  | mk _ _ content => content

/-- The kind of a value. -/
def kind (n : Node) : Kind :=
  n.content.kind

end Node

end LedgerClient.State
