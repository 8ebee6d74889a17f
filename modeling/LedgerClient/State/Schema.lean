/-
  Schemas: the named fields expected at the top of a component's state.

  * `FieldKind` is what a field has to be, `Schema` the expected fields in
    order;
  * `Schema.decode` finds every field in a tuple, by name where the payload
    carries names and by position where it does not, and checks its kind;
  * `Fields` are the fields found. `Fields.amount`, `Fields.unsigned` and so on
    read one of them; a field that is missing or of another kind is a fault.
-/
import LedgerClient.Decimal
import LedgerClient.State.Node

namespace LedgerClient.State

/-! ## Schemas -/

/-- What a field has to be. -/
inductive FieldKind where
  | only (kind : Kind)
  /-- an unsigned integer of at most 64 bits -/
  | unsigned
  | optional
  | any
deriving DecidableEq, Repr

namespace FieldKind

/-- The name of an expectation. -/
def name : FieldKind → String
  | only kind => kind.name
  | unsigned => "unsigned integer"
  | optional => "Option"
  | any => "any"

/-- Whether a value is what is expected. -/
def accepts : FieldKind → Content → Bool
  | only kind, content => content.kind == kind
  | unsigned, .text kind _ => kind.isUnsigned
  | unsigned, _ => false
  | optional, content => content.option?.isSome
  | any, _ => true

end FieldKind

/-- The expected fields, in order. -/
abbrev Schema := List (String × FieldKind)

/-- The fields found in a state, in the order of the schema. -/
structure Fields where
  values : List (String × Node)

namespace Schema

/-- The node of a field: by name where any field of the payload is named, by
    position otherwise. -/
def find? (payload : List Node) (place : Nat) (name : String) : Option Node :=
  if payload.any fun node => node.fieldName.isSome then
    payload.find? fun node => node.fieldName == some name
  else payload[place]?

/-- Finds a field and checks its kind. -/
def decodeField (payload : List Node) (place : Nat) (name : String) (kind : FieldKind) :
    Except Fault Node :=
  match find? payload place name with
  | none => .error (.schemaMismatch name kind.name "missing")
  | some node =>
    if kind.accepts node.content then .ok node
    else .error (.schemaMismatch name kind.name node.kind.name)

/-- Finds the fields of a schema from the given place on. -/
def decodeFrom (payload : List Node) (place : Nat) : Schema → Except Fault (List (String × Node))
  | [] => .ok []
  | (name, kind) :: rest => do
    let node ← decodeField payload place name kind
    let nodes ← decodeFrom payload (place + 1) rest
    pure ((name, node) :: nodes)

/-- Finds the fields of a schema in a component's state, which is a tuple. -/
def decode (schema : Schema) (root : Node) : Except Fault Fields :=
  match root.content with
  | .tuple payload => (decodeFrom payload 0 schema).map Fields.mk
  | other => .error (.schemaMismatch "<root>" "Tuple" other.kind.name)

end Schema

/-! ## Fields -/

namespace Fields

/-- The node of a field; where a schema names a field twice, the later one. -/
def get? (s : Fields) (name : String) : Option Node :=
  s.values.reverse.lookup name

/-- The value of a field that has to be there. -/
def require (s : Fields) (name expected : String) : Except Fault Content :=
  match s.get? name with
  | some node => .ok node.content
  | none => .error (.schemaMismatch name expected "missing")

/-- Reads a field; one that cannot be read is reported with its kind. -/
def read {α : Type} (s : Fields) (name expected : String) (view : Content → Option α) :
    Except Fault α := do
  let content ← s.require name expected
  match view content with
  | some value => .ok value
  | none => .error (.schemaMismatch name expected content.kind.name)

/-- The text of a value of one of the given kinds. -/
def textOf? (kinds : TextKind → Bool) : Content → Option String
  | .text kind s => if kinds kind then some s else none
  | _ => none

/-- Reads a field that is a text; one that means nothing is reported as it is. -/
def readText {α : Type} (s : Fields) (name expected : String) (kinds : TextKind → Bool)
    (meaning : String → Option α) : Except Fault α := do
  let text ← s.read name expected (textOf? kinds)
  match meaning text with
  | some value => .ok value
  | none => .error (.schemaMismatch name expected text)

/-- A decimal, rounded to the digits a `Decimal` can hold. -/
def decimal (s : Fields) (name : String) : Except Fault Decimal :=
  s.readText name "Decimal" TextKind.isDecimal Decimal.ofText?

/-- A decimal as an amount, never rounded. -/
def amount (s : Fields) (name : String) : Except Fault Amount := do
  let text ← s.read name "Decimal" (textOf? TextKind.isDecimal)
  Amount.parseOr (.schemaMismatch name "Decimal" text) text

/-- A string. -/
def string (s : Fields) (name : String) : Except Fault String :=
  s.read name "String" (textOf? (· == .string))

/-- The address of something the component refers to or owns. -/
def reference (s : Fields) (name : String) : Except Fault String :=
  s.read name "Reference" (textOf? TextKind.isReference)

/-- An unsigned integer below 2⁶⁴. -/
def unsigned (s : Fields) (name : String) : Except Fault Nat :=
  s.readText name "unsigned integer" TextKind.isUnsigned (Text.bounded? (twoTo 64))

/-- A truth value. -/
def bool (s : Fields) (name : String) : Except Fault Bool :=
  s.read name "Bool" fun
    | .bool b => some b
    | _ => none

/-- The elements of a collection. -/
def array (s : Fields) (name : String) : Except Fault (List Node) :=
  s.read name "Array" fun
    | .array _ elements => some elements
    | _ => none

/-- The entries of a map. -/
def map (s : Fields) (name : String) : Except Fault (List (Node × Node)) :=
  s.read name "Map" fun
    | .map _ _ entries => some entries
    | _ => none

/-- An optional value. -/
def option (s : Fields) (name : String) : Except Fault (Option Node) :=
  s.read name "Option" Content.option?

end Fields

end LedgerClient.State
