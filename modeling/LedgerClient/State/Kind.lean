/-
  The kinds of values in a component's state.

  * `TextKind` has the kinds whose values are texts, `Kind` all of them;
  * `Kind.name` is the name of a kind, `Kind.all` the kinds in their order, and
    `Kind.ofJson?` reads one: its name, or its place in that order.
-/
import LedgerClient.Json

namespace LedgerClient.State

/-! ## Kinds of texts -/

/-- The kinds whose values are texts. -/
inductive TextKind where
  | i8
  | i16
  | i32
  | i64
  | i128
  | u8
  | u16
  | u32
  | u64
  | u128
  | string
  | decimal
  | preciseDecimal
  | reference
  | own
  | localId
deriving DecidableEq, Repr

namespace TextKind

/-- The text kinds in their order. -/
def all : List TextKind :=
  [i8, i16, i32, i64, i128, u8, u16, u32, u64, u128, string, decimal, preciseDecimal, reference,
   own, localId]

/-- The name of a text kind. -/
def name : TextKind → String
  | i8 => "I8"
  | i16 => "I16"
  | i32 => "I32"
  | i64 => "I64"
  | i128 => "I128"
  | u8 => "U8"
  | u16 => "U16"
  | u32 => "U32"
  | u64 => "U64"
  | u128 => "U128"
  | string => "String"
  | decimal => "Decimal"
  | preciseDecimal => "PreciseDecimal"
  | reference => "Reference"
  | own => "Own"
  | localId => "NonFungibleLocalId"

/-- The unsigned integers of at most 64 bits. -/
def isUnsigned : TextKind → Bool
  | u8 | u16 | u32 | u64 => true
  | _ => false

/-- The two kinds of decimals. -/
def isDecimal : TextKind → Bool
  | decimal | preciseDecimal => true
  | _ => false

/-- The two kinds that refer to something on the ledger. -/
def isReference : TextKind → Bool
  | reference | own => true
  | _ => false

end TextKind

/-! ## All kinds -/

/-- The kinds of values. -/
inductive Kind where
  | bool
  | text (kind : TextKind)
  | bytes
  | variant
  | array
  | map
  | tuple
deriving DecidableEq, Repr

namespace Kind

/-- The kinds in their order. -/
def all : List Kind :=
  [bool] ++ TextKind.all.map text ++ [bytes, variant, array, map, tuple]

/-- The name of a kind. -/
def name : Kind → String
  | bool => "Bool"
  | text kind => kind.name
  | bytes => "Bytes"
  | variant => "Enum"
  | array => "Array"
  | map => "Map"
  | tuple => "Tuple"

/-- The kind of the given name. -/
def ofName? (name : String) : Option Kind :=
  all.find? fun kind => kind.name == name

/-- Reads a kind: its name, or its place among the kinds. -/
def ofJson? : Json → Option Kind
  | .str name => ofName? name
  | .int (.ofNat place) => all[place]?
  | _ => none

end Kind

end LedgerClient.State
