/-
  Manifest values: the typed arguments of calls, and their text.

  * `Value` is an argument, `Value.text` its text. Strings are escaped, so that
    no text can close its quotes and go on with instructions of its own;
  * `Value.buckets` and `Value.proofs` are the names a value refers to, from
    left to right at any depth;
  * `Value.takesEntireWorktop` holds for the values that hand the whole worktop
    over.
-/
import LedgerClient.Address
import LedgerClient.Amount

namespace LedgerClient.Manifest

open Text

/-- Everything on the worktop, or every proof in the auth zone. -/
inductive Expression where
  | entireWorktop
  | entireAuthZone
deriving DecidableEq, Repr

def Expression.name : Expression → String
  | entireWorktop => "ENTIRE_WORKTOP"
  | entireAuthZone => "ENTIRE_AUTH_ZONE"

/-- The integer types of arguments. -/
inductive IntegerKind where
  | u8
  | u32
  | u64
  | u128
  | i64
deriving DecidableEq, Repr

def IntegerKind.suffix : IntegerKind → String
  | u8 => "u8"
  | u32 => "u32"
  | u64 => "u64"
  | u128 => "u128"
  | i64 => "i64"

/-- The values of an integer type: at least `low` and below `high`. -/
def IntegerKind.range : IntegerKind → Int × Int
  | u8 => (0, twoTo 8)
  | u32 => (0, twoTo 32)
  | u64 => (0, twoTo 64)
  | u128 => (0, twoTo 128)
  | i64 => (-(twoTo 63 : Int), twoTo 63)

/-- An argument of a call. -/
inductive Value where
  | address (address : String)
  | decimal (amount : Amount)
  | preciseDecimal (amount : Amount)
  | bucket (name : String)
  | proof (name : String)
  | expression (e : Expression)
  | string (s : String)
  | bool (b : Bool)
  | integer (kind : IntegerKind) (value : Int)
  | localId (id : String)
  | enumeration (variant : Nat) (fields : List Value)
  | array (elementKind : String) (elements : List Value)
  | tuple (fields : List Value)

namespace Value

/-! ## Construction -/

/-- An address argument, refused where it does not have the form of an address. -/
def checkedAddress (address : String) : Except Fault Value :=
  (Address.checkShape address).map fun _ => .address address

def entireWorktop : Value := .expression .entireWorktop

/-- The absent optional value. -/
def absent : Value := .enumeration 0 []

/-- A present optional value. -/
def present (v : Value) : Value := .enumeration 1 [v]

/-- The local ids of non-fungibles. -/
def localIds (ids : List String) : Value :=
  .array "NonFungibleLocalId" (ids.map .localId)

/-! ## Names -/

mutual

/-- The buckets a value hands over. -/
def buckets : Value → List String
  | bucket name => [name]
  | enumeration _ vs | array _ vs | tuple vs => bucketsOf vs
  | _ => []

/-- The buckets the values of a list hand over. -/
def bucketsOf : List Value → List String
  | [] => []
  | v :: vs => v.buckets ++ bucketsOf vs

end

mutual

/-- The proofs a value hands over. -/
def proofs : Value → List String
  | proof name => [name]
  | enumeration _ vs | array _ vs | tuple vs => proofsOf vs
  | _ => []

/-- The proofs the values of a list hand over. -/
def proofsOf : List Value → List String
  | [] => []
  | v :: vs => v.proofs ++ proofsOf vs

end

mutual

/-- Whether a value hands over the entire worktop. -/
def takesEntireWorktop : Value → Bool
  | expression .entireWorktop => true
  | enumeration _ vs | array _ vs | tuple vs => anyTakesEntireWorktop vs
  | _ => false

/-- Whether a value of a list hands over the entire worktop. -/
def anyTakesEntireWorktop : List Value → Bool
  | [] => false
  | v :: vs => v.takesEntireWorktop || anyTakesEntireWorktop vs

end

/-! ## Text -/

/-- A control character: the two ranges of the category Cc. -/
def isControl (c : Char) : Bool :=
  c.toNat < 0x20 || (0x7F ≤ c.toNat && c.toNat < 0xA0)

/-- The written form of a character inside quotes. -/
def escapeChar (c : Char) : List Char :=
  if c = '"' then ['\\', '"']
  else if c = '\\' then ['\\', '\\']
  else if c = '\n' then ['\\', 'n']
  else if c = '\r' then ['\\', 'r']
  else if c = '\t' then ['\\', 't']
  else if isControl c then '\\' :: 'u' :: '\x7b' :: (hexDigits c.toNat ++ ['\x7d'])
  else [c]

/-- A string in quotes, escaped. -/
def quoted (s : String) : List Char :=
  '"' :: (s.toList.flatMap escapeChar ++ ['"'])

/-- A text of the form `Name(content)`. -/
def wrapped (name : String) (content : List Char) : List Char :=
  name.toList ++ '(' :: (content ++ [')'])

/-- A text of the form `Name<tag>(content)`. -/
def tagged (name : String) (tag content : List Char) : List Char :=
  name.toList ++ '<' :: (tag ++ '>' :: '(' :: (content ++ [')']))

mutual

/-- The characters of a value. -/
def chars : Value → List Char
  | address a => wrapped "Address" (quoted a)
  | decimal a => wrapped "Decimal" (quoted a.text)
  | preciseDecimal a => wrapped "PreciseDecimal" (quoted a.text)
  | bucket name => wrapped "Bucket" (quoted name)
  | proof name => wrapped "Proof" (quoted name)
  | expression e => wrapped "Expression" (quoted e.name)
  | string s => quoted s
  | bool true => "true".toList
  | bool false => "false".toList
  | integer kind value => (integerNumeral value).toList ++ kind.suffix.toList
  | localId id => wrapped "NonFungibleLocalId" (quoted id)
  | enumeration variant vs => tagged "Enum" (digits variant ++ "u8".toList) (listChars vs)
  | array kind vs => tagged "Array" kind.toList (listChars vs)
  | tuple vs => wrapped "Tuple" (listChars vs)

/-- The characters of the values of a list, with a comma and a space between them. -/
def listChars : List Value → List Char
  | [] => []
  | [v] => v.chars
  | v :: vs => v.chars ++ ',' :: ' ' :: listChars vs

end

/-- The text of a value. -/
def text (v : Value) : String :=
  String.ofList v.chars

end Value

end LedgerClient.Manifest
