/-
  State in the older form of documents, where every value carries a `type`.

  * `Node.ofLegacy` reads such a document. Numbers carry a suffix, as in
    `5u64`, and addresses, decimals and ids are wrapped, as in `Decimal("5")`;
    both are taken off, and a text without them is taken as it is;
  * a map is a list of keys and values in turn.
-/
import LedgerClient.Fault
import LedgerClient.Json.Writer
import LedgerClient.State.Node
import LedgerClient.Text.Digit
import LedgerClient.Text.Search

namespace LedgerClient.State

open Text

/-! ## Texts -/

/-- The text of a member: a string is taken as it is, a missing or null member
    is empty, and any other document is written out. -/
def legacyText : Option Json → String
  | some (.str s) => s
  | none | some .null => ""
  | some j => j.settledText

/-- The text before the given end, without line feeds. -/
def beforeEnd? (ending : List Char) (cs : List Char) : Option (List Char) :=
  let content := cs.take (cs.length - ending.length)
  if cs.drop content.length = ending ∧ !content.contains '\n' then some content else none

/-- The content of a wrapped text such as `Decimal("5")`; other texts as they are. -/
def unwrap (s : String) : String :=
  let name := s.toList.takeWhile Char.isAlpha
  let content? := do
    let rest ← stripStart? ['(', '"'] (s.toList.drop name.length)
    beforeEnd? ['"', ')'] rest
  match name, content? with
  | _ :: _, some content => String.ofList content
  | _, _ => s

/-- The widths of integers. -/
def isWidth (cs : List Char) : Bool :=
  ["8", "16", "32", "64", "128"].contains (String.ofList cs)

/-- The suffix of an integer: a letter for its sign and a width. -/
def isIntegerSuffix : List Char → Bool
  | c :: cs => (c == 'u' || c == 'i') && isWidth cs
  | [] => false

/-- An integer without its suffix; other texts as they are. -/
def unsuffix (s : String) : String :=
  let sign := s.toList.takeWhile (· == '-')
  let number := (s.toList.drop sign.length).takeWhile isDecimalDigit
  let suffix := s.toList.drop (sign.length + number.length)
  if sign.length ≤ 1 ∧ number ≠ [] ∧ isIntegerSuffix suffix then String.ofList (sign ++ number)
  else s

/-! ## Types -/

/-- The integer type of the given name, in any case of letters. -/
def integerOfName? (name : String) : Option TextKind :=
  match lowerAscii name with
  | "i8" => some .i8
  | "i16" => some .i16
  | "i32" => some .i32
  | "i64" => some .i64
  | "i128" => some .i128
  | "u8" => some .u8
  | "u16" => some .u16
  | "u32" => some .u32
  | "u64" => some .u64
  | "u128" => some .u128
  | _ => none

/-- How a document of some type is read. -/
inductive LegacyForm where
  | tuple
  | variant
  | optional
  | collection
  | map
  | bool
  | string
  /-- a text that may be wrapped -/
  | wrapped (kind : TextKind)
  /-- a number that may carry a suffix -/
  | integer (kind : TextKind)

/-- The form of the documents of a type. -/
def LegacyForm.ofType? : String → Option LegacyForm
  | "Struct" | "Tuple" => some tuple
  | "Enum" => some variant
  | "Option" => some optional
  | "Vec" | "Array" | "List" | "Set" | "HashSet" | "TreeSet" => some collection
  | "HashMap" | "TreeMap" | "Map" => some map
  | "Bool" => some bool
  | "Decimal" => some (wrapped .decimal)
  | "PreciseDecimal" => some (wrapped .preciseDecimal)
  | "String" => some string
  | "ResourceAddress" | "ComponentAddress" | "PackageAddress" | "SystemAddress" | "Address" =>
    some (wrapped .reference)
  | "Vault" | "Bucket" | "Proof" | "KeyValueStore" | "Component" => some (wrapped .own)
  | "NonFungibleId" | "NonFungibleLocalId" => some (wrapped .localId)
  | name => (integerOfName? name).map integer

/-! ## Documents -/

/-- The elements of a list member; none where there is no such list. -/
def legacyChildren (j : Json) (name : String) : List Json :=
  ((j.member? name).bind Json.arr?).getD []

/-- The string of a member, if it has one. -/
def legacyString? (j : Json) (name : String) : Option String :=
  (j.member? name).bind Json.str?

/-- The index of a variant, which is 0 where it is not a number. -/
def legacyIndex (j : Json) : Except Fault (Fin 256) :=
  let index := ((j.member? "index").bind (Json.nat? (twoTo 64))).getD 0
  if h : index < 256 then .ok ⟨index, h⟩
  else .error (.schemaMismatch "index" "u8 enum discriminator" (numeral index))

/-- Keys and values in turn. -/
def pairs? {α : Type} : List α → Option (List (α × α))
  | [] => some []
  | [_] => none
  | key :: value :: rest => (pairs? rest).map ((key, value) :: ·)

theorem sizeOf_member?_lt {j value : Json} {name : String} (h : j.member? name = some value) :
    sizeOf value < sizeOf j := by
  cases j <;> simp only [Json.member?] at h <;> try contradiction
  have := Json.sizeOf_lookup?_lt h
  simp only [Json.obj.sizeOf_spec]
  omega

theorem sizeOf_legacyChildren_le (j : Json) (name : String) :
    sizeOf (legacyChildren j name) ≤ sizeOf j := by
  unfold legacyChildren
  cases hm : j.member? name with
  | none => exact j.sizeOf_pos
  | some value =>
    have hlt := sizeOf_member?_lt hm
    cases value <;> simp [Json.arr?] at hlt ⊢ <;> omega

mutual

/-- Reads a document. -/
def Node.ofLegacy (j : Json) : Except Fault Node := do
  let type ← match legacyString? j "type" with
    | some type => .ok type
    | none => .error (.schemaMismatch "type" "legacy type tag" j.settledText)
  let form ← match LegacyForm.ofType? type with
    | some form => .ok form
    | none => .error (.schemaMismatch "type" "known legacy type" type)
  let content ← contentOfLegacy form j
  pure (.plain content)
termination_by (sizeOf j, 2)

/-- Reads a document of the given form. -/
def contentOfLegacy (form : LegacyForm) (j : Json) : Except Fault Content :=
  match form with
  | .tuple => (nodesOfLegacy (legacyChildren j "fields")).map .tuple
  | .variant => do
    let id ← legacyIndex j
    let fields ← nodesOfLegacy (legacyChildren j "fields")
    pure (.variant id (legacyString? j "name") fields)
  | .optional =>
    match _h : j.member? "value" with
    | none | some .null => .ok .absent
    | some inner => (Node.ofLegacy inner).map .present
  | .collection =>
    (nodesOfLegacy (legacyChildren j "elements")).map (.array (legacyString? j "element_type"))
  | .map => do
    let flat ← nodesOfLegacy (legacyChildren j "elements")
    match pairs? flat with
    | some entries => .ok (.map none none entries)
    | none =>
      .error (.schemaMismatch "elements" "key/value pairs" (numeral flat.length ++ " items"))
  | .bool => .ok (.bool (legacyText (j.member? "value") == "true"))
  | .string => .ok (.text .string (legacyText (j.member? "value")))
  | .wrapped kind => .ok (.text kind (unwrap (legacyText (j.member? "value"))))
  | .integer kind => .ok (.text kind (unsuffix (legacyText (j.member? "value"))))
termination_by (sizeOf j, 1)
decreasing_by
  · have := sizeOf_legacyChildren_le j "fields"
    simp only [Prod.lex_def]
    omega
  · have := sizeOf_legacyChildren_le j "fields"
    simp only [Prod.lex_def]
    omega
  · have := sizeOf_member?_lt _h
    simp only [Prod.lex_def]
    omega
  · have := sizeOf_legacyChildren_le j "elements"
    simp only [Prod.lex_def]
    omega
  · have := sizeOf_legacyChildren_le j "elements"
    simp only [Prod.lex_def]
    omega

/-- Reads the documents of a list; the first fault counts. -/
def nodesOfLegacy : List Json → Except Fault (List Node)
  | [] => .ok []
  | item :: items => do
    let node ← Node.ofLegacy item
    let nodes ← nodesOfLegacy items
    pure (node :: nodes)
termination_by items => (sizeOf items, 0)

end

end LedgerClient.State
