/-
  Addresses: texts of the form `readable1symbols`, whose readable part names
  the kind of the entity and the network.

  * `Address.hasShape` is the form alone, which is what makes an address safe
    to write between quotes; `Address.checkShape` refuses everything else;
  * `Address.validate` also checks the checksum, the kind and the network.
-/
import LedgerClient.Fault
import LedgerClient.Address.Bech32

namespace LedgerClient

open Text

/-- The kinds of entities an address can name. -/
inductive EntityKind where
  | account
  | component
  | resource
  | validator
  | package
  | pool
deriving DecidableEq, Repr

namespace EntityKind

/-- All kinds. -/
def all : List EntityKind := [account, component, resource, validator, package, pool]

/-- The word of a kind, with which its addresses start. -/
def word : EntityKind → String
  | account => "account"
  | component => "component"
  | resource => "resource"
  | validator => "validator"
  | package => "package"
  | pool => "pool"

/-- The name of a kind. -/
def name : EntityKind → String
  | account => "Account"
  | component => "Component"
  | resource => "Resource"
  | validator => "Validator"
  | package => "Package"
  | pool => "Pool"

/-- The kind of the given word. -/
def ofWord? (word : String) : Option EntityKind :=
  all.find? fun kind => kind.word == word

end EntityKind

namespace Address

def isLower (c : Char) : Bool :=
  97 ≤ c.toNat && c.toNat ≤ 122

/-- A character of a readable part: a lower-case letter, a digit or an underscore. -/
def isReadable (c : Char) : Bool :=
  isLower c || (48 ≤ c.toNat && c.toNat ≤ 57) || c == '_'

/-- A readable part: a lower-case letter, then readable characters. -/
def isReadablePart : List Char → Bool
  | [] => false
  | c :: cs => isLower c && cs.all isReadable

/-- The form of an address: split at its last `1`, a readable part and at least
    six symbols. -/
def hasShape (s : String) : Bool :=
  match cutAtLast? '1' s.toList with
  | some (readable, symbols) =>
    isReadablePart readable && symbols.all Bech32.isSymbol && 6 ≤ symbols.length
  | none => false

/-- Refuses a text that does not have the form of an address. -/
def checkShape (s : String) : Except Fault Unit :=
  if hasShape s then .ok () else .error (.invalidAddress s)

/-- The readable part of addresses of a kind on the network with the given suffix. -/
def readablePart (kind : EntityKind) (suffix : String) : String :=
  kind.word ++ "_" ++ suffix

/-- Refuses an address whose checksum, kind or network is wrong. -/
def validate (address : String) (kind : EntityKind) (suffix : String) : Except Fault Unit := do
  checkShape address
  match Bech32.decode address.toList with
  | .error e => .error (.invalidAddress (address ++ ": " ++ e.message))
  | .ok (_, _, .plain) => .error (.invalidAddress (address ++ ": not bech32m encoded"))
  | .ok (readable, _, .modified) =>
    let expected := readablePart kind suffix
    let found := String.ofList readable
    if found = expected then .ok ()
    else .error (.invalidAddress
      (address ++ ": expected prefix '" ++ expected ++ "', found '" ++ found ++ "'"))

end Address

end LedgerClient
