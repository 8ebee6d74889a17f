/-
  Records in JSON: objects with known members.

  * `record? fields j` are the members of a record. Unknown members are ignored
    and a known one may occur once only. A record may also be written as the
    list of its members' values; such a list may end before the members that
    are marked as `droppable`;
  * `required?`, `optional?` and `defaulted?` read one member: an optional one
    may be missing or null, a defaulted one may be missing;
  * `listOf?` and `oneOf?` read lists, and words out of a fixed set.
-/
import LedgerClient.Json

namespace LedgerClient.Json

/-- A member of a record: its name, and whether a list may end before it. -/
structure Field where
  name : String
  droppable : Bool

/-- A member that a list has to hold. -/
def Field.must (name : String) : Field := ⟨name, false⟩

/-- A member before which a list may end. -/
def Field.may (name : String) : Field := ⟨name, true⟩

/-- Gives names to the values of a list. -/
def nameItems? : List Field → List Json → Option (List (String × Json))
  | [], [] => some []
  | [], _ :: _ => none
  | f :: fs, [] => if f.droppable then nameItems? fs [] else none
  | f :: fs, item :: items => (nameItems? fs items).map ((f.name, item) :: ·)

/-- The members of a record. -/
def record? (fields : List Field) : Json → Option (List (String × Json))
  | obj members =>
    if fields.all fun f => occurrences f.name members ≤ 1 then some members else none
  | arr items => nameItems? fields items
  | _ => none

variable {α : Type}

/-- Reads a member that has to be there. -/
def required? (members : List (String × Json)) (name : String) (read : Json → Option α) :
    Option α :=
  (lookup? name members).bind read

/-- Reads a member that may be missing or null. -/
def optional? (members : List (String × Json)) (name : String) (read : Json → Option α) :
    Option (Option α) :=
  match lookup? name members with
  | none | some null => some none
  | some j => (read j).map some

/-- Reads a member that may be missing, and then has the given value. -/
def defaulted? (members : List (String × Json)) (name : String) (read : Json → Option α)
    (missing : α) : Option α :=
  match lookup? name members with
  | none => some missing
  | some j => read j

/-- Reads every element of a list. -/
def listOf? (read : Json → Option α) : Json → Option (List α)
  | arr items => items.mapM read
  | _ => none

/-- Reads a word out of a fixed set: the word itself, or an object whose only
    member has the word as its name and null as its value. -/
def oneOf? (words : List (String × α)) : Json → Option α
  | str s => words.lookup s
  | obj [(s, null)] => words.lookup s
  | _ => none

/-! ## Writing -/

/-- A string, or null. -/
def ofOption (s : Option String) : Json :=
  match s with
  | some s => str s
  | none => null

/-- A list of strings. -/
def strings (ss : List String) : Json :=
  arr (ss.map str)

/-- A natural number. -/
def nat (n : Nat) : Json :=
  int n

end LedgerClient.Json
