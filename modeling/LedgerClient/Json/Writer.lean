/-
  Writing JSON: the compact text, without spaces.

  * `Json.compact` writes members in the order they stand in; on a settled
    document this is the order of their names;
  * strings escape the quote, the backslash and the controls below U+0020.
-/
import LedgerClient.Json
import LedgerClient.Binary.Notation

namespace LedgerClient.Json

open Text

/-- The written form of a character inside a string. -/
def escapeChar (c : Char) : List Char :=
  if c = '"' then ['\\', '"']
  else if c = '\\' then ['\\', '\\']
  else if c = '\n' then ['\\', 'n']
  else if c = '\r' then ['\\', 'r']
  else if c = '\t' then ['\\', 't']
  else if c.toNat = 8 then ['\\', 'b']
  else if c.toNat = 12 then ['\\', 'f']
  else if c.toNat < 0x20 then '\\' :: 'u' :: padLeft 4 (hexDigits c.toNat)
  else [c]

/-- The written form of a string, with its quotes. -/
def quoted (s : String) : List Char :=
  '"' :: s.toList.flatMap escapeChar ++ ['"']

mutual

/-- The characters of the compact text. -/
def write : Json → List Char
  | null => ['n', 'u', 'l', 'l']
  | bool true => ['t', 'r', 'u', 'e']
  | bool false => ['f', 'a', 'l', 's', 'e']
  | int i => (integerNumeral i).toList
  | real x => if x.isNaN || x.isInf then ['n', 'u', 'l', 'l'] else (Binary.pointed x).toList
  | str s => quoted s
  | arr items => '[' :: writeItems items
  | obj members => '\x7b' :: writeMembers members

/-- The elements of an array and its closing bracket. -/
def writeItems : List Json → List Char
  | [] => [']']
  | [item] => item.write ++ [']']
  | item :: items => item.write ++ ',' :: writeItems items

/-- The members of an object and its closing brace. -/
def writeMembers : List (String × Json) → List Char
  | [] => ['\x7d']
  | [(key, value)] => quoted key ++ ':' :: value.write ++ ['\x7d']
  | (key, value) :: members => quoted key ++ ':' :: value.write ++ ',' :: writeMembers members

end

/-- The compact text of a document, members in the order they stand in. -/
def compact (j : Json) : String :=
  String.ofList j.write

/-- The compact text of the settled document. -/
def settledText (j : Json) : String :=
  j.settle.compact

end LedgerClient.Json
