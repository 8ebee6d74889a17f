/-
  TOML documents.

  * `Toml.read?` reads a whole document, line by line: comments, `[headers]`,
    `[[headers]]` and key lines. The result is an object; a name that is
    defined twice makes the document unreadable.
-/
import LedgerClient.Toml.Value

namespace LedgerClient.Toml

/-- The greatest number of arrays and inline tables inside each other. -/
def maxDepth : Nat := 80

/-- The tables read so far, and the header of the current one. -/
structure Progress where
  root : Entries
  current : List String

/-- The line starting here, which is not empty and no comment, and what follows it. -/
def line? (p : Progress) (cs : List Char) : Option (Progress × List Char) :=
  let fuel := 2 * cs.length + 2
  let header? (closing : List Char) (define : String → Entries → Option Entries)
      (rest : List Char) : Option (Progress × List Char) := do
    let (path, rest) ← dottedKey? fuel rest
    let name ← path.getLast?
    let root ← descend? (define name) path.dropLast p.root
    if rest.take closing.length = closing then
      pure (⟨root, path⟩, rest.drop closing.length)
    else none
  match cs with
  | '[' :: '[' :: rest => header? [']', ']'] append? rest
  | '[' :: rest => header? [']'] open? rest
  | _ => do
    let (path, rest) ← dottedKey? fuel cs
    match rest with
    | '=' :: rest =>
      let (j, rest) ← value? fuel maxDepth (Toml.skipBlank rest)
      let root ← descend? (insert? .header j path) p.current p.root
      pure (⟨root, p.current⟩, rest)
    | _ => none

/-- Reads line after line. -/
def document? : (fuel : Nat) → Progress → List Char → Option Progress
  | 0, _, _ => none
  | fuel + 1, p, cs => do
    match ← skipLines? (cs.length + 1) cs with
    | [] => some p
    | rest =>
      let (p, rest) ← line? p rest
      match ← skipComment? (skipBlank rest) with
      | [] => some p
      | rest => document? fuel p (← lineEnd? rest)

/-- Reads a whole document. -/
def read? (s : String) : Option Json := do
  let cs := match s.toList with
    | '\uFEFF' :: cs => cs
    | cs => cs
  let p ← document? (cs.length + 1) ⟨[], []⟩ cs
  pure (.obj (entriesToJson p.root))

end LedgerClient.Toml
