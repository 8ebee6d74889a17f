/-
  Tables of a TOML document while its lines are read.

  * `Item` is a value, a table or an array of tables; a table remembers how it
    came to be (`Origin`), because that decides what may still be added to it;
  * `insert?` adds the value of a key line to a table, `open?` the table of a
    `[header]`, `append?` the next table of a `[[header]]`; they fail where a
    name would be defined twice;
  * `toJson` is the finished document.
-/
import LedgerClient.Json

namespace LedgerClient.Toml

/-- How a table came to be. -/
inductive Origin where
  /-- named by a `[header]` of its own -/
  | header
  /-- on the way to the table of a longer header -/
  | implied
  /-- on the way to the value of a dotted key -/
  | dotted
deriving DecidableEq

/-- What a name stands for. -/
inductive Item where
  | value (j : Json)
  | table (origin : Origin) (entries : List (String × Item))
  | tables (elements : List (List (String × Item)))

/-- The names of a table and what they stand for, in the order of their definition. -/
abbrev Entries := List (String × Item)

/-- What a name stands for. -/
def find? (name : String) (entries : Entries) : Option Item :=
  entries.lookup name

/-- Lets a name stand for something, in its old place where it is known. -/
def set (name : String) (item : Item) : Entries → Entries
  | [] => [(name, item)]
  | (n, old) :: rest => if n = name then (n, item) :: rest else (n, old) :: set name item rest

/-- Applies `change` to the table of a name, whatever kind of table it is; of an
    array of tables the last one. A name without meaning gets a new table. -/
def within? (name : String) (fresh : Origin) (allowed : Origin → Bool)
    (change : Origin → Entries → Option Entries) (entries : Entries) : Option Entries :=
  match find? name entries with
  | none => (change fresh []).map fun inner => set name (.table fresh inner) entries
  | some (.table origin inner) =>
    if allowed origin then
      (change origin inner).map fun inner => set name (.table origin inner) entries
    else none
  | some (.tables elements) =>
    match elements.getLast? with
    | some last =>
      (change .implied last).map fun last =>
        set name (.tables (elements.dropLast ++ [last])) entries
    | none => none
  | some (.value _) => none

/-- Adds the value of a key line. Tables with a header of their own are closed
    to dotted keys. -/
def insert? (here : Origin) (j : Json) : List String → Entries → Option Entries
  | [], _ => none
  | [name], entries =>
    match here, find? name entries with
    | .implied, _ => none
    | _, none => some (set name (.value j) entries)
    | _, some _ => none
  | name :: path, entries =>
    within? name .dotted (· != .header) (fun origin => insert? origin j path) entries

/-- Applies `change` to the table at the end of a path of headers. -/
def descend? (change : Entries → Option Entries) : List String → Entries → Option Entries
  | [], entries => change entries
  | name :: path, entries =>
    within? name .implied (fun _ => true) (fun _ => descend? change path) entries

/-- Opens the table of a `[header]`: a new one, or one that was only implied. -/
def open? (name : String) (entries : Entries) : Option Entries :=
  match find? name entries with
  | none => some (set name (.table .header []) entries)
  | some (.table .implied inner) => some (set name (.table .header inner) entries)
  | some _ => none

/-- Appends a table for a `[[header]]`. -/
def append? (name : String) (entries : Entries) : Option Entries :=
  match find? name entries with
  | none => some (set name (.tables [[]]) entries)
  | some (.tables elements) => some (set name (.tables (elements ++ [[]])) entries)
  | some _ => none

mutual

/-- An item as a document. -/
def Item.toJson : Item → Json
  | .value j => j
  | .table _ entries => .obj (entriesToJson entries)
  | .tables elements => .arr (elementsToJson elements)

/-- The entries of a table as members. -/
def entriesToJson : List (String × Item) → List (String × Json)
  | [] => []
  | (name, item) :: rest => (name, item.toJson) :: entriesToJson rest

/-- The elements of an array of tables as documents. -/
def elementsToJson : List (List (String × Item)) → List Json
  | [] => []
  | entries :: rest => .obj (entriesToJson entries) :: elementsToJson rest

end

end LedgerClient.Toml
