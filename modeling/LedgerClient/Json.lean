/-
  JSON documents.

  * `Json` keeps the members of an object as a list in the order of the text,
    repeated names included;
  * `Json.member?` looks a name up, the last occurrence winning, and
    `Json.settle` is the document with sorted members and without repetitions;
  * integers of at most 64 bits are kept as integers, all other numbers as
    binary64 values.
-/
import LedgerClient.Power

namespace LedgerClient

/-- A JSON document. -/
inductive Json where
  | null
  | bool (b : Bool)
  | int (i : Int)
  | real (x : Float)
  | str (s : String)
  | arr (items : List Json)
  | obj (members : List (String × Json))
deriving Inhabited

namespace Json

/-- Whether an integer is kept as an integer: from −2⁶³ to 2⁶⁴ − 1. -/
def fits (i : Int) : Bool :=
  -(twoTo 63 : Int) ≤ i && i < (twoTo 64 : Int)

/-! ## Members -/

/-- The value of the last member of the given name. -/
def lookup? (name : String) : List (String × Json) → Option Json
  | [] => none
  | (key, value) :: rest =>
    match lookup? name rest with
    | some later => some later
    | none => if key = name then some value else none

theorem sizeOf_pos (j : Json) : 0 < sizeOf j := by
  cases j <;>
    simp only [null.sizeOf_spec, bool.sizeOf_spec, int.sizeOf_spec, real.sizeOf_spec,
      str.sizeOf_spec, arr.sizeOf_spec, obj.sizeOf_spec] <;>
    omega

theorem sizeOf_members_pos (members : List (String × Json)) : 0 < sizeOf members := by
  cases members <;> simp only [List.nil.sizeOf_spec, List.cons.sizeOf_spec] <;> omega

/-- A member is smaller than the list it is found in. -/
theorem sizeOf_lookup?_lt {name : String} {members : List (String × Json)} {value : Json}
    (h : lookup? name members = some value) : sizeOf value < sizeOf members := by
  induction members with
  | nil => simp [lookup?] at h
  | cons m rest ih =>
    obtain ⟨key, v⟩ := m
    simp only [lookup?] at h
    split at h
    · rename_i later hl
      have := ih (hl.trans h)
      simp only [List.cons.sizeOf_spec]
      omega
    · split at h
      · cases h
        simp only [List.cons.sizeOf_spec, Prod.mk.sizeOf_spec]
        omega
      · simp at h

/-- The value of a member of an object. -/
def member? (name : String) : Json → Option Json
  | obj members => lookup? name members
  | _ => none

/-- The number of members of the given name. -/
def occurrences (name : String) (members : List (String × Json)) : Nat :=
  (members.filter fun m => m.1 == name).length

/-- Puts a member into a list sorted by name, replacing one of the same name. -/
def insertMember (key : String) (value : Json) : List (String × Json) → List (String × Json)
  | [] => [(key, value)]
  | (k, v) :: rest =>
    if key < k then (key, value) :: (k, v) :: rest
    else if key = k then (key, value) :: rest
    else (k, v) :: insertMember key value rest

mutual

/-- The document with the members of every object sorted by name; of members
    of one name the last is kept. -/
def settle : Json → Json
  | arr items => arr (settleItems items)
  | obj members => obj (settleMembers [] members)
  | leaf => leaf

/-- The documents of a list, settled. -/
def settleItems : List Json → List Json
  | [] => []
  | item :: items => item.settle :: settleItems items

/-- The members of a list, settled and put in turn into a sorted list. -/
def settleMembers (sorted : List (String × Json)) : List (String × Json) → List (String × Json)
  | [] => sorted
  | (key, value) :: rest => settleMembers (insertMember key value.settle sorted) rest

end

/-! ## Views -/

def str? : Json → Option String
  | str s => some s
  | _ => none

def bool? : Json → Option Bool
  | bool b => some b
  | _ => none

def int? : Json → Option Int
  | int i => some i
  | _ => none

/-- A natural number below the limit. -/
def nat? (limit : Nat) : Json → Option Nat
  | int i => if 0 ≤ i ∧ i < limit then some i.toNat else none
  | _ => none

def arr? : Json → Option (List Json)
  | arr items => some items
  | _ => none

def obj? : Json → Option (List (String × Json))
  | obj members => some members
  | _ => none

def isNull : Json → Bool
  | null => true
  | _ => false

end Json

end LedgerClient
