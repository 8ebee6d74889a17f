/-
  Searching a text for the first occurrence of another.

  * `stripStart? p cs` is what follows `p` at the start of `cs`;
  * `after? p cs` is what follows the first occurrence of `p` in `cs`;
  * `cutAt? c cs` splits a text at the first `c`, `cutAtLast? c cs` at the last.
-/

namespace LedgerClient.Text

/-- What follows `p` where the text starts with it. -/
def stripStart? : List Char → List Char → Option (List Char)
  | [], cs => some cs
  | _ :: _, [] => none
  | p :: ps, c :: cs => if p = c then stripStart? ps cs else none

/-- Whether the text starts with `p`. -/
def startsWith (p cs : List Char) : Bool :=
  (stripStart? p cs).isSome

/-- What follows the first occurrence of `p` in the text. -/
def after? (p : List Char) : List Char → Option (List Char)
  | [] => stripStart? p []
  | c :: cs =>
    match stripStart? p (c :: cs) with
    | some rest => some rest
    | none => after? p cs

/-- Whether `p` occurs in the text. -/
def occursIn (p cs : List Char) : Bool :=
  (after? p cs).isSome

/-- What stands before and after the first `stop`, where there is one. -/
def cutAt? (stop : Char) : List Char → Option (List Char × List Char)
  | [] => none
  | c :: cs => if c = stop then some ([], cs) else (cutAt? stop cs).map fun (a, b) => (c :: a, b)

/-- What stands before and after the last `stop`, where there is one. -/
def cutAtLast? (stop : Char) : List Char → Option (List Char × List Char)
  | [] => none
  | c :: cs =>
    match cutAtLast? stop cs with
    | some (a, b) => some (c :: a, b)
    | none => if c = stop then some ([], cs) else none

/-- Whether the string contains the other. -/
def contains (part whole : String) : Bool :=
  occursIn part.toList whole.toList

/-- The texts with `separator` between them. -/
def joinWith (separator : String) : List String → String
  | [] => ""
  | [s] => s
  | s :: ss => s ++ separator ++ joinWith separator ss

/-- ASCII upper-case letters replaced by their lower-case ones. -/
def lowerAscii (s : String) : String :=
  String.ofList (s.toList.map fun c =>
    if 65 ≤ c.toNat && c.toNat ≤ 90 then Char.ofNat (c.toNat + 32) else c)

end LedgerClient.Text
