/-
  Checksums of address texts: a readable part, the separator `1`, and symbols
  of five bits of which the last six are a checksum.

  * `polymod` is the checksum register after a list of symbols;
  * `Variant` is one of the two constants a valid text leaves in the register;
  * `encode` appends the checksum, `decode` splits a text at its last `1` and
    says which variant its checksum belongs to.
-/
import LedgerClient.Text.Search

namespace LedgerClient.Bech32

open Text

/-- A symbol of five bits. -/
abbrev Symbol := Fin 32

/-- The character of each symbol. -/
def alphabet : List Char :=
  "qpzry9x8gf2tvdw0s3jn54khce6mua7l".toList

/-- The character of a symbol. -/
def symbolChar (s : Symbol) : Char :=
  alphabet.getD s.val 'q'

/-- The symbol of a character. -/
def symbol? (c : Char) : Option Symbol :=
  (alphabet.findIdx? (· == c)).bind fun i => if h : i < 32 then some ⟨i, h⟩ else none

/-- Whether a character stands for a symbol. -/
def isSymbol (c : Char) : Bool :=
  alphabet.contains c

/-! ## The checksum register -/

/-- The generator's five words, the lowest bit of the outgoing symbol first. -/
def generator : List (BitVec 30) :=
  [0x3b6a57b2, 0x26508e6d, 0x1ea119fa, 0x3d4233dd, 0x2a1462b3]

/-- The words of the generator selected by the bits of the outgoing symbol. -/
def feedback (out : BitVec 30) : BitVec 30 :=
  (generator.zipIdx.map fun (g, i) => if out.getLsbD i then g else 0).foldl (· ^^^ ·) 0

/-- The register after one more symbol: it shifts by five bits. -/
def step (register : BitVec 30) (v : Symbol) : BitVec 30 :=
  (register <<< 5) ^^^ BitVec.ofNat 30 v.val ^^^ feedback (register >>> 25)

/-- The register after a list of symbols. -/
def polymod (symbols : List Symbol) : BitVec 30 :=
  symbols.foldl step 1

/-- The symbols a readable part contributes: the upper bits of its characters,
    a zero, and their lower bits. -/
def expand (readable : List Char) : List Symbol :=
  readable.map (fun c => Fin.ofNat 32 (c.toNat / 32)) ++ 0 ::
    readable.map (fun c => Fin.ofNat 32 (c.toNat % 32))

/-- The two variants of the code. -/
inductive Variant where
  | plain
  | modified
deriving DecidableEq, Repr

/-- What a valid text leaves in the register. -/
def Variant.residue : Variant → BitVec 30
  | plain => 1
  | modified => 0x2bc830a3

/-- The number of checksum symbols. -/
def checksumLength : Nat := 6

/-! ## Encoding -/

/-- The six symbols of a register, the uppermost first. -/
def registerSymbols (register : BitVec 30) : List Symbol :=
  (List.range checksumLength).map fun i =>
    Fin.ofNat 32 (register >>> (5 * (5 - i))).toNat

/-- The checksum of a readable part and a payload. -/
def checksum (variant : Variant) (readable : List Char) (payload : List Symbol) : List Symbol :=
  registerSymbols (polymod (expand readable ++ payload ++ List.replicate checksumLength 0)
    ^^^ variant.residue)

/-- The text of a payload under a readable part. -/
def encode (variant : Variant) (readable : List Char) (payload : List Symbol) : List Char :=
  readable ++ '1' :: (payload ++ checksum variant readable payload).map symbolChar

/-! ## Decoding -/

/-- Why a text is not a valid code word. -/
inductive DecodeError where
  | missingSeparator
  | invalidLength
  | invalidSymbol
  | invalidChecksum
deriving DecidableEq, Repr

def DecodeError.message : DecodeError → String
  | missingSeparator => "missing human-readable separator, \"1\""
  | invalidLength => "invalid length"
  | invalidSymbol => "invalid character"
  | invalidChecksum => "invalid checksum"

/-- The greatest length of a readable part. -/
def maxReadable : Nat := 83

/-- The readable part, the payload and the variant of a code word. The text is
    split at its last `1`; the payload may have any length. -/
def decode (cs : List Char) : Except DecodeError (List Char × List Symbol × Variant) :=
  match cutAtLast? '1' cs with
  | none => .error .missingSeparator
  | some (readable, rest) =>
    if readable.isEmpty || readable.length > maxReadable then .error .invalidLength
    else match rest.mapM symbol? with
      | none => .error .invalidSymbol
      | some symbols =>
        if symbols.length < checksumLength then .error .invalidLength
        else
          let payload := symbols.take (symbols.length - checksumLength)
          let register := polymod (expand readable ++ symbols)
          if register = Variant.residue .plain then .ok (readable, payload, .plain)
          else if register = Variant.residue .modified then .ok (readable, payload, .modified)
          else .error .invalidChecksum

end LedgerClient.Bech32
