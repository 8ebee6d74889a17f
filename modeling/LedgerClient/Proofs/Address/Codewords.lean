/-
  Texts with a checksum.

  * `pack symbols` is the register that symbols fill, with no feedback yet; six of them fill it
    in one way only (`registerSymbols_pack`, `pack_registerSymbols`);
  * `polymod_append`: the last six symbols enter the register as they are, so that there is one
    checksum for each residue (`carries_append_iff`);
  * `decode_eq_ok_iff`: a text is decoded just where it is the encoding of what it is decoded to.
-/
import LedgerClient.Address.Bech32
import LedgerClient.Proofs.Text.Search
import Mathlib.Algebra.Group.Nat.Defs
import Mathlib.Data.List.Induction

namespace LedgerClient.Bech32

open Text

/-! ## Characters -/

theorem alphabet_eq : alphabet = (List.finRange 32).map symbolChar := by
  decide

theorem symbol?_symbolChar (s : Symbol) : symbol? (symbolChar s) = some s := by
  revert s
  decide

/-- A character is a symbol's where it is in the alphabet. -/
theorem isSymbol_iff {c : Char} : isSymbol c = true ↔ ∃ s, symbolChar s = c := by
  rw [isSymbol, List.contains_iff_mem, alphabet_eq, List.mem_map]
  simp only [List.mem_finRange, true_and]

theorem symbol?_eq_some_iff {c : Char} {s : Symbol} : symbol? c = some s ↔ c = symbolChar s := by
  constructor
  · intro h
    have hsome : ((alphabet.findIdx? (· == c)).bind fun i =>
        if h : i < 32 then some (⟨i, h⟩ : Symbol) else none) = some s := h
    obtain ⟨i, hi, -⟩ := Option.bind_eq_some_iff.1 hsome
    obtain ⟨hlt, hc, -⟩ := List.findIdx?_eq_some_iff_getElem.1 hi
    have hmem : c ∈ alphabet := by
      rw [← beq_iff_eq.1 hc]
      exact List.getElem_mem hlt
    obtain ⟨s', rfl⟩ := isSymbol_iff.1 (List.contains_iff_mem.2 hmem)
    rw [symbol?_symbolChar] at h
    rw [Option.some.inj h]
  · rintro rfl
    exact symbol?_symbolChar s

theorem separator_not_mem (symbols : List Symbol) : '1' ∉ symbols.map symbolChar := by
  intro h
  obtain ⟨s, -, hs⟩ := List.mem_map.1 h
  revert s
  decide

/-- Characters are read just where they are those of the symbols. -/
theorem mapM_symbol?_eq_some_iff {cs : List Char} {symbols : List Symbol} :
    cs.mapM symbol? = some symbols ↔ cs = symbols.map symbolChar := by
  induction cs generalizing symbols with
  | nil => cases symbols <;> simp
  | cons c cs ih =>
    rw [List.mapM_cons]
    cases symbols <;> simp [Option.bind_eq_some_iff, ih, symbol?_eq_some_iff]

/-! ## The register -/

/-- The register after symbols that do not come out of it again. -/
def pack (symbols : List Symbol) : BitVec 30 :=
  symbols.foldl (fun register v => (register <<< 5) ^^^ BitVec.ofNat 30 v.val) 0

theorem pack_concat (symbols : List Symbol) (v : Symbol) :
    pack (symbols ++ [v]) = (pack symbols <<< 5) ^^^ BitVec.ofNat 30 v.val := by
  simp [pack]

/-- A symbol takes the five bits that the shift leaves to it. -/
theorem toNat_shift_xor {x : BitVec 30} (v : Symbol) (h : x.toNat < 2 ^ 25) :
    ((x <<< 5) ^^^ BitVec.ofNat 30 v.val).toNat = 32 * x.toNat + v.val := by
  have hbits : (x <<< 5) ^^^ BitVec.ofNat 30 v.val = BitVec.ofNat 30 (2 ^ 5 * x.toNat + v.val) := by
    apply BitVec.eq_of_getLsbD_eq
    intro i hi
    rw [BitVec.getLsbD_xor, BitVec.getLsbD_shiftLeft, BitVec.getLsbD_ofNat, BitVec.getLsbD_ofNat,
      Nat.testBit_two_pow_mul_add _ v.isLt]
    by_cases h5 : i < 5
    · simp [h5, hi]
    · have hpow : 2 ^ 5 ≤ 2 ^ i := Nat.pow_le_pow_right Nat.two_pos (Nat.le_of_not_lt h5)
      have hv : v.val.testBit i = false := Nat.testBit_lt_two_pow (Nat.lt_of_lt_of_le v.isLt hpow)
      simp [h5, hi, hv, BitVec.getLsbD]
  rw [hbits, BitVec.toNat_ofNat]
  omega

/-- The number that symbols are the digits of. -/
def digitsValue (symbols : List Symbol) : Nat :=
  symbols.foldl (fun n v => 32 * n + v.val) 0

theorem digitsValue_concat (symbols : List Symbol) (v : Symbol) :
    digitsValue (symbols ++ [v]) = 32 * digitsValue symbols + v.val := by
  simp [digitsValue]

theorem digitsValue_lt (symbols : List Symbol) : digitsValue symbols < 32 ^ symbols.length := by
  induction symbols using List.reverseRecOn with
  | nil => decide
  | append_singleton symbols v ih =>
    rw [digitsValue_concat, List.length_append, List.length_singleton, Nat.pow_succ]
    omega

/-- Up to six symbols are in the register as they are. -/
theorem toNat_pack {symbols : List Symbol} (h : symbols.length ≤ 6) :
    (pack symbols).toNat = digitsValue symbols := by
  induction symbols using List.reverseRecOn with
  | nil => rfl
  | append_singleton symbols v ih =>
    have hlength : symbols.length ≤ 5 := by
      rw [List.length_append, List.length_singleton] at h
      exact Nat.le_of_succ_le_succ h
    have hvalue := ih (Nat.le_succ_of_le hlength)
    have hlt : (pack symbols).toNat < 2 ^ 25 := by
      rw [hvalue]
      exact Nat.lt_of_lt_of_le (digitsValue_lt symbols) (Nat.pow_le_pow_right (by decide) hlength)
    rw [pack_concat, digitsValue_concat, toNat_shift_xor v hlt, hvalue]

/-- Five symbols leave the upper bits of the register free. -/
theorem pack_ushiftRight {symbols : List Symbol} (h : symbols.length ≤ 5) :
    pack symbols >>> 25 = 0#30 := by
  apply BitVec.eq_of_toNat_eq
  rw [BitVec.toNat_ushiftRight, toNat_pack (Nat.le_succ_of_le h)]
  refine Nat.shiftRight_eq_zero _ _ ?_
  exact Nat.lt_of_lt_of_le (digitsValue_lt symbols) (Nat.pow_le_pow_right (by decide) h)

/-- The register is filled by its own symbols, -/
theorem pack_registerSymbols (register : BitVec 30) :
    pack (registerSymbols register) = register := by
  have hlt : register.toNat < 2 ^ 30 := register.isLt
  apply BitVec.eq_of_toNat_eq
  rw [toNat_pack (by simp [registerSymbols, checksumLength])]
  simp [registerSymbols, checksumLength, List.range, List.range.loop, digitsValue,
    BitVec.toNat_ushiftRight, Nat.shiftRight_eq_div_pow]
  omega

/-- and by no other six. -/
theorem registerSymbols_pack {symbols : List Symbol} (h : symbols.length = 6) :
    registerSymbols (pack symbols) = symbols := by
  match symbols, h with
  | [a, b, c, d, e, f], _ =>
    have hvalue : (pack [a, b, c, d, e, f]).toNat = _ := toNat_pack (by simp)
    simp [registerSymbols, checksumLength, List.range, List.range.loop, digitsValue,
      BitVec.toNat_ushiftRight, Nat.shiftRight_eq_div_pow, Fin.ext_iff] at hvalue ⊢
    omega

/-! ## The checksum -/

/-- What does not come out of the register passes through a step. -/
theorem step_xor {register small : BitVec 30} (h : small >>> 25 = 0#30) (v : Symbol) :
    step (register ^^^ small) v =
      step register 0 ^^^ ((small <<< 5) ^^^ BitVec.ofNat 30 v.val) := by
  have hout : (register ^^^ small) >>> 25 = register >>> 25 := by
    rw [BitVec.ushiftRight_xor_distrib, h, BitVec.xor_zero]
  have hzero : register <<< 5 ^^^ BitVec.ofNat 30 (0 : Symbol).val = register <<< 5 :=
    BitVec.xor_zero
  rw [step, step, hout, hzero, BitVec.shiftLeft_xor_distrib]
  ac_rfl

/-- Up to six symbols change the register as if they were zeros, and are put on top of it. -/
theorem foldl_step (register : BitVec 30) {symbols : List Symbol} (h : symbols.length ≤ 6) :
    symbols.foldl step register =
      (List.replicate symbols.length 0).foldl step register ^^^ pack symbols := by
  induction symbols using List.reverseRecOn with
  | nil => simp [pack]
  | append_singleton symbols v ih =>
    have hlength : symbols.length ≤ 5 := by
      rw [List.length_append, List.length_singleton] at h
      exact Nat.le_of_succ_le_succ h
    rw [List.foldl_append, ih (Nat.le_succ_of_le hlength), List.length_append,
      List.length_singleton, List.replicate_succ', List.foldl_append, pack_concat]
    exact step_xor (pack_ushiftRight hlength) v

theorem polymod_append (message : List Symbol) {symbols : List Symbol}
    (h : symbols.length = checksumLength) :
    polymod (message ++ symbols) =
      polymod (message ++ List.replicate checksumLength 0) ^^^ pack symbols := by
  rw [polymod, polymod, List.foldl_append, List.foldl_append, foldl_step _ (Nat.le_of_eq h), h]

/-- The symbols behind a readable part carry the checksum of this variant. -/
def Carries (variant : Variant) (readable : List Char) (symbols : List Symbol) : Prop :=
  polymod (expand readable ++ symbols) = variant.residue

@[simp] theorem length_checksum (variant : Variant) (readable : List Char)
    (payload : List Symbol) : (checksum variant readable payload).length = checksumLength := by
  simp [checksum, registerSymbols]

/-- **There is one checksum for each payload.** -/
theorem carries_append_iff {variant : Variant} {readable : List Char}
    {payload symbols : List Symbol} (h : symbols.length = checksumLength) :
    Carries variant readable (payload ++ symbols) ↔
      symbols = checksum variant readable payload := by
  rw [Carries, ← List.append_assoc, polymod_append _ h, checksum]
  constructor
  · intro hcarries
    rw [← hcarries, ← BitVec.xor_assoc, BitVec.xor_self, BitVec.zero_xor,
      registerSymbols_pack h]
  · intro hsymbols
    rw [hsymbols, pack_registerSymbols, ← BitVec.xor_assoc, BitVec.xor_self, BitVec.zero_xor]

/-! ## Decoding -/

/-- The variant of symbols is the one whose checksum they carry. -/
theorem Carries.unique {variant variant' : Variant} {readable : List Char} {symbols : List Symbol}
    (h : Carries variant readable symbols) (h' : Carries variant' readable symbols) :
    variant = variant' := by
  have hresidue : variant.residue = variant'.residue := h.symm.trans h'
  revert hresidue
  cases variant <;> cases variant' <;> decide

theorem decode_eq_ok_iff_carries {cs readable : List Char} {payload : List Symbol}
    {variant : Variant} :
    decode cs = .ok (readable, payload, variant) ↔
      readable ≠ [] ∧ readable.length ≤ maxReadable ∧ ∃ symbols,
        cutAtLast? '1' cs = some (readable, symbols.map symbolChar) ∧
        checksumLength ≤ symbols.length ∧
        payload = symbols.take (symbols.length - checksumLength) ∧
        Carries variant readable symbols := by
  unfold decode
  constructor
  · intro h
    split at h
    · cases h
    rename_i readable' rest hcut
    split at h
    · cases h
    rename_i hreadable
    rw [Bool.or_eq_true, not_or, List.isEmpty_iff, decide_eq_true_iff, Nat.not_lt] at hreadable
    split at h
    · cases h
    rename_i symbols hsymbols
    obtain rfl := mapM_symbol?_eq_some_iff.1 hsymbols
    split at h
    · cases h
    rename_i hlength
    dsimp only at h
    split at h
    · rename_i hplain
      cases h
      exact ⟨hreadable.1, hreadable.2, symbols, hcut, Nat.le_of_not_lt hlength, rfl, hplain⟩
    split at h
    · rename_i hmodified
      cases h
      exact ⟨hreadable.1, hreadable.2, symbols, hcut, Nat.le_of_not_lt hlength, rfl, hmodified⟩
    · cases h
  · rintro ⟨hne, hreadable, symbols, hcut, hlength, rfl, hcarries⟩
    have hreadable' : ¬(readable.isEmpty || decide (readable.length > maxReadable)) = true := by
      rw [Bool.or_eq_true, not_or, List.isEmpty_iff, decide_eq_true_iff]
      exact ⟨hne, Nat.not_lt.2 hreadable⟩
    simp only [hcut]
    rw [if_neg hreadable', mapM_symbol?_eq_some_iff.2 rfl]
    dsimp only
    rw [if_neg (Nat.not_lt.2 hlength)]
    cases variant with
    | plain => exact if_pos hcarries
    | modified =>
      have hplain : ¬Carries .plain readable symbols := fun h => nomatch h.unique hcarries
      exact (if_neg hplain).trans (if_pos hcarries)

/-- **A text is decoded just where it is the encoding of what it is decoded to.** -/
theorem decode_eq_ok_iff {cs readable : List Char} {payload : List Symbol} {variant : Variant} :
    decode cs = .ok (readable, payload, variant) ↔
      readable ≠ [] ∧ readable.length ≤ maxReadable ∧ cs = encode variant readable payload := by
  rw [decode_eq_ok_iff_carries]
  refine and_congr_right fun _ => and_congr_right fun _ => ?_
  constructor
  · rintro ⟨symbols, hcut, hlength, rfl, hcarries⟩
    obtain ⟨rfl, -⟩ := cutAtLast?_eq_some_iff.1 hcut
    have hdrop : (symbols.drop (symbols.length - checksumLength)).length = checksumLength := by
      rw [List.length_drop]
      omega
    rw [encode, ← (carries_append_iff hdrop).1 (by rwa [List.take_append_drop]),
      List.take_append_drop]
  · rintro rfl
    refine ⟨payload ++ checksum variant readable payload, ?_, ?_, ?_, ?_⟩
    · exact cutAtLast?_eq_some_iff.2 ⟨rfl, separator_not_mem _⟩
    · simp
    · simp
    · exact (carries_append_iff (length_checksum variant readable payload)).2 rfl

end LedgerClient.Bech32
