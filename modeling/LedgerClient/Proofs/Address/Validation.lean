/-
  What a valid address tells.

  * `Fits address`: the form of an address, split at any of its `1`s;
  * `validate_eq_ok_iff`: an address is valid just where it has the form and is the encoding of a
    payload under the readable part of the kind and the network;
  * `readablePart_inj`: a readable part names one kind and one network;
  * `validate_pins_kind_and_network`: hence a valid address is that of one kind on one network.
-/
import LedgerClient.Address
import LedgerClient.Proofs.Address.Codewords

namespace LedgerClient.Address

open Text Bech32

/-! ## The form -/

/-- The form of an address: a lower-case letter and readable characters, a `1`, and at least six
    symbols. Readable characters may be `1`s as well. -/
def Fits (address : String) : Prop :=
  ∃ c rest symbols, address.toList = c :: rest ++ '1' :: symbols ∧ isLower c ∧
    (∀ d ∈ rest, isReadable d) ∧ (∀ d ∈ symbols, isSymbol d) ∧ 6 ≤ symbols.length

theorem isReadablePart_iff {cs : List Char} :
    isReadablePart cs ↔ ∃ c rest, cs = c :: rest ∧ isLower c ∧ ∀ d ∈ rest, isReadable d := by
  cases cs <;> simp [isReadablePart]

/-- The `1` in question can only be the last one, as it is no symbol. -/
theorem hasShape_iff {address : String} : hasShape address ↔ Fits address := by
  unfold hasShape
  constructor
  · intro h
    split at h
    · rename_i readable symbols hcut
      simp only [Bool.and_eq_true, List.all_eq_true, decide_eq_true_eq, and_assoc] at h
      obtain ⟨hreadable, hsymbols, hlength⟩ := h
      obtain ⟨c, rest, rfl, hc, hrest⟩ := isReadablePart_iff.1 hreadable
      exact ⟨c, rest, symbols, (cutAtLast?_eq_some_iff.1 hcut).1, hc, hrest, hsymbols, hlength⟩
    · cases h
  · rintro ⟨c, rest, symbols, haddress, hc, hrest, hsymbols, hlength⟩
    have hfree : '1' ∉ symbols := fun h => by
      have := hsymbols _ h
      revert this
      decide
    rw [cutAtLast?_eq_some_iff.2 ⟨haddress, hfree⟩]
    simp only [Bool.and_eq_true, List.all_eq_true, decide_eq_true_eq, and_assoc]
    exact ⟨isReadablePart_iff.2 ⟨c, rest, rfl, hc, hrest⟩, hsymbols, hlength⟩

/-- The parts of an address are those at its last `1`. -/
theorem Fits.parts {address : String} {readable symbols : List Char} (h : Fits address)
    (hcut : cutAtLast? '1' address.toList = some (readable, symbols)) :
    isReadablePart readable ∧ 6 ≤ symbols.length := by
  have hshape := hasShape_iff.2 h
  simp only [hasShape, hcut, Bool.and_eq_true, decide_eq_true_eq] at hshape
  exact ⟨hshape.1.1, hshape.2⟩

/-- What is encoded under a readable part has the form of an address. -/
theorem fits_encode {readable : List Char} (h : isReadablePart readable) (variant : Variant)
    (payload : List Symbol) : Fits (String.ofList (encode variant readable payload)) := by
  obtain ⟨c, rest, rfl, hc, hrest⟩ := isReadablePart_iff.1 h
  refine ⟨c, rest, _, String.toList_ofList, hc, hrest, fun d hd => ?_, ?_⟩
  · obtain ⟨s, -, hs⟩ := List.mem_map.1 hd
    exact isSymbol_iff.2 ⟨s, hs⟩
  · simp [checksumLength]

/-! ## The readable part -/

theorem toList_readablePart (kind : EntityKind) (suffix : String) :
    (readablePart kind suffix).toList = kind.word.toList ++ '_' :: suffix.toList := by
  simp [readablePart]

/-- A readable part names one kind and one network: the word of the kind ends at its first
    underscore. -/
theorem readablePart_inj {kind kind' : EntityKind} {suffix suffix' : String} :
    readablePart kind suffix = readablePart kind' suffix' ↔ kind = kind' ∧ suffix = suffix' := by
  constructor
  · intro h
    have hfree : ∀ kind : EntityKind, '_' ∉ kind.word.toList := by
      intro kind
      cases kind <;> decide
    have hcut : ∀ (kind : EntityKind) (suffix : String),
        cutAt? '_' (readablePart kind suffix).toList = some (kind.word.toList, suffix.toList) :=
      fun kind suffix => cutAt?_eq_some_iff.2 ⟨toList_readablePart kind suffix, hfree kind⟩
    have hparts := (hcut kind suffix).symm.trans (h ▸ hcut kind' suffix')
    simp only [Option.some.injEq, Prod.mk.injEq, String.toList_inj] at hparts
    refine ⟨?_, hparts.2⟩
    have hword := hparts.1
    revert hword
    cases kind <;> cases kind' <;> decide
  · rintro ⟨rfl, rfl⟩
    rfl

theorem isReadablePart_readablePart (kind : EntityKind) {suffix : String}
    (h : ∀ c ∈ suffix.toList, isReadable c) : isReadablePart (readablePart kind suffix).toList := by
  have hword : isReadablePart (kind.word.toList ++ ['_']) := by
    cases kind <;> decide
  obtain ⟨c, rest, hsplit, hc, hrest⟩ := isReadablePart_iff.1 hword
  refine isReadablePart_iff.2 ⟨c, rest ++ suffix.toList, ?_, hc, fun d hd => ?_⟩
  · rw [toList_readablePart, List.append_cons, hsplit, List.cons_append]
  · exact (List.mem_append.1 hd).elim (hrest d) (h d)

/-- Such a part consists of readable characters only. -/
theorem isReadable_of_isReadablePart {kind : EntityKind} {suffix : String}
    (h : isReadablePart (readablePart kind suffix).toList) : ∀ c ∈ suffix.toList, isReadable c := by
  intro d hd
  obtain ⟨c, rest, hsplit, hc, hrest⟩ := isReadablePart_iff.1 h
  have hmem : d ∈ c :: rest := by
    rw [← hsplit, toList_readablePart]
    exact List.mem_append_right _ (List.mem_cons_of_mem _ hd)
  obtain rfl | hmem := List.mem_cons.1 hmem
  · rw [isReadable, hc, Bool.true_or, Bool.true_or]
  · exact hrest d hmem

theorem toList_readablePart_ne_nil (kind : EntityKind) (suffix : String) :
    (readablePart kind suffix).toList ≠ [] := by
  rw [toList_readablePart]
  exact List.append_ne_nil_of_right_ne_nil _ (List.cons_ne_nil _ _)

theorem decode_encode_readablePart {kind : EntityKind} {suffix : String}
    (h : (readablePart kind suffix).length ≤ maxReadable) (variant : Variant)
    (payload : List Symbol) :
    decode (encode variant (readablePart kind suffix).toList payload) =
      .ok ((readablePart kind suffix).toList, payload, variant) :=
  decode_eq_ok_iff.2
    ⟨toList_readablePart_ne_nil kind suffix, String.length_toList ▸ h, rfl⟩

/-! ## Validity -/

variable {address suffix : String} {kind : EntityKind}

/-- A valid address has the form, and is decoded to what was expected. -/
theorem validate_eq_ok_iff_decode :
    validate address kind suffix = .ok () ↔ Fits address ∧ ∃ payload,
      decode address.toList = .ok ((readablePart kind suffix).toList, payload, .modified) := by
  rw [← hasShape_iff]
  by_cases hshape : hasShape address
  · have hcheck : checkShape address = .ok () := if_pos hshape
    rw [validate, hcheck]
    cases hdecode : decode address.toList with
    | error e => simp [bind, Except.bind]
    | ok word =>
      obtain ⟨readable, payload, variant⟩ := word
      cases variant with
      | plain => simp [bind, Except.bind]
      | modified =>
        have hreadable : String.ofList readable = readablePart kind suffix ↔
            readable = (readablePart kind suffix).toList := by
          rw [← String.toList_inj, String.toList_ofList]
        simp [bind, Except.bind, hshape, hreadable]
  · have hcheck : checkShape address = .error (.invalidAddress address) := if_neg hshape
    rw [validate, hcheck]
    simp [hshape, bind, Except.bind]

/-- A valid address has the form, the expected readable part in front of its last `1`, and the
    checksum behind it. -/
theorem validate_eq_ok_iff_carries :
    validate address kind suffix = .ok () ↔ Fits address ∧ ∃ symbols,
      cutAtLast? '1' address.toList =
        some ((readablePart kind suffix).toList, symbols.map symbolChar) ∧
      (readablePart kind suffix).length ≤ maxReadable ∧
      Carries .modified (readablePart kind suffix).toList symbols := by
  rw [validate_eq_ok_iff_decode]
  refine and_congr_right fun hfits => ?_
  simp only [decode_eq_ok_iff_carries, String.length_toList]
  constructor
  · rintro ⟨payload, -, hlength, symbols, hcut, -, -, hcarries⟩
    exact ⟨symbols, hcut, hlength, hcarries⟩
  · rintro ⟨symbols, hcut, hlength, hcarries⟩
    have hsymbols : 6 ≤ symbols.length := List.length_map symbolChar ▸ (hfits.parts hcut).2
    exact ⟨_, toList_readablePart_ne_nil kind suffix, hlength, symbols, hcut, hsymbols, rfl,
      hcarries⟩

/-- **A valid address is the encoding of a payload** under the readable part of the kind and the
    network. -/
theorem validate_eq_ok_iff_encode :
    validate address kind suffix = .ok () ↔
      (∀ c ∈ suffix.toList, isReadable c) ∧ (readablePart kind suffix).length ≤ maxReadable ∧
      ∃ payload,
        address = String.ofList (encode .modified (readablePart kind suffix).toList payload) := by
  rw [validate_eq_ok_iff_decode]
  constructor
  · rintro ⟨hfits, payload, hdecode⟩
    obtain ⟨-, hlength, haddress⟩ := decode_eq_ok_iff.1 hdecode
    have hcut := cutAtLast?_eq_some_iff.2 ⟨haddress, separator_not_mem _⟩
    exact ⟨isReadable_of_isReadablePart (hfits.parts hcut).1, String.length_toList ▸ hlength,
      payload, by rw [← haddress, String.ofList_toList]⟩
  · rintro ⟨hsuffix, hlength, payload, rfl⟩
    refine ⟨fits_encode (isReadablePart_readablePart kind hsuffix) .modified payload, payload, ?_⟩
    rw [String.toList_ofList]
    exact decode_encode_readablePart hlength .modified payload

/-- An address with the checksum of the other variant is told apart. -/
theorem validate_encode_plain (h : ∀ c ∈ suffix.toList, isReadable c)
    (hlength : (readablePart kind suffix).length ≤ maxReadable) (payload : List Symbol) :
    let text := String.ofList (encode .plain (readablePart kind suffix).toList payload)
    validate text kind suffix = .error (.invalidAddress (text ++ ": not bech32m encoded")) := by
  intro text
  have hreadable := isReadablePart_readablePart kind h
  have hcheck : checkShape text = .ok () :=
    if_pos (hasShape_iff.2 (fits_encode hreadable .plain payload))
  have hdecode : decode text.toList =
      .ok ((readablePart kind suffix).toList, payload, .plain) := by
    rw [String.toList_ofList]
    exact decode_encode_readablePart hlength .plain payload
  rw [validate, hcheck]
  simp only [bind, Except.bind, hdecode]

/-- **A valid address is that of one kind on one network.** -/
theorem validate_pins_kind_and_network (kind : EntityKind) (suffix : String) :
    (∀ address, validate address kind suffix = .ok () ↔ Fits address ∧ ∃ symbols,
      cutAtLast? '1' address.toList =
        some ((readablePart kind suffix).toList, symbols.map symbolChar) ∧
      (readablePart kind suffix).length ≤ 83 ∧
      Carries .modified (readablePart kind suffix).toList symbols) ∧
    ((∀ c ∈ suffix.toList, isReadable c) → (readablePart kind suffix).length ≤ 83 →
      ∀ payload,
        let text := fun variant =>
          String.ofList (encode variant (readablePart kind suffix).toList payload)
        validate (text .modified) kind suffix = .ok () ∧
        validate (text .plain) kind suffix =
          .error (.invalidAddress (text .plain ++ ": not bech32m encoded"))) ∧
    (∀ address kind' suffix', validate address kind suffix = .ok () →
      validate address kind' suffix' = .ok () → kind' = kind ∧ suffix' = suffix) := by
  refine ⟨fun address => validate_eq_ok_iff_carries, fun hsuffix hlength payload => ⟨?_, ?_⟩,
    fun address kind' suffix' h h' => ?_⟩
  · exact validate_eq_ok_iff_encode.2 ⟨hsuffix, hlength, payload, rfl⟩
  · exact validate_encode_plain hsuffix hlength payload
  · obtain ⟨-, payload, hdecode⟩ := validate_eq_ok_iff_decode.1 h
    obtain ⟨-, payload', hdecode'⟩ := validate_eq_ok_iff_decode.1 h'
    have hword := Except.ok.inj (hdecode'.symm.trans hdecode)
    exact readablePart_inj.1 (String.toList_inj.1 (Prod.mk.inj hword).1)

/-- The address of the native token, and all accounts on a network with underscores and a digit in
    its name. -/
theorem validate_pins_kind_and_network_native_token :
    let token := "resource_rdx1tknxxxxxxxxxradxrdxxxxxxxxx009923554798xxxxxxxxxradxrd"
    validate token .resource "rdx" = .ok () ∧
      (∀ kind suffix, validate token kind suffix = .ok () → kind = .resource ∧ suffix = "rdx") ∧
      (∀ c ∈ "tdx_2_".toList, isReadable c) ∧ (readablePart .account "tdx_2_").length ≤ 83 ∧
      ∀ payload,
        validate (String.ofList (encode .modified (readablePart .account "tdx_2_").toList payload))
          .account "tdx_2_" = .ok () := by
  intro token
  have htoken : validate token .resource "rdx" = .ok () := by
    decide +kernel
  have hsuffix : ∀ c ∈ "tdx_2_".toList, isReadable c := List.all_eq_true.1 rfl
  have hlength : (readablePart .account "tdx_2_").length ≤ 83 := by
    decide
  obtain ⟨-, -, hpins⟩ := validate_pins_kind_and_network .resource "rdx"
  obtain ⟨-, hencoded, -⟩ := validate_pins_kind_and_network .account "tdx_2_"
  exact ⟨htoken, fun kind suffix h => hpins token kind suffix htoken h, hsuffix, hlength,
    fun payload => (hencoded hsuffix hlength payload).1⟩

end LedgerClient.Address
