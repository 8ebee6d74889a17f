/-
  Operations that are written down and read again.

  * `Spells op words` says that the words are the arguments of an operation in their order, where
    a report may be one word or several with spaces between them;
  * `Expressible op` says that the addresses of an operation have the form of one, that its
    listing is a local id, and that the number of its policy is in range;
  * `parse_spelled`: the operation that words spell is read from them;
  * `parse_yields` and `parse_of_unlisted`: what is read has the name that was given, which is
    unknown where the usage does not list it;
  * `parse_reads_back` says so together, and that the usage lists the arguments in their order.
-/
import LedgerClient.Operation.Reader
import LedgerClient.Proofs.Amount.Canonical
import LedgerClient.Proofs.Operation.Needs
import LedgerClient.Proofs.Scan
import LedgerClient.Proofs.Text.Search

namespace LedgerClient

open Text

/-! ## Texts of numbers -/

namespace Text

theorem trim_numeral (n : Nat) : trim (numeral n) = numeral n := by
  rw [trim, numeral, String.toList_ofList,
    trimChars_eq_self (digitEnds_of_isNumeral (isNumeral_digits n))]

/-- A numeral is read within a limit that is above the number. -/
theorem bounded?_numeral {limit n : Nat} (h : n < limit) : bounded? limit (numeral n) = some n := by
  have hchars : (numeral n).toList = digits n := String.toList_ofList
  exact bounded?_eq_some_iff.2 ⟨digits n, Or.inl hchars, isNumeral_digits n, valueOf_digits n, h⟩

end Text

namespace Amount

/-- Numbers in plain notation consist of digits and a point. -/
theorem Denotes.isDigit_or_eq {cs : List Char} {n : Nat} (h : Denotes cs n) :
    ∀ c ∈ cs, isDigit c ∨ c = '.' := by
  intro c hc
  cases h with
  | whole hw => exact Or.inl (hw.2 c hc)
  | point hw hf _ =>
    rcases List.mem_append.1 hc with hc | hc
    · exact Or.inl (hw.2 c hc)
    · rcases List.mem_cons.1 hc with rfl | hc
      · exact Or.inr rfl
      · exact Or.inl (hf.2 c hc)

theorem colon_not_mem_text (a : Amount) : ':' ∉ a.text.toList := by
  have hdenotes := (canonical_iff.2 (rfl : charsOf a.atto = _)).2
  rw [text, textOf, String.toList_ofList]
  intro hmem
  rcases hdenotes.isDigit_or_eq ':' hmem with hdigit | hpoint
  · exact absurd hdigit (by decide)
  · exact absurd hpoint (by decide)

end Amount

namespace Operation

/-! ## Arguments in order -/

/-- How the usage shows a member of an operation. -/
def placeholder : String → String
  | "ratios" => "[<resource>:<ratio>...]"
  | "report" => "<report...>"
  | member => "<" ++ member ++ ">"

/-- The arguments of an operation as the usage shows them. -/
def signature (op : Operation) : String :=
  joinWith " " (op.members.map fun member => placeholder member.1)

/-- The words for a member of an operation: one for a text, and one for each pair of a list. -/
def wordsOf : Json → List String
  | .str s => [s]
  | .arr pairs => pairs.filterMap fun
    | .arr [.str resource, .str ratio] => some (resource ++ ":" ++ ratio)
    | _ => none
  | _ => []

theorem signature_mem_usage (op : Operation) : (op.name, op.signature) ∈ usage := by
  cases op <;> simp [name, signature, members, placeholder, joinWith, usage]

theorem args_eq (op : Operation) : op.args = op.members.flatMap fun member => wordsOf member.2 := by
  cases op with
  | depositToFund resource amount ratios =>
    have hratios : wordsOf (.arr (ratios.map fun r => .strings [r.1, r.2.text])) =
        ratios.map ratioText := by
      rw [wordsOf, List.filterMap_map, ← List.filterMap_eq_map]
      rfl
    rw [args, ← hratios]
    simp only [members, List.flatMap_cons, List.flatMap_nil, List.append_nil]
    rfl
  | _ => rfl

/-! ## Words for an operation -/

/-- The words are the arguments of the operation. A report may be cut at its spaces. -/
inductive Spells : Operation → List String → Prop
  | args (op : Operation) : Spells op op.args
  | report {policy : Nat} {claim : Amount} {report : String} {pieces : List String} :
      Cut report pieces →
      Spells (reportClaim policy claim report) (numeral policy :: claim.text :: pieces)

/-- The delimiters of local ids. -/
def delimiters : List (Char × Char) :=
  [('#', '#'), ('<', '>'), ('[', ']'), ('\x7b', '\x7d')]

/-- A local id: something between two delimiters that belong together. -/
inductive IsLocalId : String → Prop
  | delimited {left right : Char} {content : List Char} : (left, right) ∈ delimiters →
      content ≠ [] → IsLocalId (String.ofList (left :: (content ++ [right])))

/-- The policy an operation is about. -/
def policy? : Operation → Option Nat
  | subscribePolicy policy _ _ | investAsInsurer policy _ _ | withdrawRewards policy
  | reportClaim policy _ _ | claimWithdraw policy | listOnMarketplace policy _ _
  | buyOnMarketplace policy _ _ _ => some policy
  | _ => none

/-- The listing an operation is about. -/
def listing? : Operation → Option String
  | buyOnMarketplace _ listing _ _ => some listing
  | _ => none

/-- The operation can be written down: its addresses and its listing have the form of such, and
    the number of its policy takes at most 128 bits. -/
structure Expressible (op : Operation) : Prop where
  shapes : ∀ a ∈ op.ownAddresses, Address.hasShape a
  policy : ∀ n, op.policy? = some n → n < twoTo 128
  listing : ∀ id, op.listing? = some id → IsLocalId id

/-! ## Reading single words -/

/-- An attempt goes on with what it came to. -/
theorem bind_ok {α β : Type} {x : Except Fault α} {f : α → Except Fault β} {a : α}
    {r : Except Fault β} (hx : x = .ok a) (hf : f a = r) : x >>= f = r := by
  rw [hx, ← hf]
  rfl

namespace Words

variable {w : Words} {index : Nat} {name : String}

theorem get_eq {word : String} (h : w.words[index]? = some word) : w.get index name = .ok word := by
  rw [get, h]

theorem amount_eq {a : Amount} (h : w.words[index]? = some a.text) :
    w.amount index name = .ok a :=
  bind_ok (get_eq h) a.parse_text

theorem checkShape_eq {a : String} (h : Address.hasShape a) : Address.checkShape a = .ok () :=
  if_pos h

theorem address_eq {a : String} (h : w.words[index]? = some a) (hshape : Address.hasShape a) :
    w.address index name = .ok a :=
  bind_ok (get_eq h) (bind_ok (checkShape_eq hshape) rfl)

theorem isLocalId_of {id : String} (h : IsLocalId id) : isLocalId id.toList := by
  obtain @⟨left, right, content, hmem, hne⟩ := h
  have hlength : 2 < (left :: (content ++ [right])).length := by
    have := List.length_pos_iff.2 hne
    simp
    omega
  have hlast : (left :: (content ++ [right])).getLast? = some right := by
    rw [← List.cons_append, List.getLast?_concat]
  rw [String.toList_ofList, isLocalId, hlast, List.head?_cons, decide_eq_true hlength]
  simp only [delimiters, List.mem_cons, List.not_mem_nil, or_false, Prod.mk.injEq] at hmem
  rcases hmem with ⟨rfl, rfl⟩ | ⟨rfl, rfl⟩ | ⟨rfl, rfl⟩ | ⟨rfl, rfl⟩ <;> rfl

theorem localId_eq {id : String} (h : w.words[index]? = some id) (hid : IsLocalId id) :
    w.localId index name = .ok id :=
  bind_ok (get_eq h) (if_pos (isLocalId_of hid))

theorem policy_eq {n : Nat} (h : w.words[index]? = some (numeral n)) (hn : n < twoTo 128) :
    w.policy index = .ok n :=
  bind_ok (get_eq h) (by rw [trim_numeral, bounded?_numeral hn])

/-- **A resource and its ratio are read from their text.** No ratio holds a colon. -/
theorem ratio_ratioText {r : String × Amount} (h : Address.hasShape r.1) :
    ratio (ratioText r) = .ok r := by
  have hcut : cutAtLast? ':' (ratioText r).toList = some (r.1.toList, r.2.text.toList) :=
    cutAtLast?_eq_some_iff.2 ⟨by simp [ratioText], r.2.colon_not_mem_text⟩
  rw [ratio, hcut]
  simp only [String.ofList_toList]
  exact bind_ok (checkShape_eq h) (bind_ok r.2.parse_text rfl)

theorem mapM_ratio : ∀ {rs : List (String × Amount)}, (∀ r ∈ rs, Address.hasShape r.1) →
    (rs.map ratioText).mapM ratio = .ok rs
  | [], _ => rfl
  | r :: rs, h => by
    rw [List.forall_mem_cons] at h
    rw [List.map_cons, List.mapM_cons]
    exact bind_ok (ratio_ratioText h.1) (bind_ok (mapM_ratio h.2) rfl)

end Words

/-! ## Reading what was written -/

section

open Words

/-- The report is read from its pieces. -/
theorem parse_report {policy : Nat} (hpolicy : policy < twoTo 128) (claim : Amount)
    {report : String} {pieces : List String} (hcut : Cut report pieces) :
    parse "report_claim" (numeral policy :: claim.text :: pieces) =
      .ok (reportClaim policy claim report) := by
  obtain ⟨piece, rest, hpieces⟩ := List.exists_cons_of_ne_nil hcut.ne_nil
  have hreport : joinWith " " ((numeral policy :: claim.text :: pieces).drop 2) = report :=
    hcut.joinWith_eq
  rw [← hreport, hpieces]
  have hpiece : (numeral policy :: claim.text :: piece :: rest)[2]? = some piece := rfl
  exact bind_ok (policy_eq rfl hpolicy) (bind_ok (amount_eq rfl) (bind_ok (get_eq hpiece) rfl))

/-- An operation is read from its arguments. -/
theorem parse_args {op : Operation} (h : op.Expressible) : parse op.name op.args = .ok op := by
  have hpolicy := h.policy
  have hshapes := h.shapes
  cases op with
  | stopUnstake | register | unregister | claimYield | registerLender => rfl
  | stake a | addStake a | unstake a | withdrawStake a | supply a | takesBack a | redeemFromPt a
  | swapPt a | withdrawFromFund a | lendMoney a | borrow a | repay a | repayCredit a =>
    exact bind_ok (amount_eq rfl) rfl
  | tokenizeYield amount maturity => exact bind_ok (amount_eq rfl) (bind_ok (amount_eq rfl) rfl)
  | withdrawRewards n | claimWithdraw n => exact bind_ok (policy_eq rfl (hpolicy n rfl)) rfl
  | subscribePolicy n amount fee | investAsInsurer n amount fee | listOnMarketplace n amount fee =>
    exact bind_ok (policy_eq rfl (hpolicy n rfl))
      (bind_ok (amount_eq rfl) (bind_ok (amount_eq rfl) rfl))
  | reportClaim n claim report => exact parse_report (hpolicy n rfl) claim .whole
  | buyOnMarketplace n listing payment fee =>
    exact bind_ok (policy_eq rfl (hpolicy n rfl)) (bind_ok (localId_eq rfl (h.listing listing rfl))
      (bind_ok (amount_eq rfl) (bind_ok (amount_eq rfl) rfl)))
  | depositToFund resource amount ratios =>
    obtain ⟨hresource, hratios⟩ := List.forall_mem_cons.1 hshapes
    rw [List.forall_mem_map] at hratios
    exact bind_ok (address_eq rfl hresource)
      (bind_ok (amount_eq rfl) (bind_ok (mapM_ratio hratios) rfl))
  | transfer recipient resource amount =>
    have hrecipient : Address.hasShape recipient := hshapes _ (by simp [ownAddresses])
    have hresource : Address.hasShape resource := hshapes _ (by simp [ownAddresses])
    exact bind_ok (address_eq rfl hrecipient)
      (bind_ok (address_eq rfl hresource) (bind_ok (amount_eq rfl) rfl))

/-- **An operation is read from the words that spell it.** -/
theorem parse_spelled {op : Operation} {words : List String} (h : op.Expressible)
    (hwords : Spells op words) : parse op.name words = .ok op := by
  cases hwords with
  | args => exact parse_args h
  | report hcut => exact parse_report (h.policy _ rfl) _ hcut

end

/-! ## What is read -/

/-- The names of the operations. -/
def names : List String :=
  usage.map Prod.fst

/-- The fault is about the words and not about the name. -/
def Known (fault : Fault) : Prop :=
  ∀ name, fault ≠ .unknownOperation name

namespace Words

variable (w : Words) (index : Nat) (name : String)

theorem get_yields : Yields (w.get index name) Known fun _ => True := by
  unfold get
  split
  · trivial
  · nofun

theorem parse_yields (text : String) : Yields (Amount.parse text) Known fun _ => True := by
  cases hread : Amount.parse text with
  | ok a => trivial
  | error fault =>
    by_cases hlong : Amount.Overruns text
    · obtain rfl : Amount.overrun = fault :=
        Except.error.inj ((Amount.parse_of_overruns hlong).symm.trans hread)
      nofun
    · obtain ⟨rfl, -⟩ := (Amount.parse_eq_error_iff hlong).1 hread
      nofun

theorem checkShape_yields (a : String) : Yields (Address.checkShape a) Known fun _ => True := by
  unfold Address.checkShape
  split
  · trivial
  · nofun

theorem amount_yields : Yields (w.amount index name) Known fun _ => True :=
  (w.get_yields index name).bind fun word _ => parse_yields word

theorem address_yields : Yields (w.address index name) Known fun _ => True :=
  (w.get_yields index name).bind fun word _ => (checkShape_yields word).bind fun _ _ => trivial

theorem localId_yields : Yields (w.localId index name) Known fun _ => True :=
  (w.get_yields index name).bind fun word _ => by
    split
    · trivial
    · nofun

theorem policy_yields : Yields (w.policy index) Known fun _ => True :=
  (w.get_yields index "policy_id").bind fun word _ => by
    split
    · trivial
    · nofun

theorem ratio_yields (word : String) : Yields (ratio word) Known fun _ => True := by
  unfold ratio
  split
  · nofun
  · exact (checkShape_yields _).bind fun _ _ => (parse_yields _).bind fun _ _ => trivial

theorem mapM_ratio_yields : ∀ words : List String, Yields (words.mapM ratio) Known fun _ => True
  | [] => trivial
  | word :: words => by
    rw [List.mapM_cons]
    exact (ratio_yields word).bind fun _ _ => (mapM_ratio_yields words).bind fun _ _ => trivial

end Words

/-- What is read from words of the given name: an operation of this name, or a fault about the
    words. -/
def Answers (name : String) (r : Except Fault Operation) : Prop :=
  Yields r Known fun op => op.name = name

theorem parseAmount_answers {name : String} (w : Words) {make : Amount → Operation}
    (h : ∀ a, (make a).name = name) : Answers name (parseAmount w make) :=
  (w.amount_yields 0 "amount").bind fun a _ => h a

theorem parsePolicyAmounts_answers {name : String} (w : Words)
    {make : Nat → Amount → Amount → Operation} (h : ∀ n a b, (make n a b).name = name) :
    Answers name (parsePolicyAmounts w make) :=
  (w.policy_yields 0).bind fun n _ => (w.amount_yields 1 "amount").bind fun a _ =>
    (w.amount_yields 2 "service_fee").bind fun b _ => h n a b

/-- **What is read has the name that was given**, row by row of the usage. -/
theorem parse_answers (words : List String) : ∀ name ∈ names, Answers name (parse name words) := by
  have amount : ∀ {name} {make : Amount → Operation}, (∀ a, (make a).name = name) →
      Answers name (parseAmount ⟨name, words⟩ make) := parseAmount_answers _
  have policyAmounts : ∀ {name} {make : Nat → Amount → Amount → Operation},
      (∀ n a b, (make n a b).name = name) → Answers name (parsePolicyAmounts ⟨name, words⟩ make) :=
    parsePolicyAmounts_answers _
  have policy : ∀ {name} {make : Nat → Operation}, (∀ n, (make n).name = name) →
      Answers name ((⟨name, words⟩ : Words).policy 0 >>= fun n => pure (make n)) :=
    fun h => (Words.policy_yields _ 0).bind fun n _ => h n
  simp only [names, usage, List.map_cons, List.map_nil, List.forall_mem_cons]
  refine ⟨amount fun _ => rfl, amount fun _ => rfl, amount fun _ => rfl, rfl,
    amount fun _ => rfl, rfl, rfl, amount fun _ => rfl, amount fun _ => rfl, ?tokenize_yield,
    amount fun _ => rfl, rfl, amount fun _ => rfl, ?deposit_to_fund, amount fun _ => rfl,
    policyAmounts fun _ _ _ => rfl, policyAmounts fun _ _ _ => rfl, policy fun _ => rfl,
    ?report_claim, policy fun _ => rfl, policyAmounts fun _ _ _ => rfl, ?buy_on_marketplace,
    rfl, amount fun _ => rfl, amount fun _ => rfl, amount fun _ => rfl, amount fun _ => rfl,
    ?transfer, nofun⟩
  case tokenize_yield =>
    exact (Words.amount_yields _ _ _).bind fun _ _ =>
      (Words.amount_yields _ _ _).bind fun _ _ => rfl
  case deposit_to_fund =>
    exact (Words.address_yields _ _ _).bind fun _ _ => (Words.amount_yields _ _ _).bind fun _ _ =>
      (Words.mapM_ratio_yields _).bind fun _ _ => rfl
  case report_claim =>
    exact (Words.policy_yields _ _).bind fun _ _ => (Words.amount_yields _ _ _).bind fun _ _ =>
      (Words.get_yields _ _ _).bind fun _ _ => rfl
  case buy_on_marketplace =>
    exact (Words.policy_yields _ _).bind fun _ _ => (Words.localId_yields _ _ _).bind fun _ _ =>
      (Words.amount_yields _ _ _).bind fun _ _ => (Words.amount_yields _ _ _).bind fun _ _ => rfl
  case transfer =>
    exact (Words.address_yields _ _ _).bind fun _ _ =>
      (Words.address_yields _ _ _).bind fun _ _ => (Words.amount_yields _ _ _).bind fun _ _ => rfl

/-- A name that the usage does not list is unknown. -/
theorem parse_of_unlisted {name : String} (h : name ∉ names) (words : List String) :
    parse name words = .error (.unknownOperation name) := by
  unfold parse
  split
  all_goals try exact absurd (by decide) h
  rfl

/-- **Operations are read back from what was written.** The usage lists the arguments of each
    operation in their order, and from these words the operation is read, also where its report
    is cut at some of its spaces. What is read has the name that was given, and the name is
    unknown exactly where the usage does not list it. -/
theorem parse_reads_back :
    (∀ op : Operation, (op.name, op.signature) ∈ usage ∧
      op.args = op.members.flatMap fun member => wordsOf member.2) ∧
    (∀ (op : Operation) (words : List String), op.Expressible → Spells op words →
      parse op.name words = .ok op) ∧
    (∀ (name : String) (words : List String) (op : Operation), parse name words = .ok op →
      op.name = name) ∧
    ∀ (name : String) (words : List String),
      (∃ other, parse name words = .error (.unknownOperation other)) ↔
        name ∉ usage.map Prod.fst := by
  refine ⟨fun op => ⟨op.signature_mem_usage, op.args_eq⟩, fun op words => parse_spelled,
    fun name words op hop => ?_, fun name words => ⟨?_, fun h => ⟨name, parse_of_unlisted h words⟩⟩⟩
  · by_cases hname : name ∈ names
    · exact (parse_answers words name hname).result hop
    · rw [parse_of_unlisted hname] at hop
      cases hop
  · rintro ⟨other, hother⟩ hname
    exact (parse_answers words name hname).error hother other rfl

/-- Also where the report holds two spaces next to each other, and is cut at both. -/
theorem parse_reads_back_two_spaces :
    let op := reportClaim 7 (.ofWhole 3 (by decide)) "water  damage"
    let words := [numeral 7, (Amount.ofWhole 3 (by decide)).text, "water", "", "damage"]
    op.Expressible ∧ Spells op words ∧ parse "report_claim" words = .ok op ∧
      op.name = "report_claim" ∧ ∃ other, parse "reports" words = .error (.unknownOperation other) := by
  intro op words
  obtain ⟨-, hread, hname, hunknown⟩ := parse_reads_back
  have hexpressible : op.Expressible :=
    ⟨nofun, fun n hn => by obtain rfl : 7 = n := Option.some.inj hn; decide, nofun⟩
  have hcut : Cut ("water" ++ " " ++ ("" ++ " " ++ "damage")) ["water", "", "damage"] :=
    .space (.space .whole)
  have hspells : Spells op words := .report hcut
  have hparse : parse "report_claim" words = .ok op := hread op words hexpressible hspells
  exact ⟨hexpressible, hspells, hparse, hname _ words op hparse,
    (hunknown "reports" words).2 (by decide)⟩

end Operation

end LedgerClient
