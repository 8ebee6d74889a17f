/-
  Balances as exact totals.

  * `r.listed` are the texts of the amounts that count for a resource, `r.units` is what they
    come to, and `r.Countable` says that each of them is an amount and that their sum is one;
  * `Last vaults address a`: `a` is the amount that is listed last for a vault;
  * `decides_total`: the vaults of a resource are added up just where it is countable, and every
    vault is noted on the way. No partial sum is beyond the range where the whole is not
    (`atEach_sum_lt_iff`);
  * `ofEntity_exact`: so the balances of an entity are the exact sums, complete and in order, and
    the order of the vaults of a resource makes no difference to them.
-/
import LedgerClient.Proofs.Amount.Sum
import LedgerClient.Proofs.Scan

namespace LedgerClient

/-! ## What is listed -/

/-- The units of the amount that a text stands for; a text that is no amount counts nothing. -/
def Amount.unitsIn (raw : String) : Nat :=
  match Amount.parse raw with
  | .ok a => a.atto
  | .error _ => 0

namespace FungibleResource

/-- The texts of the amounts that count: those of the vaults, or else the amount of its own. -/
def listed (r : FungibleResource) : List String :=
  match r.vaults with
  | some page => page.map (·.amount)
  | none => r.amount.toList

/-- The units that are listed. -/
def units (r : FungibleResource) : Nat :=
  (r.listed.map Amount.unitsIn).sum

/-- Every listed text is an amount, and so is their sum. -/
structure Countable (r : FungibleResource) : Prop where
  accepted : ∀ raw ∈ r.listed, ∃ a, Amount.parse raw = .ok a
  le_max : r.units ≤ twoTo 191 - 1

/-- The vaults that are listed. -/
def page (r : FungibleResource) : List FungibleVault :=
  r.vaults.getD []

theorem countable_iff {r : FungibleResource} :
    r.Countable ↔ (∀ raw ∈ r.listed, ∃ a, Amount.parse raw = .ok a) ∧ r.units < twoTo 191 := by
  rw [← Nat.le_sub_one_iff_lt (twoTo_pos 191)]
  exact ⟨fun h => ⟨h.accepted, h.le_max⟩, fun h => ⟨h.1, h.2⟩⟩

end FungibleResource

namespace NonFungibleResource

/-- The numbers that count: those of the vaults, or else the number of its own. -/
def listed (r : NonFungibleResource) : List Nat :=
  match r.vaults with
  | some page => page.map (·.count)
  | none => r.amount.toList

/-- The number that is listed. -/
def number (r : NonFungibleResource) : Nat :=
  r.listed.sum

end NonFungibleResource

/-- The amount is the one that is listed last for the vault. -/
def Last (vaults : List FungibleVault) (address : String) (a : Amount) : Prop :=
  ∃ before vault after, vaults = before ++ vault :: after ∧ vault.address = address ∧
    Amount.parse vault.amount = .ok a ∧ ∀ later ∈ after, later.address ≠ address

/-- What the balances of an entity come to. -/
structure Balances.Exact (b : Balances) (entity : Entity) : Prop where
  address : b.address = entity.address
  /-- the resources with a sum other than zero, in their order, each with its sum -/
  fungibles : b.fungibles.map (fun held => (held.resource, held.amount.atto)) =
    ((entity.fungibles.getD []).filter (0 < ·.units)).map fun r => (r.address, r.units)
  /-- the resources with a number other than zero, in their order, each with all its ids -/
  nonFungibles : b.nonFungibles = ((entity.nonFungibles.getD []).filter (0 < ·.number)).map
    fun r => ⟨r.address, r.number, (r.vaults.getD []).flatMap (·.ids)⟩
  /-- every vault that is listed is noted -/
  noted : ∀ r ∈ entity.fungibles.getD [], ∀ vault ∈ r.page,
    ∃ a, b.vaults.lookup vault.address = some a
  /-- what is noted of a vault is its last amount -/
  vaults : ∀ address a, b.vaults.lookup address = some a ↔
    Last ((entity.fungibles.getD []).flatMap (·.page)) address a
  /-- no vault is there twice -/
  distinct : (b.vaults.map Prod.fst).Nodup

/-! ## Orders of vaults -/

/-- The same resource, with its vaults in another order. -/
structure FungibleResource.Reordered (r r' : FungibleResource) : Prop where
  address : r'.address = r.address
  amount : r'.amount = r.amount
  vaults : Option.Rel List.Perm r.vaults r'.vaults

/-- The same resource, with its vaults in another order. -/
structure NonFungibleResource.Reordered (r r' : NonFungibleResource) : Prop where
  address : r'.address = r.address
  amount : r'.amount = r.amount
  vaults : Option.Rel List.Perm r.vaults r'.vaults

/-- The same resources, each with its vaults in another order. -/
structure Entity.Reordered (entity entity' : Entity) : Prop where
  fungibles : List.Forall₂ FungibleResource.Reordered (entity.fungibles.getD [])
    (entity'.fungibles.getD [])
  nonFungibles : List.Forall₂ NonFungibleResource.Reordered (entity.nonFungibles.getD [])
    (entity'.nonFungibles.getD [])

/-- The same texts are listed, in some order. -/
theorem FungibleResource.Reordered.listed_perm {r r' : FungibleResource} (h : r.Reordered r') :
    r.listed.Perm r'.listed := by
  obtain ⟨address, amount, page⟩ := r
  obtain ⟨address', amount', page'⟩ := r'
  obtain ⟨-, rfl, hvaults⟩ := h
  cases hvaults with
  | some hperm => exact hperm.map _
  | none => exact .refl _

theorem FungibleResource.Reordered.units_eq {r r' : FungibleResource} (h : r.Reordered r') :
    r'.units = r.units :=
  (h.listed_perm.map Amount.unitsIn).sum_eq.symm

theorem FungibleResource.Reordered.countable_iff {r r' : FungibleResource} (h : r.Reordered r') :
    r'.Countable ↔ r.Countable := by
  simp only [FungibleResource.countable_iff, h.units_eq, h.listed_perm.mem_iff]

theorem NonFungibleResource.Reordered.number_eq {r r' : NonFungibleResource}
    (h : r.Reordered r') : r'.number = r.number := by
  obtain ⟨address, amount, page⟩ := r
  obtain ⟨address', amount', page'⟩ := r'
  obtain ⟨-, rfl, hvaults⟩ := h
  cases hvaults with
  | some hperm => exact (hperm.map _).sum_eq.symm
  | none => rfl

/-! ## Sums within a limit -/

/-- No partial sum reaches a limit that the whole sum does not reach. -/
theorem atEach_sum_lt_iff {α : Type} (f : α → Nat) {limit start : Nat} (hstart : start < limit)
    (xs : List α) :
    AtEach (fun before x => start + (before.map f).sum + f x < limit) xs ↔
      start + (xs.map f).sum < limit := by
  induction xs generalizing start with
  | nil => simpa [AtEach.nil] using hstart
  | cons x xs ih =>
    rw [AtEach.cons_iff]
    simp only [List.map_nil, List.sum_nil, List.map_cons, List.sum_cons, Nat.add_zero,
      ← Nat.add_assoc]
    by_cases hx : start + f x < limit
    · rw [ih hx, and_iff_right hx]
    · refine iff_of_false (fun h => hx h.1) fun h => hx ?_
      omega

/-! ## Amounts by vault -/

namespace VaultAmounts

variable {address address' : String} {a : Amount} {vs : VaultAmounts}

theorem lookup_cons (first : String) (x : Amount) (vs : VaultAmounts) (address : String) :
    ((first, x) :: vs).lookup address = if address = first then some x else vs.lookup address := by
  rw [List.lookup_cons]
  by_cases h : address = first
  · simp [h]
  · rw [if_neg h, beq_false_of_ne h]

theorem lookup_insert :
    (vs.insert address a).lookup address' =
      if address' = address then some a else vs.lookup address' := by
  induction vs with
  | nil => simp [VaultAmounts.insert, lookup_cons]
  | cons v vs ih =>
    obtain ⟨first, x⟩ := v
    rw [VaultAmounts.insert]
    by_cases hfirst : first = address
    · rw [if_pos hfirst, lookup_cons, lookup_cons, hfirst]
      by_cases h : address' = address <;> simp [h]
    · rw [if_neg hfirst, lookup_cons, lookup_cons, ih]
      by_cases h : address' = first
      · simp [h, hfirst]
      · simp [h]

theorem mem_insert :
    address' ∈ (vs.insert address a).map Prod.fst ↔
      address' = address ∨ address' ∈ vs.map Prod.fst := by
  induction vs with
  | nil => simp [VaultAmounts.insert]
  | cons v vs ih =>
    obtain ⟨first, x⟩ := v
    rw [VaultAmounts.insert]
    by_cases hfirst : first = address
    · simp [hfirst]
    · rw [if_neg hfirst, List.map_cons, List.map_cons, List.mem_cons, List.mem_cons, ih]
      exact or_left_comm

theorem nodup_insert (h : (vs.map Prod.fst).Nodup) :
    ((vs.insert address a).map Prod.fst).Nodup := by
  induction vs with
  | nil => simp [VaultAmounts.insert]
  | cons v vs ih =>
    obtain ⟨first, x⟩ := v
    rw [VaultAmounts.insert]
    rw [List.map_cons, List.nodup_cons] at h
    by_cases hfirst : first = address
    · rw [if_pos hfirst]
      exact List.nodup_cons.2 h
    · rw [if_neg hfirst, List.map_cons, List.nodup_cons]
      refine ⟨fun hmem => ?_, ih h.2⟩
      rcases mem_insert.1 hmem with heq | hmem
      · exact hfirst heq
      · exact h.1 hmem

end VaultAmounts

theorem last_concat_iff {vaults : List FungibleVault} {vault : FungibleVault} {address : String}
    {a : Amount} :
    Last (vaults ++ [vault]) address a ↔
      if address = vault.address then Amount.parse vault.amount = .ok a
      else Last vaults address a := by
  constructor
  · rintro ⟨before, listed, after, he, rfl, hparse, hlast⟩
    rcases List.eq_nil_or_concat after with rfl | ⟨after, final, rfl⟩
    · obtain ⟨-, rfl⟩ := by simpa using List.append_inj' he rfl
      rwa [if_pos rfl]
    · obtain ⟨rfl, hfinal⟩ : vaults = before ++ listed :: after ∧ [vault] = [final] :=
        List.append_inj' (by simpa using he) rfl
      obtain rfl := List.singleton_inj.1 hfinal
      have hne : vault.address ≠ listed.address := hlast vault (by simp)
      rw [if_neg (Ne.symm hne)]
      exact ⟨before, listed, after, rfl, rfl, hparse,
        fun later hlater => hlast later (by simp [hlater])⟩
  · split
    · rename_i heq
      intro hparse
      exact ⟨vaults, vault, [], rfl, heq.symm, hparse, by simp⟩
    · rename_i hne
      rintro ⟨before, listed, after, rfl, hlisted, hparse, hlast⟩
      refine ⟨before, listed, after ++ [vault], by simp, hlisted, hparse, ?_⟩
      intro later hlater
      rcases List.mem_append.1 hlater with hlater | hlater
      · exact hlast later hlater
      · rw [List.mem_singleton.1 hlater]
        exact Ne.symm hne

/-- The amounts are those that are listed last, each vault once. -/
structure VaultAmounts.Notes (vs : VaultAmounts) (listed : List FungibleVault) : Prop where
  noted : ∀ vault ∈ listed, ∃ a, vs.lookup vault.address = some a
  lookup : ∀ address a, vs.lookup address = some a ↔ Last listed address a
  distinct : (vs.map Prod.fst).Nodup

theorem VaultAmounts.notes_nil : VaultAmounts.Notes [] [] :=
  ⟨by simp, fun address a => by simp [Last], by simp⟩

/-- What is noted of one more vault takes the place of what was noted of it before. -/
theorem VaultAmounts.Notes.insert {vs : VaultAmounts} {listed : List FungibleVault}
    (h : vs.Notes listed) {vault : FungibleVault} {a : Amount}
    (ha : Amount.parse vault.amount = .ok a) :
    VaultAmounts.Notes (vs.insert vault.address a) (listed ++ [vault]) := by
  refine ⟨fun other hother => ?_, fun address a' => ?_, VaultAmounts.nodup_insert h.distinct⟩
  · rw [VaultAmounts.lookup_insert]
    split
    · exact ⟨a, rfl⟩
    · rename_i hne
      rcases List.mem_append.1 hother with hother | hother
      · exact h.noted other hother
      · exact absurd (congrArg FungibleVault.address (List.mem_singleton.1 hother)) hne
  · rw [VaultAmounts.lookup_insert, last_concat_iff, ha]
    by_cases heq : address = vault.address
    · rw [if_pos heq, if_pos heq]
      simp
    · rw [if_neg heq, if_neg heq]
      exact h.lookup address a'

/-! ## Adding up -/

theorem Amount.unitsIn_of_parse {raw : String} {a : Amount} (h : Amount.parse raw = .ok a) :
    Amount.unitsIn raw = a.atto := by
  rw [unitsIn, h]

namespace Balances

theorem decides_gatewayAmount (raw : String) :
    Decides (gatewayAmount raw) (∃ a, Amount.parse raw = .ok a)
      fun a => Amount.parse raw = .ok a := by
  cases hread : gatewayAmount raw with
  | ok a =>
    have hparse := Amount.parseOr_eq_ok_iff.1 hread
    exact ⟨⟨a, hparse⟩, hparse⟩
  | error fault =>
    rintro ⟨a, ha⟩
    rw [gatewayAmount, Amount.parseOr_eq_ok_iff.2 ha] at hread
    cases hread

/-- The units in vaults. -/
def unitsOf (vaults : List FungibleVault) : Nat :=
  (vaults.map fun vault => Amount.unitsIn vault.amount).sum

theorem unitsOf_concat (vaults : List FungibleVault) (vault : FungibleVault) :
    unitsOf (vaults ++ [vault]) = unitsOf vaults + Amount.unitsIn vault.amount := by
  simp [unitsOf]

/-- One more vault can be added: it has an amount, and the sum so far leaves room for it. -/
def Fits (past : List FungibleVault) (vault : FungibleVault) : Prop :=
  (∃ a, Amount.parse vault.amount = .ok a) ∧
    unitsOf past + Amount.unitsIn vault.amount < twoTo 191

theorem atEach_fits_iff (page : List FungibleVault) :
    AtEach Fits page ↔
      (∀ vault ∈ page, ∃ a, Amount.parse vault.amount = .ok a) ∧ unitsOf page < twoTo 191 := by
  have hsums := atEach_sum_lt_iff (fun vault : FungibleVault => Amount.unitsIn vault.amount)
    (twoTo_pos 191) page
  simp only [Nat.zero_add] at hsums
  exact AtEach.and_iff.trans (and_congr AtEach.const_iff hsums)

theorem decides_addVault (resource : String) {noted past : List FungibleVault}
    {sofar : Amount × VaultAmounts} (hsum : sofar.1.atto = unitsOf past)
    (hnotes : sofar.2.Notes (noted ++ past)) (vault : FungibleVault) :
    Decides (addVault resource sofar vault) (Fits past vault) fun sofar' =>
      sofar'.1.atto = unitsOf (past ++ [vault]) ∧ sofar'.2.Notes (noted ++ (past ++ [vault])) := by
  rw [addVault]
  refine (decides_gatewayAmount vault.amount).bind fun a ha => ?_
  rw [unitsOf_concat, ← hsum, Amount.unitsIn_of_parse ha]
  by_cases hroom : sofar.1.atto + a.atto < twoTo 191
  · rw [Amount.checkedAdd_eq_some hroom, ← List.append_assoc]
    exact ⟨hroom, rfl, hnotes.insert ha⟩
  · rw [Amount.checkedAdd_eq_none hroom]
    exact hroom

theorem decides_addVaults (resource : String) {vaults : VaultAmounts} {noted : List FungibleVault}
    (hnotes : vaults.Notes noted) (page : List FungibleVault) :
    Decides (page.foldlM (addVault resource) (.zero, vaults)) (AtEach Fits page) fun sum =>
      sum.1.atto = unitsOf page ∧ sum.2.Notes (noted ++ page) := by
  refine decides_foldlM Fits (fun (sofar : Amount × VaultAmounts) past =>
    sofar.1.atto = unitsOf past ∧ sofar.2.Notes (noted ++ past)) ?_ page [] (.zero, vaults)
    ⟨rfl, by rwa [List.append_nil]⟩
  intro sofar past vault hsofar
  exact decides_addVault resource hsofar.1 hsofar.2 vault

/-- **The sum of a resource is exact**, and there is one just where the resource is countable. -/
theorem decides_total {vaults : VaultAmounts} {noted : List FungibleVault}
    (hnotes : vaults.Notes noted) (r : FungibleResource) :
    Decides (total vaults r) r.Countable fun sum =>
      sum.1.atto = r.units ∧ sum.2.Notes (noted ++ r.page) := by
  have hnone : vaults.Notes (noted ++ []) := by rwa [List.append_nil]
  obtain ⟨address, amount, page⟩ := r
  cases page with
  | some page =>
    have hunits : FungibleResource.units ⟨address, amount, some page⟩ = unitsOf page := by
      simp [FungibleResource.units, FungibleResource.listed, unitsOf, Function.comp_def]
    rw [hunits]
    refine (decides_addVaults address hnotes page).congr ?_
    rw [atEach_fits_iff, FungibleResource.countable_iff, hunits, FungibleResource.listed,
      List.forall_mem_map]
  | none =>
    cases amount with
    | none =>
      have hcountable : FungibleResource.Countable ⟨address, none, none⟩ :=
        FungibleResource.countable_iff.2 ⟨by simp [FungibleResource.listed], twoTo_pos 191⟩
      exact ⟨hcountable, rfl, hnone⟩
    | some raw =>
      have hlisted : FungibleResource.listed ⟨address, some raw, none⟩ = [raw] := rfl
      have hunits : FungibleResource.units ⟨address, some raw, none⟩ = Amount.unitsIn raw := by
        simp [FungibleResource.units, hlisted]
      have hread : Decides (gatewayAmount raw >>= fun a => .ok (a, vaults))
          ((∃ a, Amount.parse raw = .ok a) ∧ Amount.unitsIn raw < twoTo 191)
          fun sum => sum.1.atto = Amount.unitsIn raw ∧ sum.2.Notes (noted ++ []) :=
        (decides_gatewayAmount raw).bind fun a ha => by
          rw [Amount.unitsIn_of_parse ha]
          exact ⟨a.atto_lt, rfl, hnone⟩
      rw [hunits]
      refine hread.congr ?_
      rw [FungibleResource.countable_iff, hunits, hlisted, List.forall_mem_singleton]

/-- A balance as its resource and its units. -/
def entry (held : ResourceBalance) : String × Nat :=
  (held.resource, held.amount.atto)

/-- The resources of which something is held, each with its units. -/
def heldOf (resources : List FungibleResource) : List (String × Nat) :=
  (resources.filter (0 < ·.units)).map fun r => (r.address, r.units)

/-- What balances come to with some of the fungible resources, and what they started from. -/
structure Adds (start b : Balances) (past : List FungibleResource) : Prop where
  address : b.address = start.address
  nonFungibles : b.nonFungibles = start.nonFungibles
  fungibles : b.fungibles.map entry = heldOf past
  vaults : b.vaults.Notes (past.flatMap (·.page))

theorem decides_addFungible {start b : Balances} {past : List FungibleResource}
    (h : Adds start b past) (r : FungibleResource) :
    Decides (addFungible b r) r.Countable fun b' => Adds start b' (past ++ [r]) := by
  have hsum := decides_total h.vaults r
  rw [addFungible]
  cases htotal : total b.vaults r with
  | error fault =>
    rw [htotal] at hsum
    exact hsum
  | ok sum =>
    obtain ⟨amount, vaults⟩ := sum
    rw [htotal] at hsum
    obtain ⟨hcountable, hunits, hnotes⟩ := hsum
    simp only at hunits
    have hheld :
        (if amount.isZero then [] else [(⟨r.address, amount⟩ : ResourceBalance)]).map entry =
          heldOf [r] := by
      by_cases hzero : amount.atto = 0
      · simp [heldOf, Amount.isZero, ← hunits, hzero]
      · simp [heldOf, Amount.isZero, ← hunits, hzero, Nat.pos_of_ne_zero hzero, entry]
    refine ⟨hcountable, h.address, h.nonFungibles, ?_, ?_⟩
    · show (b.fungibles ++ _).map entry = heldOf (past ++ [r])
      rw [List.map_append, h.fungibles, hheld, heldOf, heldOf, heldOf, List.filter_append,
        List.map_append]
    · rwa [List.flatMap_append, List.flatMap_singleton]

/-- **There are balances just where every fungible resource is countable.** -/
theorem decides_ofEntity (entity : Entity) :
    Decides (ofEntity entity) (∀ r ∈ entity.fungibles.getD [], r.Countable) fun b =>
      Adds ⟨entity.address, [], (entity.nonFungibles.getD []).filterMap holding?, []⟩ b
        (entity.fungibles.getD []) := by
  refine (decides_foldlM (fun _ r => r.Countable) (Adds _) (fun _ _ r h => decides_addFungible h r)
    (entity.fungibles.getD []) [] _ ⟨rfl, rfl, rfl, ?_⟩).congr AtEach.const_iff
  exact VaultAmounts.notes_nil

/-! ## Faults -/

theorem gatewayAmount_mayMismatch {raw : String} (h : ¬Amount.Overruns raw) :
    MayMismatch (gatewayAmount raw) :=
  Amount.parseOr_mayMismatch h

theorem addVault_mayMismatch (resource : String) (sofar : Amount × VaultAmounts)
    {vault : FungibleVault} (h : ¬Amount.Overruns vault.amount) :
    MayMismatch (addVault resource sofar vault) := by
  rw [addVault]
  refine (gatewayAmount_mayMismatch h).bind fun a _ => ?_
  cases sofar.1.checkedAdd a with
  | some total => trivial
  | none => rfl

theorem total_mayMismatch (vaults : VaultAmounts) {r : FungibleResource}
    (h : ∀ raw ∈ r.listed, ¬Amount.Overruns raw) : MayMismatch (total vaults r) := by
  obtain ⟨address, amount, page⟩ := r
  cases page with
  | some page =>
    exact Yields.foldlM page (fun vault hvault sofar =>
      addVault_mayMismatch address sofar (h _ (List.mem_map_of_mem hvault))) _
  | none =>
    cases amount with
    | some raw =>
      have hraw := gatewayAmount_mayMismatch (h raw (List.mem_singleton_self raw))
      exact hraw.map fun _ _ => trivial
    | none => trivial

/-- Where no listed text stops the program, all that goes wrong is a mismatch. -/
theorem ofEntity_mayMismatch {entity : Entity}
    (h : ∀ r ∈ entity.fungibles.getD [], ∀ raw ∈ r.listed, ¬Amount.Overruns raw) :
    MayMismatch (ofEntity entity) := by
  refine Yields.foldlM _ (fun r hr b => ?_) _
  rw [addFungible]
  exact (total_mayMismatch b.vaults (h r hr)).bind fun _ _ => trivial

/-! ## Non-fungible resources -/

theorem count_eq (r : NonFungibleResource) : count r = r.number := by
  obtain ⟨address, amount, page⟩ := r
  cases page with
  | some page => exact (List.foldr_map).symm
  | none => cases amount <;> rfl

theorem filterMap_holding? (resources : List NonFungibleResource) :
    resources.filterMap holding? = (resources.filter (0 < ·.number)).map
      fun r => ⟨r.address, r.number, (r.vaults.getD []).flatMap (·.ids)⟩ := by
  induction resources with
  | nil => rfl
  | cons r resources ih =>
    by_cases hr : 0 < r.number
    · simp [holding?, count_eq, ids, hr, ih]
    · simp [holding?, count_eq, hr, ih]

theorem exact_of_adds {entity : Entity} {b : Balances}
    (h : Adds ⟨entity.address, [], (entity.nonFungibles.getD []).filterMap holding?, []⟩ b
      (entity.fungibles.getD [])) : b.Exact entity where
  address := h.address
  fungibles := h.fungibles
  nonFungibles := h.nonFungibles.trans (filterMap_holding? _)
  noted r hr vault hvault := h.vaults.noted vault (List.mem_flatMap.2 ⟨r, hr, hvault⟩)
  vaults := h.vaults.lookup
  distinct := h.vaults.distinct

/-! ## Other orders -/

theorem forall_countable_congr {rs rs' : List FungibleResource}
    (h : List.Forall₂ FungibleResource.Reordered rs rs') :
    (∀ r ∈ rs', r.Countable) ↔ ∀ r ∈ rs, r.Countable := by
  induction h with
  | nil => rfl
  | cons hr _ ih => rw [List.forall_mem_cons, List.forall_mem_cons, hr.countable_iff, ih]

theorem heldOf_congr {rs rs' : List FungibleResource}
    (h : List.Forall₂ FungibleResource.Reordered rs rs') : heldOf rs' = heldOf rs := by
  induction h with
  | nil => rfl
  | @cons r r' rs rs' hr _ ih =>
    rw [heldOf, heldOf] at ih
    by_cases hpos : 0 < r.units <;> simp [heldOf, hr.units_eq, hr.address, hpos, ih]

/-- A holding as its resource and its number. -/
def tally (held : NonFungibleHolding) : String × Nat :=
  (held.resource, held.count)

theorem tally_congr {rs rs' : List NonFungibleResource}
    (h : List.Forall₂ NonFungibleResource.Reordered rs rs') :
    (rs'.filterMap holding?).map tally = (rs.filterMap holding?).map tally := by
  induction h with
  | nil => rfl
  | @cons r r' rs rs' hr _ ih =>
    by_cases hpos : 0 < r.number <;>
      simp [holding?, count_eq, hr.number_eq, hr.address, hpos, tally, ih]

theorem entry_injective : Function.Injective entry := by
  rintro ⟨resource, amount⟩ ⟨resource', amount'⟩ h
  obtain ⟨hresource, hatto⟩ := Prod.mk.inj h
  rw [ResourceBalance.mk.injEq]
  exact ⟨hresource, Amount.ext hatto⟩

/-- **Balances are exact and complete.** There are balances just where every listed amount is
    one and so is the sum of each resource, and where no listed text stops the program all else is
    reported as a mismatch. They hold the exact sums in order, the numbers of the non-fungible
    resources, and what was listed last for each vault. The vaults of a resource may come in any
    order. -/
theorem ofEntity_exact (entity : Entity) :
    ((∃ b, ofEntity entity = .ok b) ↔ ∀ r ∈ entity.fungibles.getD [], r.Countable) ∧
    ((∀ r ∈ entity.fungibles.getD [], ∀ raw ∈ r.listed, ¬Amount.Overruns raw) →
      ∀ fault, ofEntity entity = .error fault → fault.kind = "SchemaMismatch") ∧
    (∀ b, ofEntity entity = .ok b → b.Exact entity) ∧
    ∀ entity', entity.Reordered entity' →
      ((∃ b', ofEntity entity' = .ok b') ↔ ∃ b, ofEntity entity = .ok b) ∧
      ∀ b b', ofEntity entity = .ok b → ofEntity entity' = .ok b' →
        b'.fungibles = b.fungibles ∧ b'.nonFungibles.map tally = b.nonFungibles.map tally := by
  have hdecides := decides_ofEntity entity
  refine ⟨hdecides.ok_iff, fun hfit fault h => (ofEntity_mayMismatch hfit).error h,
    fun b hb => exact_of_adds (hdecides.result hb), fun entity' hsame => ⟨?_, ?_⟩⟩
  · rw [(decides_ofEntity entity').ok_iff, hdecides.ok_iff]
    exact forall_countable_congr hsame.fungibles
  · intro b b' hb hb'
    have hadds := hdecides.result hb
    have hadds' := (decides_ofEntity entity').result hb'
    constructor
    · apply List.map_injective_iff.2 entry_injective
      rw [hadds.fungibles, hadds'.fungibles, heldOf_congr hsame.fungibles]
    · rw [hadds.nonFungibles, hadds'.nonFungibles]
      exact tally_congr hsame.nonFungibles

/-- Also where a vault is listed twice, and with the resource's own amount unread beside the
    vaults. By itself that amount is a mismatch. -/
theorem ofEntity_exact_two_orders :
    let x : FungibleVault := ⟨"vault_x", "1.5"⟩
    let y : FungibleVault := ⟨"vault_y", "0"⟩
    let again : FungibleVault := ⟨"vault_x", "2"⟩
    let badges : NonFungibleVault := ⟨"vault_z", 2, ["#1#", "#2#"]⟩
    let entity : Entity := ⟨"account", some [⟨"xrd", some "?", some [x, y, again]⟩,
      ⟨"dust", none, some [y]⟩], some [⟨"badge", none, some [badges]⟩], none⟩
    let entity' : Entity := ⟨"account", some [⟨"xrd", some "?", some [again, x, y]⟩,
      ⟨"dust", none, some [y]⟩], some [⟨"badge", none, some [badges]⟩], none⟩
    ∃ b b', Balances.ofEntity entity = .ok b ∧ b.Exact entity ∧
      b.vaults = [("vault_x", ⟨2 * Amount.unit, by decide⟩), ("vault_y", .zero)] ∧
      entity.Reordered entity' ∧ Balances.ofEntity entity' = .ok b' ∧
      b'.fungibles = b.fungibles ∧ b.fungibles = [⟨"xrd", ⟨35 * tenTo 17, by decide⟩⟩] ∧
      b'.vaults = [("vault_x", ⟨15 * tenTo 17, by decide⟩), ("vault_y", .zero)] ∧
      ∀ fault, Balances.ofEntity ⟨"account", some [⟨"xrd", some "?", none⟩], none, none⟩ =
        .error fault → fault.kind = "SchemaMismatch" := by
  intro x y again badges entity entity'
  have hread : Balances.ofEntity entity = .ok ⟨"account",
      [⟨"xrd", ⟨35 * tenTo 17, by decide⟩⟩], [⟨"badge", 2, ["#1#", "#2#"]⟩],
      [("vault_x", ⟨2 * Amount.unit, by decide⟩), ("vault_y", .zero)]⟩ := by decide +kernel
  have hread' : Balances.ofEntity entity' = .ok ⟨"account",
      [⟨"xrd", ⟨35 * tenTo 17, by decide⟩⟩], [⟨"badge", 2, ["#1#", "#2#"]⟩],
      [("vault_x", ⟨15 * tenTo 17, by decide⟩), ("vault_y", .zero)]⟩ := by decide +kernel
  have horder : entity.Reordered entity' :=
    ⟨.cons ⟨rfl, rfl, .some (by decide)⟩ (.cons ⟨rfl, rfl, .some (.refl _)⟩ .nil),
      .cons ⟨rfl, rfl, .some (.refl _)⟩ .nil⟩
  obtain ⟨-, -, hexact, horders⟩ := ofEntity_exact entity
  obtain ⟨hfungibles, -⟩ := (horders entity' horder).2 _ _ hread hread'
  obtain ⟨-, hmismatch, -⟩ := ofEntity_exact ⟨"account", some [⟨"xrd", some "?", none⟩], none, none⟩
  refine ⟨_, _, hread, hexact _ hread, rfl, horder, hread', hfungibles, rfl, rfl,
    hmismatch fun r hr raw hraw => ?_⟩
  obtain rfl := List.mem_singleton.1 hr
  obtain rfl := List.mem_singleton.1 hraw
  have htrim : Text.trimChars "?".toList = ['?'] := by decide
  refine Amount.not_overlong fun c hc hdecimal => ?_
  obtain rfl := List.mem_singleton.1 (htrim ▸ hc)
  exact absurd hdecimal (by decide)

end Balances

end LedgerClient
