/-
  Environment variables over a configuration.

  * `Slot.variableName` is the rule by which the variables of the address book are called;
  * `Overridden env config result`: what becomes of each part of a configuration, which
    `withEnvironment` brings about and nothing else does (`overridden_iff`);
  * `Overridden.again`: the result is already what the same environment makes of it;
  * `environment_overrides`: each variable sets its own part only, and an environment that is
    applied again changes nothing.
-/
import LedgerClient.Config
import Mathlib.Data.List.Nodup

namespace LedgerClient

/-! ## The variables of the address book -/

namespace Slot

/-- The variables are called as the entries are in documents, in capitals, but for three. -/
def variableName : Slot → String
  | component => "DAPP_COMPONENT_ADDRESS"
  | validator => "DAPP_VALIDATOR_ADDRESS"
  | principalToken => "DAPP_PT_RESOURCE_ADDRESS"
  | slot => String.ofList ("DAPP_".toList ++ slot.name.toList.map Char.toUpper)

theorem envVariable_eq (slot : Slot) : slot.envVariable = slot.variableName := by
  cases slot <;> rfl

theorem mem_all (slot : Slot) : slot ∈ all := by
  cases slot <;> decide

theorem nodup_envVariable : (all.map envVariable).Nodup := by
  decide

theorem envVariable_inj {slot slot' : Slot} :
    slot.envVariable = slot'.envVariable ↔ slot = slot' :=
  ⟨fun h => List.inj_on_of_nodup_map nodup_envVariable slot.mem_all slot'.mem_all h, congrArg _⟩

/-- No variable of the address book is one of the others. -/
theorem envVariable_not_mem (slot : Slot) :
    slot.envVariable ∉
      ["DAPP_NETWORK", "DAPP_GATEWAY_URL", "DAPP_WALLET_RELAY_URL", "DAPP_ACCOUNT_STORE"] := by
  cases slot <;> decide

end Slot

/-! ## Networks -/

namespace Network

/-- The gateway is the public one of the network of this name. -/
def OnPublicGateway (network : Network) : Prop :=
  ∃ preset, preset? network.name = some preset ∧ preset.gatewayUrl = network.gatewayUrl

/-- Two networks are the same, their gateways aside. -/
structure SameIdentity (network other : Network) : Prop where
  name : network.name = other.name
  id : network.id = other.id
  suffix : network.suffix = other.suffix

theorem SameIdentity.eq {network network' other : Network} (h : network.SameIdentity other)
    (h' : network'.SameIdentity other) (hgateway : network.gatewayUrl = network'.gatewayUrl) :
    network = network' := by
  obtain ⟨name, id, gatewayUrl, suffix⟩ := network
  obtain ⟨name', id', gatewayUrl', suffix'⟩ := network'
  congr
  · exact h.name.trans h'.name.symm
  · exact h.id.trans h'.id.symm
  · exact h.suffix.trans h'.suffix.symm

theorem hasOwnGateway_iff {network : Network} :
    network.hasOwnGateway = true ↔ ¬network.OnPublicGateway := by
  unfold hasOwnGateway OnPublicGateway
  cases preset? network.name <;> simp

/-- A public network goes by its name. -/
theorem preset?_name {name : String} {target : Network} (h : preset? name = some target) :
    preset? target.name = some target := by
  unfold preset? at h
  split at h
  · rw [← Option.some.inj h]
    rfl
  split at h
  · rw [← Option.some.inj h]
    rfl
  · cases h

theorem switchTo_eq (network target : Network) :
    network.switchTo target = { target with
      gatewayUrl := if network.hasOwnGateway then network.gatewayUrl else target.gatewayUrl } := by
  unfold switchTo
  split <;> rfl

end Network

/-! ## Environments -/

namespace Config

namespace Environment

/-- The environment names this public network. -/
def Selects (env : Environment) (target : Network) : Prop :=
  ∃ name, env "DAPP_NETWORK" = some name ∧ Network.preset? name = some target

/-- The environment with the value of one variable. -/
def assign (env : Environment) (name value : String) : Environment :=
  fun n => if n = name then some value else env n

theorem assign_self (env : Environment) (name value : String) :
    env.assign name value name = some value :=
  if_pos rfl

theorem assign_of_ne (env : Environment) {name other : String} (h : other ≠ name)
    (value : String) : env.assign name value other = env other :=
  if_neg h

theorem selects_iff {env : Environment} {target : Network} :
    env.Selects target ↔ (env "DAPP_NETWORK").bind Network.preset? = some target :=
  Option.bind_eq_some_iff.symm

end Environment

/-! ## What becomes of a configuration -/

/-- What becomes of a configuration in an environment. -/
structure Overridden (env : Environment) (config result : Config) : Prop where
  /-- The URL of a gateway counts, where it is given. -/
  gateway_given {url : String} (h : env "DAPP_GATEWAY_URL" = some url) :
    result.network.gatewayUrl = url
  /-- Where it is not, another network brings its gateway along in place of a public one. -/
  gateway_switched {target : Network} (h : env "DAPP_GATEWAY_URL" = none)
    (hselects : env.Selects target) (hpublic : config.network.OnPublicGateway) :
    result.network.gatewayUrl = target.gatewayUrl
  /-- A gateway of one's own is kept. -/
  gateway_own {target : Network} (h : env "DAPP_GATEWAY_URL" = none)
    (hselects : env.Selects target) (hown : ¬config.network.OnPublicGateway) :
    result.network.gatewayUrl = config.network.gatewayUrl
  gateway_kept (h : env "DAPP_GATEWAY_URL" = none) (hnone : ∀ target, ¬env.Selects target) :
    result.network.gatewayUrl = config.network.gatewayUrl
  network_switched {target : Network} (h : env.Selects target) : result.network.SameIdentity target
  network_kept (hnone : ∀ target, ¬env.Selects target) :
    result.network.SameIdentity config.network
  addresses (slot : Slot) :
    result.addresses.get slot = (env slot.variableName).or (config.addresses.get slot)
  relayUrl : result.relayUrl = (env "DAPP_WALLET_RELAY_URL").or config.relayUrl
  accountStorePath :
    result.accountStorePath = (env "DAPP_ACCOUNT_STORE").or config.accountStorePath
  submission : result.submission = config.submission

variable {env : Environment} {config result result' : Config} {network target : Network}

theorem networkWith_of_selects (h : env.Selects target) :
    networkWith env network = { target with
      gatewayUrl := (env "DAPP_GATEWAY_URL").getD
        (if network.hasOwnGateway then network.gatewayUrl else target.gatewayUrl) } := by
  rw [networkWith, Environment.selects_iff.1 h]
  cases env "DAPP_GATEWAY_URL" <;> simp [Network.switchTo_eq]

theorem networkWith_of_not_selects (h : ∀ target, ¬env.Selects target) :
    networkWith env network = { network with
      gatewayUrl := (env "DAPP_GATEWAY_URL").getD network.gatewayUrl } := by
  have hnone : (env "DAPP_NETWORK").bind Network.preset? = none :=
    Option.eq_none_iff_forall_ne_some.2 fun target ht => h target (Environment.selects_iff.2 ht)
  rw [networkWith, hnone]
  cases env "DAPP_GATEWAY_URL" <;> rfl

theorem overridden_withEnvironment (env : Environment) (config : Config) :
    Overridden env config (config.withEnvironment env) where
  gateway_given {url} h := by
    show (networkWith env config.network).gatewayUrl = url
    simp only [networkWith, h]
  gateway_switched h hselects hpublic := by
    have hown : config.network.hasOwnGateway = false :=
      Bool.eq_false_iff.2 fun hown => Network.hasOwnGateway_iff.1 hown hpublic
    simp [withEnvironment, networkWith_of_selects hselects, h, hown]
  gateway_own h hselects hown := by
    simp [withEnvironment, networkWith_of_selects hselects, h, Network.hasOwnGateway_iff.2 hown]
  gateway_kept h hnone := by
    simp [withEnvironment, networkWith_of_not_selects hnone, h]
  network_switched {target} h := by
    show (networkWith env config.network).SameIdentity target
    rw [networkWith_of_selects h]
    exact ⟨rfl, rfl, rfl⟩
  network_kept hnone := by
    show (networkWith env config.network).SameIdentity config.network
    rw [networkWith_of_not_selects hnone]
    exact ⟨rfl, rfl, rfl⟩
  addresses slot := by
    rw [← slot.envVariable_eq]
    exact Option.orElse_eq_or
  relayUrl := Option.orElse_eq_or
  accountStorePath := Option.orElse_eq_or
  submission := rfl

namespace Overridden

theorem gatewayUrl_unique (h : Overridden env config result) (h' : Overridden env config result') :
    result.network.gatewayUrl = result'.network.gatewayUrl := by
  cases hgateway : env "DAPP_GATEWAY_URL" with
  | some url => rw [h.gateway_given hgateway, h'.gateway_given hgateway]
  | none =>
    by_cases hselects : ∃ target, env.Selects target
    · obtain ⟨target, hselects⟩ := hselects
      by_cases hpublic : config.network.OnPublicGateway
      · rw [h.gateway_switched hgateway hselects hpublic,
          h'.gateway_switched hgateway hselects hpublic]
      · rw [h.gateway_own hgateway hselects hpublic, h'.gateway_own hgateway hselects hpublic]
    · have hnone := not_exists.1 hselects
      rw [h.gateway_kept hgateway hnone, h'.gateway_kept hgateway hnone]

theorem network_unique (h : Overridden env config result) (h' : Overridden env config result') :
    result.network = result'.network := by
  have hgateway := h.gatewayUrl_unique h'
  by_cases hselects : ∃ target, env.Selects target
  · obtain ⟨target, hselects⟩ := hselects
    exact (h.network_switched hselects).eq (h'.network_switched hselects) hgateway
  · have hnone := not_exists.1 hselects
    exact (h.network_kept hnone).eq (h'.network_kept hnone) hgateway

/-- Nothing of a configuration is left open. -/
theorem unique (h : Overridden env config result) (h' : Overridden env config result') :
    result = result' := by
  have hnetwork := h.network_unique h'
  have haddresses : result.addresses.get = result'.addresses.get :=
    funext fun slot => (h.addresses slot).trans (h'.addresses slot).symm
  have hrelay := h.relayUrl.trans h'.relayUrl.symm
  have hpath := h.accountStorePath.trans h'.accountStorePath.symm
  have hsubmission := h.submission.trans h'.submission.symm
  obtain ⟨_, _, ⟨_⟩, _, _⟩ := result
  obtain ⟨_, _, ⟨_⟩, _, _⟩ := result'
  subst hnetwork haddresses hrelay hpath hsubmission
  rfl

/-- **The result is already what the same environment makes of it.** A gateway that is kept is
    either one's own still, or the one that comes with the network. -/
theorem again (h : Overridden env config result) : Overridden env result result where
  gateway_given hgateway := h.gateway_given hgateway
  gateway_switched {target} hgateway hselects hpublic := by
    obtain ⟨preset, hpreset, hurl⟩ := hpublic
    have hsame : preset = target := by
      have ⟨name, _, htarget⟩ := hselects
      rw [(h.network_switched hselects).name, Network.preset?_name htarget] at hpreset
      exact (Option.some.inj hpreset).symm
    rw [← hurl, hsame]
  gateway_own _ _ _ := rfl
  gateway_kept _ _ := rfl
  network_switched hselects := h.network_switched hselects
  network_kept _ := ⟨rfl, rfl, rfl⟩
  addresses slot := by rw [h.addresses slot, ← Option.or_assoc, Option.or_self]
  relayUrl := by rw [h.relayUrl, ← Option.or_assoc, Option.or_self]
  accountStorePath := by rw [h.accountStorePath, ← Option.or_assoc, Option.or_self]
  submission := rfl

end Overridden

theorem overridden_iff : Overridden env config result ↔ result = config.withEnvironment env := by
  constructor
  · exact fun h => h.unique (overridden_withEnvironment env config)
  · rintro rfl
    exact overridden_withEnvironment env config

/-! ## One variable at a time -/

theorem withEnvironment_assign_slot (config : Config) (env : Environment) (slot : Slot)
    (address : String) :
    config.withEnvironment (env.assign slot.variableName address) =
      { config.withEnvironment env with
        addresses := (config.withEnvironment env).addresses.set slot (some address) } := by
  have hothers := slot.envVariable_not_mem
  simp only [List.mem_cons, List.not_mem_nil, or_false, not_or] at hothers
  obtain ⟨hnetwork, hgateway, hrelay, hstore⟩ := hothers
  rw [← slot.envVariable_eq]
  simp only [withEnvironment, networkWith, Environment.assign, AddressBook.set,
    Ne.symm hnetwork, Ne.symm hgateway, Ne.symm hrelay, Ne.symm hstore, if_false,
    Slot.envVariable_inj]
  congr 2
  funext other
  split <;> rfl

/-- A variable that is not of the address book leaves it alone. -/
theorem withEnvironment_assign_other (config : Config) (env : Environment) {name : String}
    (value : String) (h : name ∈
      ["DAPP_NETWORK", "DAPP_GATEWAY_URL", "DAPP_WALLET_RELAY_URL", "DAPP_ACCOUNT_STORE"]) :
    config.withEnvironment (env.assign name value) =
      ⟨networkWith (env.assign name value) config.network,
        env.assign name value "DAPP_WALLET_RELAY_URL" <|> config.relayUrl,
        (config.withEnvironment env).addresses, config.submission,
        env.assign name value "DAPP_ACCOUNT_STORE" <|> config.accountStorePath⟩ := by
  simp only [withEnvironment]
  congr 2
  funext slot
  have hne : slot.envVariable ≠ name := fun heq => slot.envVariable_not_mem (heq ▸ h)
  rw [Environment.assign, if_neg hne]

theorem withEnvironment_assign_relayUrl (config : Config) (env : Environment) (url : String) :
    config.withEnvironment (env.assign "DAPP_WALLET_RELAY_URL" url) =
      { config.withEnvironment env with relayUrl := some url } := by
  have hnetwork : "DAPP_NETWORK" ≠ "DAPP_WALLET_RELAY_URL" := by decide
  have hgateway : "DAPP_GATEWAY_URL" ≠ "DAPP_WALLET_RELAY_URL" := by decide
  have hstore : "DAPP_ACCOUNT_STORE" ≠ "DAPP_WALLET_RELAY_URL" := by decide
  rw [withEnvironment_assign_other config env url (by simp), networkWith]
  simp only [env.assign_of_ne hnetwork, env.assign_of_ne hgateway, env.assign_of_ne hstore,
    env.assign_self]
  rfl

theorem withEnvironment_assign_accountStorePath (config : Config) (env : Environment)
    (path : String) :
    config.withEnvironment (env.assign "DAPP_ACCOUNT_STORE" path) =
      { config.withEnvironment env with accountStorePath := some path } := by
  have hnetwork : "DAPP_NETWORK" ≠ "DAPP_ACCOUNT_STORE" := by decide
  have hgateway : "DAPP_GATEWAY_URL" ≠ "DAPP_ACCOUNT_STORE" := by decide
  have hrelay : "DAPP_WALLET_RELAY_URL" ≠ "DAPP_ACCOUNT_STORE" := by decide
  rw [withEnvironment_assign_other config env path (by simp), networkWith]
  simp only [env.assign_of_ne hnetwork, env.assign_of_ne hgateway, env.assign_of_ne hrelay,
    env.assign_self]
  rfl

theorem withEnvironment_assign_gatewayUrl (config : Config) (env : Environment) (url : String) :
    config.withEnvironment (env.assign "DAPP_GATEWAY_URL" url) =
      { config.withEnvironment env with
        network := { (config.withEnvironment env).network with gatewayUrl := url } } := by
  have hnetwork : "DAPP_NETWORK" ≠ "DAPP_GATEWAY_URL" := by decide
  have hrelay : "DAPP_WALLET_RELAY_URL" ≠ "DAPP_GATEWAY_URL" := by decide
  have hstore : "DAPP_ACCOUNT_STORE" ≠ "DAPP_GATEWAY_URL" := by decide
  rw [withEnvironment_assign_other config env url (by simp), withEnvironment, networkWith,
    networkWith]
  simp only [env.assign_of_ne hnetwork, env.assign_of_ne hrelay, env.assign_of_ne hstore,
    env.assign_self]
  cases env "DAPP_GATEWAY_URL" <;> rfl

/-- **An environment overrides a configuration** part by part, and once and for all. -/
theorem environment_overrides (config : Config) (env : Environment) :
    (∀ result, Overridden env config result ↔ result = config.withEnvironment env) ∧
    (∀ slot address, config.withEnvironment (env.assign slot.variableName address) =
      { config.withEnvironment env with
        addresses := (config.withEnvironment env).addresses.set slot (some address) }) ∧
    (∀ url, config.withEnvironment (env.assign "DAPP_WALLET_RELAY_URL" url) =
      { config.withEnvironment env with relayUrl := some url }) ∧
    (∀ path, config.withEnvironment (env.assign "DAPP_ACCOUNT_STORE" path) =
      { config.withEnvironment env with accountStorePath := some path }) ∧
    (∀ url, config.withEnvironment (env.assign "DAPP_GATEWAY_URL" url) =
      { config.withEnvironment env with
        network := { (config.withEnvironment env).network with gatewayUrl := url } }) ∧
    (config.withEnvironment env).withEnvironment env = config.withEnvironment env :=
  ⟨fun _ => overridden_iff, config.withEnvironment_assign_slot env,
    config.withEnvironment_assign_relayUrl env,
    config.withEnvironment_assign_accountStorePath env,
    config.withEnvironment_assign_gatewayUrl env,
    (overridden_iff.1 (overridden_withEnvironment env config).again).symm⟩

end Config

end LedgerClient
