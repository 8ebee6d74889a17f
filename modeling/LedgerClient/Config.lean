/-
  The configuration of an application: the network, the wallet, the addresses
  and the submission of transactions.

  * `Network.preset?` knows the two public networks; the default is the test
    network;
  * `Config.ofDocument` reads a configuration document, in which every part
    may be missing;
  * `Config.withEnvironment` applies the environment variables.
-/
import LedgerClient.Config.AddressBook
import LedgerClient.Fault
import LedgerClient.Json.Record
import LedgerClient.Toml

namespace LedgerClient

/-! ## The network -/

/-- A network and its gateway. -/
structure Network where
  name : String
  id : Nat
  gatewayUrl : String
  /-- The network's part of the readable part of an address. -/
  suffix : String
deriving DecidableEq

namespace Network

def mainnet : Network := ⟨"mainnet", 1, "https://mainnet.radixdlt.com", "rdx"⟩

def stokenet : Network := ⟨"stokenet", 2, "https://stokenet.radixdlt.com", "tdx_2_"⟩

/-- The public network of the given name. -/
def preset? (name : String) : Option Network :=
  if name = mainnet.name then some mainnet
  else if name = stokenet.name then some stokenet
  else none

/-- Whether the gateway is another than the public one of the network's name. -/
def hasOwnGateway (network : Network) : Bool :=
  match preset? network.name with
  | some preset => preset.gatewayUrl != network.gatewayUrl
  | none => true

/-- Another network in place of this one; a gateway of one's own is kept. -/
def switchTo (network target : Network) : Network :=
  if network.hasOwnGateway then { target with gatewayUrl := network.gatewayUrl } else target

/-- Reads a network. -/
def ofJson? (j : Json) : Option Network := do
  let ms ← Json.record?
    [.must "name", .must "network_id", .must "gateway_url", .must "hrp_suffix"] j
  let name ← Json.required? ms "name" Json.str?
  let id ← Json.required? ms "network_id" (Json.nat? 256)
  let gatewayUrl ← Json.required? ms "gateway_url" Json.str?
  let suffix ← Json.required? ms "hrp_suffix" Json.str?
  pure ⟨name, id, gatewayUrl, suffix⟩

end Network

/-! ## Submission -/

/-- How transactions are submitted and followed. -/
structure Submission where
  /-- How often the status of a transaction is asked for, at most. -/
  pollAttempts : Nat
  /-- Milliseconds between two such questions. -/
  pollIntervalMs : Nat
  /-- Milliseconds between a success and the refresh after it. -/
  refreshDelayMs : Nat
  requestTimeoutSecs : Nat
deriving DecidableEq

namespace Submission

/-- Ten questions, a second apart. -/
def standard : Submission := ⟨10, 1000, 100, 30⟩

/-- Reads the submission settings, each of which may be missing. -/
def ofJson? (j : Json) : Option Submission := do
  let ms ← Json.record?
    [.may "status_poll_attempts", .may "status_poll_interval_ms", .may "refresh_delay_ms",
     .may "request_timeout_secs"] j
  let attempts ←
    Json.defaulted? ms "status_poll_attempts" (Json.nat? (twoTo 32)) standard.pollAttempts
  let interval ←
    Json.defaulted? ms "status_poll_interval_ms" (Json.nat? (twoTo 64)) standard.pollIntervalMs
  let delay ← Json.defaulted? ms "refresh_delay_ms" (Json.nat? (twoTo 64)) standard.refreshDelayMs
  let timeout ←
    Json.defaulted? ms "request_timeout_secs" (Json.nat? (twoTo 64)) standard.requestTimeoutSecs
  pure ⟨attempts, interval, delay, timeout⟩

end Submission

/-- Reads an address book, each entry of which may be missing. -/
def AddressBook.ofJson? (j : Json) : Option AddressBook := do
  let ms ← Json.record? (Slot.all.map fun slot => .must slot.name) j
  Slot.all.foldlM (fun book slot => do
    pure (book.set slot (← Json.optional? ms slot.name Json.str?))) AddressBook.empty

/-- Reads the wallet part: the URL of the wallet's relay, if any. -/
def relayOfJson? (j : Json) : Option (Option String) := do
  let ms ← Json.record? [.must "relay_url"] j
  Json.optional? ms "relay_url" Json.str?

/-! ## The configuration -/

/-- The configuration of an application. -/
structure Config where
  network : Network
  relayUrl : Option String
  addresses : AddressBook
  submission : Submission
  /-- Where the address of the connected account is kept, if anywhere. -/
  accountStorePath : Option String

namespace Config

/-- The default configuration. -/
def standard : Config := ⟨.stokenet, none, .empty, .standard, none⟩

/-- The default configuration on the public network of the given name. -/
def forNetwork (name : String) : Except Fault Config :=
  match Network.preset? name with
  | some network => .ok { standard with network := network }
  | none => .error (.config (.own ("unknown network '" ++ name ++ "'")))

/-- Reads a configuration from the parts of a document. -/
def ofJson? (j : Json) : Option Config := do
  let ms ← Json.record?
    [.may "network", .may "wallet", .may "addresses", .may "submission",
     .must "account_store_path"] j
  let network ← Json.defaulted? ms "network" Network.ofJson? standard.network
  let relayUrl ← Json.defaulted? ms "wallet" relayOfJson? standard.relayUrl
  let addresses ← Json.defaulted? ms "addresses" AddressBook.ofJson? standard.addresses
  let submission ← Json.defaulted? ms "submission" Submission.ofJson? standard.submission
  let path ← Json.optional? ms "account_store_path" Json.str?
  pure ⟨network, relayUrl, addresses, submission, path⟩

/-- Reads a configuration document. -/
def ofDocument (text : String) : Except Fault Config :=
  match (Toml.read? text).bind ofJson? with
  | some config => .ok config
  | none => .error (.config (.quoted "the document is not a configuration"))

/-- The configuration in a file, whose content is given where there is a file. -/
def load (path : String) (content : Option String) : Except Fault Config :=
  match content with
  | some text => ofDocument text
  | none => .error (.config
      (.own ("cannot read " ++ path ++ ": No such file or directory (os error 2)")))

/-- The values of environment variables. -/
abbrev Environment := String → Option String

/-- The network with the variables of the environment applied: the name of a
    public network, then the URL of a gateway. -/
def networkWith (env : Environment) (network : Network) : Network :=
  let switched := match (env "DAPP_NETWORK").bind Network.preset? with
    | some target => network.switchTo target
    | none => network
  match env "DAPP_GATEWAY_URL" with
  | some url => { switched with gatewayUrl := url }
  | none => switched

/-- The configuration with the variables of the environment applied. -/
def withEnvironment (config : Config) (env : Environment) : Config where
  network := networkWith env config.network
  relayUrl := env "DAPP_WALLET_RELAY_URL" <|> config.relayUrl
  addresses := ⟨fun slot => env slot.envVariable <|> config.addresses.get slot⟩
  submission := config.submission
  accountStorePath := env "DAPP_ACCOUNT_STORE" <|> config.accountStorePath

end Config

end LedgerClient
