/-
  Sites: where the gateway, the wallet and the store of an application are.

  * `Site.answer` answers every question of the client by errands, and
    `Site.legwork` does so throughout a job;
  * the account is kept in memory, in a file, or nowhere.
-/
import LedgerClient.AccountFile
import LedgerClient.Gateway.Client
import LedgerClient.Question
import LedgerClient.Wallet.Relay

namespace LedgerClient

/-- Where the connected account is kept. -/
inductive Keeping where
  | nowhere
  | inMemory
  | inFile (path : String)
deriving DecidableEq, Repr

namespace Keeping

/-- The account that is kept. -/
def load : Keeping → Legwork (Except Fault (Option AccountRef))
  | nowhere => pure (.ok none)
  | inMemory => do pure (.ok (← Errand.run .remembered))
  | inFile path => do
    match ← Errand.run (.readFile path) with
    | .ok content => pure (AccountFile.ofContent content)
    | .error fault => pure (.error fault)

/-- Keeps an account from now on. -/
def save (account : AccountRef) : Keeping → Legwork (Except Fault Unit)
  | nowhere => pure (.ok ())
  | inMemory => do pure (.ok (← Errand.run (.remember (some account))))
  | inFile path => Errand.run (.writeFile path (AccountFile.text account))

/-- Keeps no account from now on. -/
def clear : Keeping → Legwork (Except Fault Unit)
  | nowhere => pure (.ok ())
  | inMemory => do pure (.ok (← Errand.run (.remember none)))
  | inFile path => Errand.run (.removeFile path)

end Keeping

/-- Where everything is; the addresses of the web have no slash at the end. -/
structure Site where
  gatewayUrl : String
  walletUrl : String
  keeping : Keeping

namespace Site

/-- An address of the web without slashes at its end. -/
def trimmed (url : String) : String :=
  String.ofList (Text.dropEndWhile (· == '/') url.toList)

/-- The site with the given addresses. -/
def make (gatewayUrl walletUrl : String) (keeping : Keeping) : Site :=
  ⟨trimmed gatewayUrl, trimmed walletUrl, keeping⟩

/-- Answers a question by errands. -/
def answer (site : Site) : (q : Question) → Legwork q.Answer
  | .accounts => Wallet.accounts site.walletUrl
  | .sign request => Wallet.sign site.walletUrl request
  | .entities addresses => Gateway.entities site.gatewayUrl addresses
  | .component address => Gateway.component site.gatewayUrl address
  | .nonFungible resource id => Gateway.nonFungible site.gatewayUrl resource id
  | .status intentHash => Gateway.status site.gatewayUrl intentHash
  | .details intentHash => Gateway.details site.gatewayUrl intentHash
  | .load => site.keeping.load
  | .save account => site.keeping.save account
  | .clear => site.keeping.clear
  | .refresh => Errand.run .refresh
  | .wait ms => Errand.run (.wait ms)
  | .now => Errand.run .now

/-- A job with all its questions answered by errands. -/
def legwork {α : Type} (site : Site) (work : Work α) : Legwork α :=
  work.delegate site.answer

end Site

end LedgerClient
