/-
  A network for dry runs: one host that answers from a table.

  * `Route` is a line of the table; the first line that fits a request answers
    it, as often as it may, and `404` is the answer to all other requests;
  * `Network.send` answers a request and keeps it. Nobody else can be reached.
-/
import LedgerClient.Http.Message

namespace LedgerClient.DryRun

open Http

/-- A line of the table. -/
structure Route where
  method : Method
  path : String
  response : Response
  /-- How often the line may be used yet; `none` where there is no limit. -/
  uses : Option Nat
deriving DecidableEq

namespace Route

/-- Whether a line answers a request. -/
def fits (request : Request) (r : Route) : Bool :=
  r.method == request.method && r.path == request.url.target && r.uses != some 0

/-- The line after it was used. -/
def used (r : Route) : Route :=
  { r with uses := r.uses.map (· - 1) }

end Route

/-- A host with its table. -/
structure Network where
  /-- The host, as the authority of its URLs. -/
  authority : String
  routes : List Route
  /-- The requests so far, the oldest first. -/
  requests : List Request

namespace Network

/-- The answer to requests that no line fits. -/
def noRoute : Response :=
  ⟨404, "no route"⟩

/-- The answer of a table, and the table after it. -/
def look (request : Request) : List Route → Response × List Route
  | [] => (noRoute, [])
  | r :: routes =>
    if r.fits request then (r.response, r.used :: routes)
    else
      let (response, routes) := look request routes
      (response, r :: routes)

/-- Whether a URL leads to the host. -/
def hosts (n : Network) (url : Url) : Bool :=
  url.scheme == "http" && url.authority == some n.authority

/-- Answers a request. -/
def send (n : Network) (request : Request) : Except Failure Response × Network :=
  if n.hosts request.url then
    let (response, routes) := look request n.routes
    (.ok response, { n with routes := routes, requests := n.requests ++ [request] })
  else (.error .unreachable, n)

end Network

end LedgerClient.DryRun
