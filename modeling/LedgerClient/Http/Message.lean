/-
  Requests and responses over HTTP.

  * `Request.make?` is a request to an address, if that is one of the web;
  * `Failure` is why there is no response, `Response` a status and a body;
  * `reasonPhrase` is the standard phrase of a status.
-/
import LedgerClient.Http.Url
import LedgerClient.Json

namespace LedgerClient.Http

/-- What a request asks for. -/
inductive Method where
  | get
  | post
deriving DecidableEq, Repr

/-- The name of a method. -/
def Method.name : Method → String
  | get => "GET"
  | post => "POST"

/-- A request, with a JSON document as its body or none. -/
structure Request where
  method : Method
  url : Url
  body : Option Json

/-- Whether requests can be sent to a URL. -/
def Url.isOfWeb (url : Url) : Bool :=
  (url.scheme == "http" || url.scheme == "https") && url.authority.isSome

/-- A request to an address, where requests can be sent. -/
def Request.make? (method : Method) (address : String) (body : Option Json) : Option Request :=
  ((Url.ofText? address).filter Url.isOfWeb).map fun url => ⟨method, url, body⟩

/-- Why there is no response. -/
inductive Failure where
  /-- nobody listens, or nobody answers in time -/
  | unreachable
  /-- the address is none to send requests to -/
  | unsendable
deriving DecidableEq, Repr

/-- A response. -/
structure Response where
  status : Nat
  body : String
deriving DecidableEq

/-- Whether a response brings what was asked for. -/
def Response.isSuccess (r : Response) : Bool :=
  200 ≤ r.status && r.status < 300

/-- The standard phrase of a status. -/
def reasonPhrase : Nat → String
  | 100 => "Continue"
  | 101 => "Switching Protocols"
  | 102 => "Processing"
  | 200 => "OK"
  | 201 => "Created"
  | 202 => "Accepted"
  | 203 => "Non Authoritative Information"
  | 204 => "No Content"
  | 205 => "Reset Content"
  | 206 => "Partial Content"
  | 207 => "Multi-Status"
  | 208 => "Already Reported"
  | 226 => "IM Used"
  | 300 => "Multiple Choices"
  | 301 => "Moved Permanently"
  | 302 => "Found"
  | 303 => "See Other"
  | 304 => "Not Modified"
  | 305 => "Use Proxy"
  | 307 => "Temporary Redirect"
  | 308 => "Permanent Redirect"
  | 400 => "Bad Request"
  | 401 => "Unauthorized"
  | 402 => "Payment Required"
  | 403 => "Forbidden"
  | 404 => "Not Found"
  | 405 => "Method Not Allowed"
  | 406 => "Not Acceptable"
  | 407 => "Proxy Authentication Required"
  | 408 => "Request Timeout"
  | 409 => "Conflict"
  | 410 => "Gone"
  | 411 => "Length Required"
  | 412 => "Precondition Failed"
  | 413 => "Payload Too Large"
  | 414 => "URI Too Long"
  | 415 => "Unsupported Media Type"
  | 416 => "Range Not Satisfiable"
  | 417 => "Expectation Failed"
  | 418 => "I'm a teapot"
  | 421 => "Misdirected Request"
  | 422 => "Unprocessable Entity"
  | 423 => "Locked"
  | 424 => "Failed Dependency"
  | 426 => "Upgrade Required"
  | 428 => "Precondition Required"
  | 429 => "Too Many Requests"
  | 431 => "Request Header Fields Too Large"
  | 451 => "Unavailable For Legal Reasons"
  | 500 => "Internal Server Error"
  | 501 => "Not Implemented"
  | 502 => "Bad Gateway"
  | 503 => "Service Unavailable"
  | 504 => "Gateway Timeout"
  | 505 => "HTTP Version Not Supported"
  | 506 => "Variant Also Negotiates"
  | 507 => "Insufficient Storage"
  | 508 => "Loop Detected"
  | 510 => "Not Extended"
  | 511 => "Network Authentication Required"
  | _ => "<unknown status code>"

end LedgerClient.Http
