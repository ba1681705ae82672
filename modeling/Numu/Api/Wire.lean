/-
What a request is at the edge of the server, and how its answer leaves.

Every request gets a correlation id before anything else looks at it: its own
`X-Request-Id` when that is a short run of letters, digits, `_` and `-`, and a minted
one otherwise.  The id goes into every audit row and back in a header.  An error
leaves as a problem document: what was wrong is told for a client error, and for a
server error only the standard phrase of the status.

The debug surface reflects a request, with the headers that carry secrets blanked.

The table of standard phrases, the environment and the uuids are arguments.
-/
import Numu.Api.Sessions

namespace Numu

open Fallible Handler

/-! ### Ids -/

/-- `format!("req_{}", Uuid::now_v7().simple())`. -/
def mintRequestId (uuid : Uuid) : String := "req_" ++ uuid.text

/-- The shape of an id that may be stored and echoed. -/
def validRequestId (s : String) : Bool :=
  !s.isEmpty && s.utf8ByteSize ≤ 128 &&
    s.toList.all fun c => c.isAlphanum || c = '_' || c = '-'

/-- The correlation ids of a request, from its `X-Request-Id`. -/
def requestCtx (header : Option (List UInt8)) (draws : Draws) : RequestCtx where
  requestId :=
    match (header.bind toStr?).map String.ofList with
    | some s => if validRequestId s then s else mintRequestId draws.requestUuid
    | none => mintRequestId draws.requestUuid
  traceId := mintRequestId draws.traceUuid

/-! ### Answers -/

/-- `HeaderValue::from_str`. -/
def headerValue? (s : String) : Option String :=
  if s.toList.all fun c => (32 ≤ c.toNat && c.toNat < 127) || c = '\t' then some s else none

/-- What is sent. -/
structure HttpReply extends Reply where
  contentType : Option String := none
  requestId : Option String := none

/-- A reply with a body says what kind it is. -/
def Reply.intoResponse (r : Reply) : HttpReply :=
  { toReply := r, contentType := r.body.map fun _ => "application/json" }

namespace AppError

def isServerError (e : AppError) : Bool := 500 ≤ e.status && e.status < 600

/-- The detail that leaves the server. -/
def wireDetail (reason : Nat → Option String) (e : AppError) : String :=
  if e.isServerError then (reason e.status).getD "Internal Server Error" else e.detail

/-- The problem document of an error. -/
def problem (reason : Nat → Option String) (e : AppError) : Json :=
  .mkObj [("type", .str ("https://numu/errors/" ++ e.kind)),
    ("title", .str ((reason e.status).getD "")), ("status", .num (.int e.status)),
    ("detail", .str (e.wireDetail reason)), ("instance", .str (e.requestId.getD "")),
    ("kind", .str e.kind)]

def intoResponse (reason : Nat → Option String) (e : AppError) : HttpReply where
  status := e.status
  allow := e.allow.bind fun verbs => headerValue? (String.intercalate ", " verbs)
  body := some (e.problem reason)
  contentType := some "application/problem+json"

def tooManyRequests : AppError :=
  { status := 429, kind := "too_many_requests", detail := "rate limit exceeded" }

def unavailable : AppError :=
  { status := 503, kind := "service_unavailable", detail := "Service unavailable" }

end AppError

/-- The answer of a handler, with the id of its request. -/
def respond (reason : Nat → Option String) (ctx : RequestCtx) (r : Except AppError Reply) :
    HttpReply :=
  let resp := match r with
    | .ok reply => reply.intoResponse
    | .error e => e.intoResponse reason
  match headerValue? ctx.requestId with
  | some v => { resp with requestId := some v }
  | none => resp

/-! ### The environment and the client -/

/-- `1`, or `true` in any case. -/
def envFlag (env : String → Option String) (key : String) : Bool :=
  (env key).any fun v => v = "1" || v.toList.map Char.toLower = "true".toList

/-- Whom the limiter counts a request for: the peer, or behind a trusted proxy the address it
forwards. -/
def clientKey (trustProxy : Bool) (forwardedFor : Option (List UInt8)) (peer : Option String) :
    String :=
  let forwarded := ((forwardedFor.bind toStr?).map fun v =>
    Text.trim ((v.splitOn ',').headD [])).filter fun ip => !ip.isEmpty
  match trustProxy, forwarded with
  | true, some ip => String.ofList ip
  | _, _ => peer.getD "global"

/-! ### The debug surface -/

def redact : List String :=
  ["cookie", "set-cookie", "authorization", "proxy-authorization", "x-api-key"]

/-- A header as it is reflected. -/
def reflected (h : String × List UInt8) : String × Json :=
  (h.1, .str (if redact.contains h.1 then "<redacted>"
    else ((toStr? h.2).map String.ofList).getD "<binary>"))

/-- Reflect a request: off unless `NUMU_DEBUG` is set, and for admins only.  The body is the text
its bytes decode to. -/
def echo (debug : Bool) (ctx : RequestCtx) (caller : Caller) (headers : List (String × List UInt8))
    (body : String) : Handler Response := do
  ensure debug (AppError.notFound.withRequestId ctx.requestId)
  ensure caller.isPlatformAdmin (AppError.forbidden.withRequestId ctx.requestId)
  pure { status := 200, body := some (.mkObj [("request_id", .str ctx.requestId),
    ("headers", .mkObj (headers.map reflected)), ("body", .str body)]) }

/-- Swap the filter of the log; `reload` says whether a level was taken, and may not be there. -/
def setLogLevel (reload : Option (String → Bool)) (ctx : RequestCtx) (caller : Caller)
    (body : Except String String) : Handler Response := do
  ensure caller.isPlatformAdmin (AppError.forbidden.withRequestId ctx.requestId)
  let level ← check (body.mapError fun e =>
    (AppError.badRequest ("expected \x7b\"level\":\"...\"\x7d: " ++ e)).withRequestId ctx.requestId)
  let swap ← getOr reload (AppError.unavailable.withRequestId ctx.requestId)
  ensure (swap level)
    ((AppError.badRequest ("invalid log filter: " ++ level)).withRequestId ctx.requestId)
  recordEvent ctx caller.actorId none "debug.log_level_changed" (.mkObj [("level", .str level)])
  pure { status := 200, body := some (.mkObj [("level", .str level)]) }

end Numu
