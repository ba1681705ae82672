/-
The outbound JSON fetcher, behind the gate.

Whatever the server asks of another host goes through `SsrfFetcher`: the URL gets a
guarded client or the request ends there, and what comes back must be a success, not
too large, and JSON.  A login talks to a `Fetcher`, so the providers' part of it does
not depend on where its answers come from.

What the other hosts answer is an argument: `send` is asked with the client, the URL
and the request, and fails or has a status and a body.
-/
import Numu.Api.HttpClient
import Numu.Lib.Json

namespace Numu

/-- What a login or a connector asks of another host. -/
structure Fetcher where
  postForm : String → List (String × String) → Except AppError Json
  getJson : String → Option String → Except AppError Json

/-- A request to another host: a form, or a GET with or without a bearer token. -/
inductive Outgoing where
  | post (form : List (String × String))
  | get (bearer : Option String)
deriving DecidableEq

/-- A failure of the network. -/
inductive NetError where
  | timeout
  | other
deriving DecidableEq

/-- What another host answers; the body may fail to arrive. -/
structure Upstream where
  status : Nat
  bytes : Except NetError (List UInt8)

/-- The other hosts, and the parser of what they send. -/
structure Network extends Outbound where
  send : ClientBuilder → String → Outgoing → Except NetError Upstream
  fromSlice : List UInt8 → Option Json

def maxBody : Nat := 1048576

def netErr : NetError → AppError
  | .timeout => { status := 504, kind := "upstream_timeout", detail := "upstream timed out" }
  | .other => { status := 502, kind := "upstream_error", detail := "upstream request failed" }

namespace Network

variable (net : Network)

/-- The JSON of an answer: a success, whole, of at most a mebibyte.  How a status prints is an
argument. -/
def readJson (showStatus : Nat → String) (resp : Upstream) : Except AppError Json := do
  if ¬ (200 ≤ resp.status ∧ resp.status < 300) then
    .error (.badRequest ("upstream returned " ++ showStatus resp.status))
  else do
    let bytes ← resp.bytes.mapError netErr
    if maxBody < bytes.length then .error (.badRequest "upstream body too large")
    else okOr (.badRequest "upstream returned non-JSON") (net.fromSlice bytes)

/-- One request: the guarded client, the answer, its JSON. -/
def request (showStatus : Nat → String) (url : String) (outgoing : Outgoing) :
    Except AppError Json := do
  let client ← guardedClient net.toOutbound url
  let resp ← (net.send client.1 url outgoing).mapError netErr
  net.readJson showStatus resp

/-- The fetcher of the server. -/
def ssrfFetcher (showStatus : Nat → String) : Fetcher where
  postForm url form := net.request showStatus url (.post form)
  getJson url bearer := net.request showStatus url (.get bearer)

end Network

end Numu
