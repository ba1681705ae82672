/-
The server: every route, from the request to what is sent.

A request is one program over the state of the server.  It gets its ids, passes the
limiter where its route is behind it, is given a caller by its cookie where the
handler asks for one, runs the handler on the service, and its answer is rendered.
Only health checks, the two halves of a provider's login and, in debug builds, the
dev login do without a session.

Alone a request is run to its answer and the next state; many at once are the pool
of their programs.  A deployment is what stays the same from request to request; the
rest comes in with the request: its clocks and uuids, what other hosts answer it,
and its headers.  Paths, queries and bodies arrive as what is parsed of them.
-/
import Numu.Api.Login
import Numu.Api.Members
import Numu.Api.Relations
import Numu.Api.Orchestrator
import Numu.Api.Search

namespace Numu

open Fallible

/-- What stays the same from request to request. -/
structure Deployment (ρ : Type) where
  release : Bool
  env : String → Option String
  sha : Sha256
  mac : Mac
  limiter : RateLimiter
  text : FullText ρ
  display : Json → String
  reason : Nat → Option String
  showStatus : Nat → String
  withParams : String → List (String × String) → Option String
  reload : Option (String → Bool)

/-- The `Secure` attribute, in release builds. -/
def Deployment.secure {ρ : Type} (D : Deployment ρ) : String :=
  if D.release then "; Secure" else ""

/-- The routes of a logged-in caller, but for the two behind the limiter. -/
inductive Endpoint where
  | collGet (typeId : String) (q : ListParams)
  | collHead (typeId : String)
  | collCreate (typeId : String) (headers : HeaderMap) (body : Body)
  | collOptions (typeId : String)
  | m405Coll (typeId : String)
  | itemGet (typeId id : String) (headers : HeaderMap)
  | itemHead (typeId id : String)
  | itemUpdate (v : UpdateVerb) (typeId id : String) (headers : HeaderMap) (body : Body)
  | itemDelete (typeId id : String) (headers : HeaderMap)
  | itemOptions (typeId id : String)
  | m405Item (typeId : String)
  | listMembers (typeId id : String)
  | addMember (typeId id : String) (headers : HeaderMap) (body : Body)
  | setMember (typeId id memberId : String) (headers : HeaderMap) (body : Body)
  | removeMember (typeId id memberId : String)
  | recordCheck (typeId id name : String) (headers : HeaderMap) (body : Body)
  | listTypes
  | getType (typeId : String)
  | createType (body : Except String TypeSpec)
  | createRelation (body : Except String RelInput)
  | listRelations (q : RelationQuery)
  | deleteRelation (id : String)
  | search (qp : SearchQ)
  | startRun (body : Except String StartInput)
  | listRuns (caseId : Option String)
  | getRun (id : String)
  | recordHandoff (id : String) (body : Except String HandoffInput)
  | runConnector (id : String)
  | echo (headers : List (String × List UInt8)) (body : String)
  | setLogLevel (body : Except String String)

inductive Route where
  | api (e : Endpoint)
  | claimAdmin
  | logout
  | devLogin (body : Option (Option String))
  | oauthStart (name : String)
  | oauthCallback (name : String) (q : CallbackQuery)
  | healthz
  | readyz

/-- A request as it comes in. -/
structure Incoming where
  draws : Draws
  network : Network
  jwt : Jwt
  requestId : Option (List UInt8) := none
  cookie : Option (List UInt8) := none
  forwardedFor : Option (List UInt8) := none
  peer : Option String := none
  route : Route

namespace Server

variable {ρ : Type} [LinearOrder ρ] (D : Deployment ρ)

/-- The fetcher of a request. -/
def fetcher (req : Incoming) : Fetcher := req.network.ssrfFetcher D.showStatus

/-- The handler of an endpoint. -/
def endpoint (req : Incoming) (ctx : RequestCtx) (caller : Caller) :
    Endpoint → Fallible AppError Service Response
  | .collGet typeId q => Service.handle fun st => Numu.collGet st ctx caller typeId q
  | .collHead typeId => Service.handle fun st => Numu.collHead st ctx caller typeId
  | .collCreate typeId headers body => Service.handle fun st =>
      Numu.collCreate st ctx req.draws.ambient caller typeId headers body
  | .collOptions typeId => Service.handle fun st => Numu.collOptions st ctx caller typeId
  | .m405Coll typeId => Service.handle fun st => Numu.m405Coll st ctx caller typeId
  | .itemGet typeId id headers => Service.handle fun st =>
      Numu.itemGet st ctx caller typeId id headers
  | .itemHead typeId id => Service.handle fun st => Numu.itemHead st ctx caller typeId id
  | .itemUpdate v typeId id headers body => Service.handle fun st =>
      Numu.itemUpdate v st ctx req.draws.ambient caller typeId id headers body
  | .itemDelete typeId id headers => Service.handle fun st =>
      Numu.itemDelete st ctx caller typeId id headers
  | .itemOptions typeId id => Service.handle fun st => Numu.itemOptions st ctx caller typeId id
  | .m405Item typeId => Service.handle fun st => Numu.m405Item st ctx caller typeId
  | .listMembers typeId id => Service.handle fun _ => Numu.listMembers ctx caller typeId id
  | .addMember typeId id headers body => Service.handle fun _ =>
      Numu.addMember ctx caller typeId id headers body
  | .setMember typeId id memberId headers body => Service.handle fun _ =>
      Numu.setMember ctx caller typeId id memberId headers body
  | .removeMember typeId id memberId => Service.handle fun _ =>
      Numu.removeMember ctx caller typeId id memberId
  | .recordCheck typeId id name headers body => Service.handle fun _ =>
      Numu.recordCheck ctx caller typeId id name headers body
  | .listTypes => Service.handle fun st => Numu.listTypes st
  | .getType typeId => Service.handle fun st => Numu.getType st ctx typeId
  | .createType body => Numu.createType D.display ctx caller body
  | .createRelation body => Service.handle fun st =>
      Numu.createRelation st ctx req.draws.ambient caller body
  | .listRelations q => Service.handle fun st => Numu.listRelations st ctx caller q
  | .deleteRelation id => Service.handle fun st => Numu.deleteRelation st ctx caller id
  | .search qp => Service.handle fun _ => Numu.search D.text ctx caller qp
  | .startRun body => Service.handle fun st =>
      Numu.startRun st ctx req.draws.ambient caller body
  | .listRuns caseId => Service.handle fun st => Numu.listRuns st ctx caller caseId
  | .getRun id => Service.handle fun st => Numu.getRun st ctx caller id
  | .recordHandoff id body => Service.handle fun st =>
      Numu.recordHandoff st ctx req.draws.ambient caller id body
  | .runConnector id => Service.handle fun st =>
      Numu.runConnector st ctx req.draws.ambient caller
        (fun url => (fetcher D req).getJson url none) id
  | .echo headers body => Service.handle fun _ =>
      Numu.echo (envFlag D.env "NUMU_DEBUG") ctx caller headers body
  | .setLogLevel body => Service.handle fun _ => Numu.setLogLevel D.reload ctx caller body

/-- A handler that asks for a caller. -/
def authed (req : Incoming) (h : Caller → Fallible AppError Server Reply) :
    Fallible AppError Server Reply := do
  let caller ← Caller.fromRequestParts D.sha req.draws.now req.cookie
  h caller

/-- A handler of the service, in the server. -/
def onService (p : Fallible AppError Service Response) : Fallible AppError Server Reply := do
  let resp ← zoom service p
  pure { toResponse := resp }

/-- `RateLimiter::allow` on the process's limiter. -/
def allow (req : Incoming) : Fallible AppError Server Bool :=
  attempt fun π =>
    let key := clientKey (envFlag D.env "NUMU_TRUST_PROXY") req.forwardedFor req.peer
    let r := D.limiter.allow key req.draws.instant π.buckets
    .ok (r.1, { π with buckets := r.2 })

/-- `enforce`: the limiter in front of a handler. -/
def limited (req : Incoming) (ctx : RequestCtx) (h : Fallible AppError Server Reply) :
    Fallible AppError Server Reply := do
  let ok ← allow D req
  ensure ok (AppError.tooManyRequests.withRequestId ctx.requestId)
  h

/-- What a login draws on. -/
def oauthEnv (req : Incoming) : OauthEnv Provider where
  provider := provider D.env
  mac := D.mac
  now := req.draws.unix
  secure := D.secure

/-- The answer of a health check; the database of the model is never down. -/
def healthReply (status : String) : Reply where
  status := 200
  body := some (.mkObj [("status", .str status), ("version", .str "0.1.0")])

/-- The program of a route.  Only a provider's callback can stop the process's thread instead. -/
def program (req : Incoming) (ctx : RequestCtx) : Except Panic (Fallible AppError Server Reply) :=
  match req.route with
  | .api e => .ok (authed D req fun caller => onService (endpoint D req ctx caller e))
  | .claimAdmin =>
    -- The claim as READ COMMITTED runs it among others.
    .ok (limited D req ctx (authed D req fun caller =>
      onService (Service.handle fun _ => claimAdminSnapshot caller)))
  | .logout => .ok (limited D req ctx (authed D req fun caller => Numu.logout D.secure caller))
  | .devLogin body =>
    -- The route is compiled out of release builds.
    if D.release then .ok (pure { status := 404 })
    else .ok (limited D req ctx (Numu.devLogin D.sha req.draws D.secure body))
  | .oauthStart name =>
    .ok (check (Numu.oauthStart (oauthEnv D req) D.withParams req.draws name))
  | .oauthCallback name q =>
    Numu.oauthCallback D.sha req.jwt (fetcher D req) (oauthEnv D req) req.draws name q req.cookie
  | .healthz => .ok (pure (healthReply "ok"))
  | .readyz => .ok do
      let _ ← query fun _ : Server => ()
      pure (healthReply "ready")

/-- A request, from its ids to what is sent; nothing is when its thread stopped. -/
def serve (req : Incoming) : Resumption Server (Option HttpReply) :=
  let ctx := requestCtx req.requestId req.draws
  match program D req ctx with
  | .error _ => .done none
  | .ok p => (ExceptT.run p).bind fun r => .done (some (respond D.reason ctx r))

/-! ### Runs -/

/-- The server after a request that ran alone. -/
def after (π : Server) (req : Incoming) : Server := ((serve D req).run π).2

/-- The server after some requests, one after another. -/
def run (π : Server) : List Incoming → Server
  | [] => π
  | req :: rest => (after D π req).run rest

/-- The server at its first start. -/
def booted : Server where
  toService := Service.seeded

end Server

end Numu
