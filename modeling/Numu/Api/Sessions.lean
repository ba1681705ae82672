/-
Sessions: whom a request comes from.

A login leaves the browser a random token and the database the token's digest, the
actor it stands for and when it ends.  The `Caller` of a request is looked up by
the token of its cookie: a session with that digest must be there and not be over,
and its actor must still be one.  Whether the caller is a platform admin is read
off the actor at that moment, never kept.

The sessions are rows of the database and the buckets of the limiter are memory of
the process, so the state of the whole server is put together here.  A session goes
with its actor: whatever statement removes an entity removes its sessions.

The digest, the clocks and the uuids are arguments.
-/
import Numu.Lib.Zoom
import Numu.Api.Service
import Numu.Api.Oauth
import Numu.Api.RateLimit

namespace Numu

open Fallible

/-- A digit of a uuid. -/
def isUuidDigit (c : Char) : Bool := c.isDigit || 'a' ≤ c && c ≤ 'f'

/-- A uuid in its simple form. -/
structure Uuid where
  digits : List Char
  length : digits.length = 32
  hex : digits.all isUuidDigit = true

def Uuid.text (u : Uuid) : String := String.ofList u.digits

/-- What a request draws from outside: its clocks and the uuids it mints. -/
structure Draws where
  now : Timestamp := {}
  unix : Nat := 0
  instant : Nat := 0
  requestUuid : Uuid
  traceUuid : Uuid
  uuid : Uuid
  sessionUuid : Uuid
  tokenUuids : Uuid × Uuid

def Draws.ambient (draws : Draws) : Ambient := { now := draws.now, uuid := draws.uuid.text }

/-! ### The state of the server -/

structure Session where
  id : String
  actorId : String
  tokenHash : String
  /-- In microseconds of the database clock. -/
  expiresAt : Int
deriving DecidableEq

/-- The process, its database and its limiter. -/
structure Server extends Service where
  sessions : Table Session.id := ∅
  buckets : Buckets := ∅

/-- The database in the process. -/
def Service.database : Zoom Service Store where
  get σ := σ.store
  put s σ := { σ with store := s }
  get_put _ _ := rfl

/-- A program on the database with the types of the process, which it reads first. -/
def Service.handle {α : Type} (h : AppState → Handler α) : Fallible AppError Service α := do
  let st ← query Service.toAppState
  zoom Service.database (h st)

namespace Server

/-- The sessions of the entities that are left: `references entities(id) on delete cascade`. -/
def cascade (sessions : Table Session.id) (s : Store) : Table Session.id :=
  sessions.filter fun x => s.entities.has x.actorId

/-- The service in the server. -/
def service : Zoom Server Service where
  get π := π.toService
  put σ π := { π with toService := σ, sessions := cascade π.sessions σ.store }
  get_put _ _ := rfl

/-- Run a statement on the sessions as one step. -/
def execute {α : Type} (q : Server → Except SqlxError (α × Server)) : Fallible AppError Server α :=
  attempt fun π => (q π).mapError AppError.ofSqlx

/-- `insert into sessions (id, actor_id, token_hash, expires_at)`; the digest is unique too. -/
def insertSession (x : Session) : Server → Except SqlxError (Unit × Server) := fun π =>
  match π.sessions.insert x with
  | none => .error .uniqueViolation
  | some rows =>
    if π.sessions.rows.any fun y => y.tokenHash = x.tokenHash then .error .uniqueViolation
    else if π.store.entities.has x.actorId then .ok ((), { π with sessions := rows })
    else .error .foreignKeyViolation

/-- `delete from sessions where actor_id = $1`. -/
def deleteSessions (actorId : String) : Server → Except SqlxError (Unit × Server) := fun π =>
  .ok ((), { π with sessions := π.sessions.filter fun x => x.actorId ≠ actorId })

/--
`select s.actor_id, d.data->>'platform_role' … from sessions s join entity_data d on d.entity_id =
s.actor_id and d.type_id = 'actor' where s.token_hash = $1 and s.expires_at > now()`.
-/
def sessionCaller (π : Server) (tokenHash : String) (now : Timestamp) : Option Caller :=
  π.sessions.rows.findSome? fun x =>
    if x.tokenHash = tokenHash ∧ now.micros < x.expiresAt then π.store.callerOf x.actorId else none

end Server

/-! ### The token and its cookie -/

/-- SHA-256. -/
abbrev Sha256 : Type := List UInt8 → Digest

def sha256Hex (sha : Sha256) (s : String) : String :=
  String.ofList (hex (sha (Text.utf8Bytes s.toList)).1)

def sessionCookie : String := "numu_session"

/-- The token of a `Cookie` header: the first pair under the session's name. -/
def cookieToken (headerValue : List Char) : Option String :=
  (((headerValue.splitOn ';').map Text.trim).findSome? fun kv =>
    Text.dropStart? (sessionCookie ++ "=").toList kv).map String.ofList

/-- The token of a login: two uuids. -/
def Draws.token (draws : Draws) : String := draws.tokenUuids.1.text ++ draws.tokenUuids.2.text

/-- The interval of 30 days. -/
def thirtyDays : Int := 30 * 24 * 60 * 60 * 1000000

/-- The session of a login. -/
def Draws.session (sha : Sha256) (draws : Draws) (actorId : String) : Session where
  id := "SES_" ++ draws.sessionUuid.text
  actorId := actorId
  tokenHash := sha256Hex sha draws.token
  expiresAt := draws.now.micros + thirtyDays

/-- The attributes of a cookie that lasts some seconds. -/
def cookieAttributes (maxAge : Nat) (secure : String) : String :=
  "; HttpOnly; SameSite=Lax; Path=/; Max-Age=" ++ Nat.repr maxAge ++ secure

/-- Mint a token, store its digest, answer the cookie. -/
def mintSession (sha : Sha256) (draws : Draws) (secure actorId : String) :
    Fallible AppError Server String := do
  Server.execute (Server.insertSession (draws.session sha actorId))
  pure (sessionCookie ++ "=" ++ draws.token ++ cookieAttributes 2592000 secure)

/-- The caller of a request, from its `Cookie` header. -/
def Caller.fromRequestParts (sha : Sha256) (now : Timestamp) (cookie : Option (List UInt8)) :
    Fallible AppError Server Caller := do
  let token ← getOr ((cookie.bind toStr?).bind cookieToken) .unauthorized
  let found ← query fun π => π.sessionCaller (sha256Hex sha token) now
  getOr found .unauthorized

/-! ### The handlers -/

/-- A response with the cookies it sets. -/
structure Reply extends Response where
  setCookies : List String := []

/-- Mint a session for an actor that is there; in debug builds only. -/
def devLogin (sha : Sha256) (draws : Draws) (secure : String) (body : Option (Option String)) :
    Fallible AppError Server Reply := do
  let actorId := body.join.getD "USR_dev"
  let found ← query fun π => π.store.row? actorId "actor"
  ensure found.isSome .notFound
  let cookie ← mintSession sha draws secure actorId
  pure { status := 200, body := some (.mkObj [("actor_id", .str actorId)]),
         setCookies := [cookie] }

/-- Drop the caller's sessions, all of them, and clear the cookie. -/
def logout (secure : String) (caller : Caller) : Fallible AppError Server Reply := do
  Server.execute (Server.deleteSessions caller.actorId)
  pure { status := 204, setCookies := [sessionCookie ++ "=" ++ cookieAttributes 0 secure] }

end Numu
