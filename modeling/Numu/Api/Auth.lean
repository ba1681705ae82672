/-
The writers of `entity_data` outside the generic handlers, and whom a session stands for.

A connector run stamps its connector, the first-admin claim promotes an actor,
and a first login mints one.  None of them goes through the validation of the
object handlers: each is its own statement or transaction on the same table.
What the network answers to a connector run is an argument.
-/
import Numu.Api.Objects

namespace Numu

open Fallible Handler

/-! ### Connectors -/

/-- `update entity_data set data = jsonb_set(jsonb_set(…)), version = version + 1 … returning
version`. -/
def stampConnector (id status : String) (now : Timestamp) : Stmt I32 := fun s =>
  match s.row? id "connector" with
  | none => .error .rowNotFound
  | some row =>
    match jsonbSet row.data "last_run_at" (.str now.text) with
    | .error e => .error e
    | .ok stamped =>
      match jsonbSet stamped "status" (.str status) with
      | .error e => .error e
      | .ok data =>
        match row.version.succ? with
        | none => .error .numericOutOfRange
        | some v => .ok (v, { s with
            entityData := s.entityData.upsert
              { row with data := data, version := v, updatedAt := now } })

def stampRun (id status : String) (now : Timestamp) : Handler I32 :=
  execute (stampConnector id status now)

/-- Stamp a failed run; what becomes of the stamp is ignored. -/
def stampRunQuietly (id status : String) (now : Timestamp) : Handler Unit :=
  executeQuietly fun s => (stampConnector id status now s).map fun r => ((), r.2)

/-- Run a connector: fetch its target and stamp it on both paths. -/
def runConnector (st : AppState) (ctx : RequestCtx) (env : Ambient) (caller : Caller)
    (fetch : String → Except AppError Json) (id : String) : Handler Response := do
  let found ← query fun s => s.row? id "connector"
  let row ← getOr found (deny404 ctx)
  let ok ← reachAction st caller id .edit
  ensure ok (deny404 ctx)
  let kind := (row.data.str? "kind").getD ""
  let target := (row.data.str? "target").getD ""
  ensure (kind = "http_json") ((AppError.unprocessable ("connector kind '" ++ kind ++
    "' is not runnable in v1 (only http_json)")).withRequestId ctx.requestId)
  ensure (target ≠ "") ((AppError.unprocessable "connector has no target").withRequestId
    ctx.requestId)
  match fetch target with
  | .error e => do
    stampRunQuietly id "error" env.now
    throw (e.withRequestId ctx.requestId)
  | .ok result => do
    let version ← stampRun id "active" env.now
    recordEvent ctx caller.actorId (some id) "connector.ran"
      (.mkObj [("id", .str id), ("target", .str target)])
    pure { status := 200, etag := some (etag version),
           body := some (.mkObj [("connector", .str id), ("ran", .bool true),
             ("version", .num (.int version.val)), ("result", result)]) }

/-! ### The first-admin claim -/

/-- Is there an admin besides the seeded one? -/
def Store.hasAdmin (s : Store) : Bool :=
  s.entityData.rows.any fun d =>
    d.typeId = "actor" && d.entityId ≠ "USR_dev" &&
      d.data.get? "platform_role" = some (.str "admin")

/-- `update entity_data set data = jsonb_set(data, '{platform_role}', '"admin"') where … and not
exists (…)`; answers the rows affected. -/
def promoteActor (actorId : String) : Stmt Nat := fun s =>
  match s.row? actorId "actor" with
  | none => .ok (0, s)
  | some row =>
    if s.hasAdmin then .ok (0, s)
    else match jsonbSet row.data "platform_role" (.str "admin") with
      | .error e => .error e
      | .ok data => .ok (1, { s with entityData := s.entityData.upsert { row with data := data } })

/-- The `update` of the claim where its `not exists` has been answered. -/
def promoteUnless (taken : Bool) (actorId : String) : Stmt Nat := fun s =>
  match s.row? actorId "actor" with
  | none => .ok (0, s)
  | some row =>
    if taken then .ok (0, s)
    else match jsonbSet row.data "platform_role" (.str "admin") with
      | .error e => .error e
      | .ok data => .ok (1, { s with entityData := s.entityData.upsert { row with data := data } })

def claimAdmin (caller : Caller) : Handler Response := do
  let affected ← execute (promoteActor caller.actorId)
  ensure (affected ≠ 0) (AppError.conflict "an admin already exists")
  pure { status := 200, body := some (.mkObj [("actor_id", .str caller.actorId),
    ("platform_role", .str "admin")]) }

/--
The claim as READ COMMITTED runs it among others: the sub-select of its statement reads the
snapshot taken when the statement starts, and the actor's row is updated afterwards.
-/
def claimAdminSnapshot (caller : Caller) : Handler Response := do
  let taken ← query Store.hasAdmin
  let affected ← execute (promoteUnless taken caller.actorId)
  ensure (affected ≠ 0) (AppError.conflict "an admin already exists")
  pure { status := 200, body := some (.mkObj [("actor_id", .str caller.actorId),
    ("platform_role", .str "admin")]) }

/-! ### Sessions -/

/--
The caller a session of the actor stands for: `select s.actor_id, d.data->>'platform_role' …
join entity_data d on d.entity_id = s.actor_id and d.type_id = 'actor'`.
-/
def Store.callerOf (s : Store) (actorId : String) : Option Caller :=
  (s.row? actorId "actor").map fun d =>
    { actorId := actorId,
      isPlatformAdmin := decide (d.data.get? "platform_role" = some (.str "admin")) }

/-! ### Login -/

/-- The data of an actor minted at first login. -/
def loginActorData (actorId name : String) (email : Option String) : Json :=
  let handle := "u_" ++ String.ofList ((actorId.toList.take 14).drop 4)
  .mkObj [("display_name", .str (if name = "" then handle else name)), ("handle", .str handle),
    ("email", (email.map Json.str).getD .null), ("kind", .str "human"),
    ("platform_role", .str "member"), ("status", .str "active")]

/-- The transaction of a first login: the actor, its data, the identity. -/
def loginTx (actorId provider sub name : String) (email : Option String) (now : Timestamp) :
    Stmt Unit := do
  insertEntity { id := actorId, type := "actor", createdBy := some actorId }
  insertEntityData
    { entityId := actorId, typeId := "actor", data := loginActorData actorId name email,
      updatedAt := now }
  insertIdentity { provider := provider, sub := sub, actorId := actorId, email := email }

/-- The actor linked to an identity, minted when there is none. -/
def upsertIdentity (env : Ambient) (provider sub : String) (email : Option String)
    (name : String) : Handler String := do
  let found ← query fun s => (s.authIdentities.find? (provider, sub)).map AuthIdentity.actorId
  match found with
  | some actorId => pure actorId
  | none => do
    let actorId := "USR_" ++ env.uuid
    execute (loginTx actorId provider sub name email env.now)
    pure actorId

end Numu
