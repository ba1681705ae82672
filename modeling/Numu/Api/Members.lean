/-
The roster handlers, `/api/objects/:type/:id/members`, and the close checks of a case.

Three requests change who may do what on an object.  `addMember` grants a role
and replaces the one that was there; `setMember` changes a role; `removeMember`
revokes it, one's own included.  The last two refuse to take the last owner away,
each by reading the member's role and the number of owners before it writes.
-/
import Numu.Api.Objects

namespace Numu

open Fallible Handler

/-- The rank that may manage a roster. -/
def manageRank : I32 := 3

/-- The object must exist; the denial is the one of no reach. -/
def ensureObject (id typeId : String) (ctx : RequestCtx) : Handler Unit := do
  let found ← query fun s => s.row? id typeId
  ensure found.isSome (deny404 ctx)

/-- The caller's rank on the object: no reach is a 404, reach below the floor a 403. -/
def requireRank (caller : Caller) (objectId : String) (minRank : I32) (ctx : RequestCtx) :
    Handler I32 :=
  if caller.isPlatformAdmin then pure I32.max
  else do
    let rank ← query fun s => s.effectiveRank caller.actorId objectId
    match rank with
    | none => throw (deny404 ctx)
    | some r =>
      if r < minRank then throw (AppError.forbidden.withRequestId ctx.requestId) else pure r

def strField (v : Json) (key : String) (ctx : RequestCtx) : Except AppError String :=
  match v.str? key with
  | some s => .ok s
  | none => .error ((AppError.badRequest (key ++ " is required")).withRequestId ctx.requestId)

/-- The rank of the role to be granted, which may not be above the caller's. -/
def requireGrantable (role : String) (callerRank : I32) (ctx : RequestCtx) : Handler Unit := do
  let found ← query fun s => s.rankOf role
  let targetRank ← getOr found ((AppError.unprocessable "unknown role").withRequestId ctx.requestId)
  ensure (targetRank ≤ callerRank) (AppError.forbidden.withRequestId ctx.requestId)

/-- The last-owner guard: a request that would take the only owner away is refused. -/
def requireAnotherOwner (id detail : String) (ctx : RequestCtx) : Handler Unit := do
  let owners ← query fun s => s.ownerCount id
  ensure (1 < owners) ((AppError.conflict detail).withRequestId ctx.requestId)

/-- `select … from memberships where object_id = $1 order by role desc, member_id`. -/
def Store.rosterOf (s : Store) (objectId : String) : List MemberEdge :=
  (s.memberships.rows.filter fun m => m.objectId = objectId).insertionSort fun a b =>
    b.role < a.role ∨ a.role = b.role ∧ a.memberId ≤ b.memberId

def memberJson (m : MemberEdge) : Json :=
  .mkObj [("member_id", .str m.memberId), ("role", .str m.role),
    ("context_role", .str m.contextRole)]

/-- GET: the roster, for whoever can view the object. -/
def listMembers (ctx : RequestCtx) (caller : Caller) (typeId id : String) : Handler Response := do
  ensureObject id typeId ctx
  let _ ← requireRank caller id 1 ctx
  let rows ← query fun s => s.rosterOf id
  pure { status := 200, body := some (.mkObj [("members", .arr (rows.map memberJson))]) }

/-- POST: record a close check of a case. -/
def recordCheck (ctx : RequestCtx) (caller : Caller) (typeId id name : String)
    (headers : HeaderMap) (body : Body) : Handler Response := do
  ensure (typeId = "case") (deny404 ctx)
  ensureObject id typeId ctx
  let _ ← requireRank caller id manageRank ctx
  let v ← check (readJson headers body false)
  let passed := ((v.get? "passed").bind Json.asBool?).getD false
  let note := v.str? "note"
  execute (upsertCloseCheck { caseId := id, checkName := name, passed := passed, note := note })
  recordEvent ctx caller.actorId (some id) ("case.check_" ++ name)
    (.mkObj [("check", .str name), ("passed", .bool passed)])
  pure { status := 200, body := some (.mkObj [("check", .str name), ("passed", .bool passed)]) }

/-- POST: grant a role. -/
def addMember (ctx : RequestCtx) (caller : Caller) (typeId id : String) (headers : HeaderMap)
    (body : Body) : Handler Response := do
  ensureObject id typeId ctx
  let callerRank ← requireRank caller id manageRank ctx
  let v ← check (readJson headers body false)
  let memberId ← check (strField v "member_id" ctx)
  let role ← check (strField v "role" ctx)
  let contextRole := (v.str? "context_role").getD ""
  requireGrantable role callerRank ctx
  let cycle ← query fun s => s.principalsContain id memberId
  ensure (!cycle) ((AppError.conflict
    "granting this member here would create a membership cycle").withRequestId ctx.requestId)
  execute (upsertMembership id memberId role (some contextRole))
  recordEvent ctx caller.actorId (some id) (typeId ++ ".member_granted")
    (.mkObj [("member_id", .str memberId), ("role", .str role)])
  pure { status := 201, body := some (.mkObj [("member_id", .str memberId), ("role", .str role),
    ("context_role", .str contextRole)]) }

/-- PATCH: change a member's role. -/
def setMember (ctx : RequestCtx) (caller : Caller) (typeId id memberId : String)
    (headers : HeaderMap) (body : Body) : Handler Response := do
  ensureObject id typeId ctx
  let callerRank ← requireRank caller id manageRank ctx
  let v ← check (readJson headers body false)
  let role ← check (strField v "role" ctx)
  let contextRole := v.str? "context_role"
  requireGrantable role callerRank ctx
  let found ← query fun s => s.currentRole id memberId
  let current ← getOr found (deny404 ctx)
  -- The guard is lazy: the owners are counted only when an owner is demoted.
  onlyIf (current = "owner" ∧ role ≠ "owner")
    (requireAnotherOwner id "cannot demote the last owner" ctx)
  execute (updateMembership id memberId role contextRole)
  recordEvent ctx caller.actorId (some id) (typeId ++ ".member_role_changed")
    (.mkObj [("member_id", .str memberId), ("role", .str role)])
  pure { status := 200, body := some (.mkObj [("member_id", .str memberId), ("role", .str role)]) }

/-- DELETE: revoke, or leave. -/
def removeMember (ctx : RequestCtx) (caller : Caller) (typeId id memberId : String) :
    Handler Response := do
  ensureObject id typeId ctx
  let found ← query fun s => s.currentRole id memberId
  let current ← getOr found (deny404 ctx)
  onlyIf (memberId ≠ caller.actorId) do
    let _ ← requireRank caller id manageRank ctx
    pure ()
  onlyIf (current = "owner") (requireAnotherOwner id "cannot remove the last owner" ctx)
  execute (deleteMembership id memberId)
  recordEvent ctx caller.actorId (some id) (typeId ++ ".member_revoked")
    (.mkObj [("member_id", .str memberId)])
  pure { status := 204 }

end Numu
