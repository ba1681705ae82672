/-
Handlers and the gates they pass: the object gate and the field gate.

A handler is a program over the database that answers with a response or an
`AppError`.  It runs one statement at a time, so every query and every write
below is a step of its own.  `requireAction` is the object gate (Plane A): it
compares the caller's effective rank with the floor of the action.
`requireWrite` and `filterReadable` are the field gate (Plane B): every field has
a read and a write floor, from its class or from the override rows.
`permittedVerbs`, `rbacVerdict` and `readableSet` ask the same gates on behalf of
OPTIONS.
-/
import Numu.Api.Rbac

namespace Numu

open Fallible

/-- A request handler. -/
abbrev Handler : Type → Type := Fallible AppError Store

namespace Handler

/-- Run a statement, or a transaction, as one step. -/
def execute {α : Type} (q : Stmt α) : Handler α :=
  attempt fun s => (q s).mapError AppError.ofSqlx

/-- Run a statement whose failure is logged and otherwise ignored. -/
def executeQuietly (q : Stmt Unit) : Handler Unit :=
  attempt fun s =>
    match q s with
    | .ok r => .ok r
    | .error _ => .ok ((), s)

end Handler

/-- The authenticated principal. -/
structure Caller where
  actorId : String
  isPlatformAdmin : Bool
deriving DecidableEq

inductive Action where
  | view
  | create
  | edit
  | delete
deriving DecidableEq

/-- The rank an action needs; a type may raise its DELETE floor to owner. -/
def Action.minRank (td : TypeDef) : Action → I32
  | .view => 1
  | .create | .edit => 2
  | .delete => if td.deleteMinRole = "owner" then 4 else 3

/--
The object gate.  A platform admin passes, and so does a request without an
object; otherwise the caller's effective rank decides.
-/
def requireAction (caller : Caller) (td : TypeDef) (objectId : Option String) (action : Action) :
    Handler Bool :=
  if caller.isPlatformAdmin then pure true
  else match objectId with
    | none => pure true
    | some id => do
      let rank ← query fun s => s.effectiveRank caller.actorId id
      pure (rank.any fun r => action.minRank td ≤ r)

/-- The object gate for an entity whose type is looked up first. -/
def reachAction (st : AppState) (caller : Caller) (entityId : String) (action : Action) :
    Handler Bool := do
  let typeId ← query fun s => s.typeOf entityId
  match typeId.bind (TypeDefCache.get st.registry) with
  | none => pure false
  | some td => requireAction caller td (some entityId) action

/-! ### Verbs -/

/-- The verbs of a resource, each with the action it stands for. -/
def verbActions (isItem : Bool) : List (String × Action) :=
  if isItem then
    [("GET", .view), ("HEAD", .view), ("PUT", .edit), ("PATCH", .edit), ("DELETE", .delete),
      ("OPTIONS", .view)]
  else [("GET", .view), ("HEAD", .view), ("POST", .create), ("OPTIONS", .view)]

/-- The loop of `permittedVerbs`. -/
def permittedEach (caller : Caller) (td : TypeDef) (objectId : Option String) :
    List (String × Action) → Handler (List String)
  | [] => pure []
  | (verb, action) :: rest =>
    if td.maskedVerbs.contains verb then permittedEach caller td objectId rest
    else do
      let ok ← requireAction caller td objectId action
      let verbs ← permittedEach caller td objectId rest
      pure (if ok then verb :: verbs else verbs)

/-- The verbs the caller may use: those offered, not masked, and let through by the gate. -/
def permittedVerbs (caller : Caller) (td : TypeDef) (objectId : Option String) (isItem : Bool) :
    Handler (List String) :=
  permittedEach caller td objectId (verbActions isItem)

/-- The loop of `rbacVerdict`. -/
def verdictEach (caller : Caller) (td : TypeDef) (objectId : Option String) :
    List (String × Action) → JsonMap → Handler JsonMap
  | [], out => pure out
  | (verb, action) :: rest, out =>
    if td.maskedVerbs.contains verb then
      verdictEach caller td objectId rest (JsonMap.insert out verb
        (.mkObj [("allowed", .bool false), ("reason", .str "masked by method_policy")]))
    else do
      let ok ← requireAction caller td objectId action
      verdictEach caller td objectId rest (JsonMap.insert out verb
        (if ok then .mkObj [("allowed", .bool true)]
          else .mkObj [("allowed", .bool false), ("reason", .str "insufficient reach")]))

/-- The verdict on every verb. -/
def rbacVerdict (caller : Caller) (td : TypeDef) (objectId : Option String) (isItem : Bool) :
    Handler Json := do
  let out ← verdictEach caller td objectId (verbActions isItem) []
  pure (.obj out)

/-! ### Field permissions -/

/-- The read and write floor of a permission class. -/
def classRanks (permClass : String) : I32 × I32 :=
  if permClass = "owner_grade" then (3, 4)
  else if permClass = "readonly" ∨ permClass = "system" then (1, I32.max)
  else (1, 2)

/-- The ranks of the roles that the override rows of a field permit. -/
def Store.overrideRanks (s : Store) (typeId field : String) (permits : FieldPermission → Bool) :
    List I32 :=
  (s.fieldPermissions.rows.filter fun p =>
    p.typeId = typeId && p.field = field && permits p).filterMap fun p => s.rankOf p.role

/-- The floors of a field: the lowest permitted rank of its override rows, else its class. -/
def Store.fieldFloors (s : Store) (typeId field permClass : String) : I32 × I32 :=
  (((s.overrideRanks typeId field FieldPermission.canRead).min?).getD (classRanks permClass).1,
   ((s.overrideRanks typeId field FieldPermission.canWrite).min?).getD (classRanks permClass).2)

/-- The caller's rank on an object: the maximum for an admin, zero without reach. -/
def rankOn (caller : Caller) (objectId : String) : Handler I32 :=
  if caller.isPlatformAdmin then pure I32.max
  else do
    let rank ← query fun s => s.effectiveRank caller.actorId objectId
    pure (rank.getD 0)

/-- The loop of `requireWrite`, over the written keys. -/
def requireWriteEach (td : TypeDef) (rank : I32) (ctx : RequestCtx) : List String → Handler Unit
  | [] => pure ()
  | field :: rest =>
    match td.field field with
    | none => requireWriteEach td rank ctx rest
    | some f => do
      let floors ← query fun s => s.fieldFloors td.typeId field f.permClass
      ensure (floors.2 ≤ rank) ((AppError.forbiddenField field).withRequestId ctx.requestId)
      requireWriteEach td rank ctx rest

/-- The write gate: every written field must satisfy its floor. -/
def requireWrite (caller : Caller) (td : TypeDef) (objectId : String) (written : List String)
    (ctx : RequestCtx) : Handler Unit := do
  let rank ← rankOn caller objectId
  if rank = I32.max then pure ()
  else requireWriteEach td rank ctx written

/-- The loop of `filterReadable`, over the fields of the type. -/
def dropUnreadable (td : TypeDef) (rank : I32) : List FieldDef → JsonMap → Handler JsonMap
  | [], m => pure m
  | f :: rest, m => do
    let floors ← query fun s => s.fieldFloors td.typeId f.field f.permClass
    dropUnreadable td rank rest (if rank < floors.1 then JsonMap.remove m f.field else m)

/-- The read filter: drop the fields the caller cannot read. -/
def filterReadable (caller : Caller) (td : TypeDef) (objectId : String) (data : Json) :
    Handler Json := do
  let rank ← rankOn caller objectId
  if rank = I32.max then pure data
  else match data with
    | .obj m => do
      let kept ← dropUnreadable td rank td.fields m
      pure (.obj kept)
    | other => pure other

/-- The loop of `readableSet`, over the fields of the type. -/
def readableEach (td : TypeDef) (rank : I32) : List FieldDef → Handler (List String)
  | [] => pure []
  | f :: rest => do
    let floors ← query fun s => s.fieldFloors td.typeId f.field f.permClass
    let names ← readableEach td rank rest
    pure (if floors.1 ≤ rank then f.field :: names else names)

/-- The fields the caller may read; without an object all that anybody may. -/
def readableSet (caller : Caller) (td : TypeDef) (objectId : Option String) :
    Handler (List String) := do
  let rank ← match objectId with
    | some id => rankOn caller id
    | none => pure I32.max
  readableEach td rank td.fields

end Numu
