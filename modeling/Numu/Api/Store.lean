/-
The database: the tables of the migrations and the statements run on them.

A table carries the uniqueness of its primary key, so no two rows of a store can
clash.  A statement is a function from the store to an error or an answer and the
next store.  A statement that fails has no next store, which is how a failed
statement undoes itself, and a transaction is a sequence of statements taken as
one.

The constraints the migrations declare are checked by the statements that could
break them: primary keys on insert, foreign keys on every column that is written,
the range of `integer` on the version, and the `cases_guard` trigger before a
`cases` row is updated.  Deleting an entity follows every declared
`on delete cascade` and `on delete set null`.
-/
import Numu.Lib.Scalar
import Numu.Api.Registry

namespace Numu

/-- A reading of the database clock, and the text PostgreSQL prints for it. -/
structure Timestamp where
  micros : Int := 0
  text : String := ""
deriving DecidableEq

structure Entity where
  id : String
  type : String
  createdBy : Option String := none
deriving DecidableEq

structure EntityData where
  entityId : String
  typeId : String
  data : Json
  scopeParentId : Option String := none
  version : I32 := 1
  updatedAt : Timestamp := {}
deriving DecidableEq

structure MemberEdge where
  objectId : String
  memberId : String
  role : String
  contextRole : String := ""
deriving DecidableEq

/-- The primary key of a membership: one role per object and member. -/
def MemberEdge.key (m : MemberEdge) : String × String := (m.objectId, m.memberId)

structure Role where
  role : String
  rank : I32
deriving DecidableEq

structure FieldPermission where
  typeId : String
  field : String
  role : String
  canRead : Bool
  canWrite : Bool
deriving DecidableEq

def FieldPermission.key (p : FieldPermission) : String × String × String :=
  (p.typeId, p.field, p.role)

/-- The typed projection of a case. -/
structure CaseRow where
  entityId : String
  title : String
  status : String
  workflowId : String
  priority : String
  assigneeId : Option String
  projectId : Option String
  version : I32
deriving DecidableEq

structure CloseCheck where
  caseId : String
  checkName : String
  passed : Bool
  note : Option String := none
deriving DecidableEq

def CloseCheck.key (c : CloseCheck) : String × String := (c.caseId, c.checkName)

/-- A workflow as stored; `states` and `close_checks` are arrays of strings. -/
structure WorkflowRow where
  workflowId : String
  states : List String
  transitions : Json
  initial : String
  closeChecks : List String
deriving DecidableEq

structure EventRow where
  entityId : Option String
  actorId : String
  kind : String
  payload : Json
  requestId : String
  traceId : String
deriving DecidableEq

structure AuthIdentity where
  provider : String
  sub : String
  actorId : String
  email : Option String
deriving DecidableEq

def AuthIdentity.key (a : AuthIdentity) : String × String := (a.provider, a.sub)

/-- A typed edge between two entities. -/
structure RelationRow where
  id : String
  subjectId : String
  objectId : String
  relationType : String
  createdBy : Option String
  createdAt : Timestamp := {}
deriving DecidableEq

/-- A run of the feature pipeline. -/
structure FeatureRun where
  id : String
  caseId : Option String
  title : String
  phase : String := "spec"
  status : String := "active"
  startedAt : Timestamp := {}
  updatedAt : Timestamp := {}
deriving DecidableEq

/-- One step of a run; the rows are kept in the order of their serial ids. -/
structure RoleHandoff where
  featureRunId : String
  role : String
  gate : String
  outcome : String
  kind : String
  attempt : I32
  retries : I32
  hops : I32
  note : String
  at_ : Timestamp := {}
deriving DecidableEq

/-- The database. -/
structure Store where
  typeDefinitions : Table TypeDef.typeId := ∅
  entities : Table Entity.id := ∅
  entityData : Table EntityData.entityId := ∅
  memberships : Table MemberEdge.key := ∅
  roles : Table Role.role := ∅
  fieldPermissions : Table FieldPermission.key := ∅
  workflows : Table WorkflowRow.workflowId := ∅
  cases : Table CaseRow.entityId := ∅
  closeChecks : Table CloseCheck.key := ∅
  authIdentities : Table AuthIdentity.key := ∅
  relations : Table RelationRow.id := ∅
  featureRuns : Table FeatureRun.id := ∅
  roleHandoffs : List RoleHandoff := []
  events : List EventRow := []
deriving DecidableEq

/-- A statement, or a transaction of several. -/
abbrev Stmt : Type → Type := StateT Store (Except SqlxError)

namespace Store

/-! ### Queries -/

/-- The `entity_data` row of an id, of the given type. -/
def row? (s : Store) (id typeId : String) : Option EntityData :=
  (s.entityData.find? id).filter fun d => d.typeId = typeId

/-- A reference column is null or names an entity. -/
def refOk (s : Store) (r : Option String) : Bool :=
  match r with
  | none => true
  | some id => s.entities.has id

/-- `select type from entities where id = $1`. -/
def typeOf (s : Store) (id : String) : Option String := (s.entities.find? id).map Entity.type

/-- `select rank from roles where role = $1`. -/
def rankOf (s : Store) (role : String) : Option I32 := (s.roles.find? role).map Role.rank

/-- `select role from memberships where object_id = $1 and member_id = $2`. -/
def currentRole (s : Store) (objectId memberId : String) : Option String :=
  (s.memberships.find? (objectId, memberId)).map MemberEdge.role

/-- The owner edges of an object. -/
def ownerEdges (s : Store) (objectId : String) : List MemberEdge :=
  s.memberships.rows.filter fun m => m.objectId = objectId && m.role = "owner"

/-- `select count(*) from memberships where object_id = $1 and role = 'owner'`. -/
def ownerCount (s : Store) (objectId : String) : Nat := (s.ownerEdges objectId).length

/-- Does the case have a passed check of this name? -/
def checkPassed (s : Store) (caseId name : String) : Bool :=
  (s.closeChecks.find? (caseId, name)).any CloseCheck.passed

end Store

/-! ### Statements on `entities` and `entity_data` -/

/-- `insert into entities (id, type, created_by)`. -/
def insertEntity (e : Entity) : Stmt Unit := fun s =>
  match s.entities.insert e with
  | none => .error .uniqueViolation
  | some t =>
    if s.typeDefinitions.has e.type then .ok ((), { s with entities := t })
    else .error .foreignKeyViolation

/-- `insert into entity_data (entity_id, type_id, data, scope_parent_id)`. -/
def insertEntityData (d : EntityData) : Stmt Unit := fun s =>
  match s.entityData.insert d with
  | none => .error .uniqueViolation
  | some t =>
    if s.entities.has d.entityId && s.typeDefinitions.has d.typeId && s.refOk d.scopeParentId then
      .ok ((), { s with entityData := t })
    else .error .foreignKeyViolation

/--
`update entity_data set data, scope_parent_id, version = version + 1 where
entity_id and type_id and version = $expected`; answers the rows affected.
-/
def updateEntityData (data : Json) (sp : Option String) (id typeId : String) (expected : I32)
    (now : Timestamp) : Stmt Nat := fun s =>
  match s.row? id typeId with
  | none => .ok (0, s)
  | some row =>
    if row.version = expected then
      match row.version.succ? with
      | none => .error .numericOutOfRange
      | some v =>
        if s.refOk sp then
          .ok (1, { s with
            entityData := s.entityData.upsert
              { row with data := data, scopeParentId := sp, version := v, updatedAt := now } })
        else .error .foreignKeyViolation
    else .ok (0, s)

/-- What remains of the store when an entity goes, by the declared cascades. -/
def cascadeDelete (s : Store) (id : String) : Store :=
  { s with
    entities := s.entities.filter fun e => e.id ≠ id
    entityData := (s.entityData.filter fun d => d.entityId ≠ id).modify
      (fun d => if d.scopeParentId = some id then { d with scopeParentId := none } else d)
      (by intro d; split <;> rfl)
    memberships := s.memberships.filter fun m => m.objectId ≠ id && m.memberId ≠ id
    cases := (s.cases.filter fun c => c.entityId ≠ id).modify
      (fun c => { c with
        assigneeId := if c.assigneeId = some id then none else c.assigneeId
        projectId := if c.projectId = some id then none else c.projectId })
      (by intro c; rfl)
    closeChecks := s.closeChecks.filter fun c => c.caseId ≠ id
    authIdentities := s.authIdentities.filter fun a => a.actorId ≠ id
    relations := (s.relations.filter fun r => r.subjectId ≠ id && r.objectId ≠ id).modify
      (fun r => { r with createdBy := if r.createdBy = some id then none else r.createdBy })
      (by intro r; rfl)
    featureRuns := s.featureRuns.modify
      (fun r => { r with caseId := if r.caseId = some id then none else r.caseId })
      (by intro r; rfl)
    events := s.events.map fun e =>
      if e.entityId = some id then { e with entityId := none } else e }

/--
`delete from entities e using entity_data d where e.id = d.entity_id and e.id and
d.type_id and d.version = $expected`; answers the rows affected.
-/
def deleteEntity (id typeId : String) (expected : I32) : Stmt Nat := fun s =>
  match s.row? id typeId with
  | none => .ok (0, s)
  | some row =>
    if row.version = expected && s.entities.has id then .ok (1, cascadeDelete s id)
    else .ok (0, s)

/-! ### Statements on `memberships` -/

/-- The constraints of a membership row. -/
def memberEdgeOk (s : Store) (m : MemberEdge) : Bool :=
  s.entities.has m.objectId && s.entities.has m.memberId && s.roles.has m.role

/--
`insert into memberships … on conflict (object_id, member_id) do update set role`,
and `context_role` as well where the statement gives one.
-/
def upsertMembership (objectId memberId role : String) (contextRole : Option String) : Stmt Unit :=
  fun s =>
    let old := (s.memberships.find? (objectId, memberId)).map MemberEdge.contextRole
    let m : MemberEdge :=
      { objectId := objectId, memberId := memberId, role := role,
        contextRole := contextRole.getD (old.getD "") }
    if memberEdgeOk s m then .ok ((), { s with memberships := s.memberships.upsert m })
    else .error .foreignKeyViolation

/-- `update memberships set role = $3, context_role = coalesce($4, context_role) where …`. -/
def updateMembership (objectId memberId role : String) (contextRole : Option String) : Stmt Unit :=
  fun s =>
    match s.memberships.find? (objectId, memberId) with
    | none => .ok ((), s)
    | some m =>
      if s.roles.has role then
        .ok ((), { s with
          memberships := s.memberships.upsert
            { m with role := role, contextRole := contextRole.getD m.contextRole } })
      else .error .foreignKeyViolation

/-- `delete from memberships where object_id = $1 and member_id = $2`. -/
def deleteMembership (objectId memberId : String) : Stmt Unit := fun s =>
  .ok ((), { s with memberships := s.memberships.filter fun m => m.key ≠ (objectId, memberId) })

/-! ### The `cases` projection and its guard -/

/--
The trigger before an update of a `cases` row: a status change into the terminal
state of the new workflow needs every close check passed.
-/
def casesGuard (s : Store) (old new : CaseRow) : Except SqlxError Unit :=
  if new.status ≠ old.status then
    match s.workflows.find? new.workflowId with
    | none => .error (.closePreconditions ("unknown workflow " ++ new.workflowId))
    | some wf =>
      if wf.states.getLast? = some new.status &&
          wf.closeChecks.any (fun name => !s.checkPassed new.entityId name) then
        .error (.closePreconditions ("close preconditions unmet for " ++ new.entityId))
      else .ok ()
  else .ok ()

/-- The foreign keys of a `cases` row. -/
def caseRefsOk (s : Store) (c : CaseRow) : Bool :=
  s.entities.has c.entityId && s.workflows.has c.workflowId &&
    s.refOk c.assigneeId && s.refOk c.projectId

/-- `insert into cases … on conflict (entity_id) do update set …`. -/
def upsertCase (c : CaseRow) : Stmt Unit := fun s =>
  match (match s.cases.find? c.entityId with
    | some old => casesGuard s old c
    | none => .ok ()) with
  | .error e => .error e
  | .ok () =>
    if caseRefsOk s c then .ok ((), { s with cases := s.cases.upsert c })
    else .error .foreignKeyViolation

/--
`insert into case_close_checks … on conflict (case_id, check_name) do update set …`; a check is a
check of a `cases` row.
-/
def upsertCloseCheck (c : CloseCheck) : Stmt Unit := fun s =>
  if s.cases.has c.caseId then .ok ((), { s with closeChecks := s.closeChecks.upsert c })
  else .error .foreignKeyViolation

/-! ### Relations -/

/-- Is there an edge between the same two entities of the same type? -/
def Store.hasEdge (s : Store) (r : RelationRow) : Bool :=
  s.relations.rows.any fun q =>
    q.subjectId = r.subjectId && q.objectId = r.objectId && q.relationType = r.relationType

/-- `insert into relations (id, subject_id, object_id, relation_type, created_by)`. -/
def insertRelation (r : RelationRow) : Stmt Unit := fun s =>
  match s.relations.insert r with
  | none => .error .uniqueViolation
  | some t =>
    if s.hasEdge r then .error .uniqueViolation
    else if s.entities.has r.subjectId && s.entities.has r.objectId && s.refOk r.createdBy then
      .ok ((), { s with relations := t })
    else .error .foreignKeyViolation

/-- `delete from relations where id = $1`. -/
def deleteRelationRow (id : String) : Stmt Unit := fun s =>
  .ok ((), { s with relations := s.relations.filter fun r => r.id ≠ id })

/-! ### The feature pipeline -/

/-- `insert into feature_runs (id, case_id, title)`. -/
def insertFeatureRun (r : FeatureRun) : Stmt Unit := fun s =>
  match s.featureRuns.insert r with
  | none => .error .uniqueViolation
  | some t =>
    if r.caseId.all (s.cases.has ·) then .ok ((), { s with featureRuns := t })
    else .error .foreignKeyViolation

/-- The handoffs of a run, oldest first. -/
def Store.handoffsOf (s : Store) (runId : String) : List RoleHandoff :=
  s.roleHandoffs.filter fun h => h.featureRunId = runId

/-- The roles the column admits. -/
def handoffRoles : List String := ["architect", "tester", "coder", "reviewer", "ops"]

/-- `insert into role_handoffs …`. -/
def insertHandoff (h : RoleHandoff) : Stmt Unit := fun s =>
  if !handoffRoles.contains h.role then .error .checkViolation
  else if s.featureRuns.has h.featureRunId then
    .ok ((), { s with roleHandoffs := s.roleHandoffs ++ [h] })
  else .error .foreignKeyViolation

/-- `update feature_runs set phase = $1, status = $2, updated_at = now() where id = $3`. -/
def updateFeatureRun (id phase status : String) (now : Timestamp) : Stmt Unit := fun s =>
  .ok ((), { s with
    featureRuns := s.featureRuns.modify
      (fun r => if r.id = id then { r with phase := phase, status := status, updatedAt := now }
        else r)
      (by intro r; split <;> rfl) })

/-! ### The other tables -/

/-- `insert into events …`. -/
def insertEvent (e : EventRow) : Stmt Unit := fun s =>
  if s.refOk e.entityId then .ok ((), { s with events := s.events ++ [e] })
  else .error .foreignKeyViolation

/-- `insert into auth_identities …`. -/
def insertIdentity (a : AuthIdentity) : Stmt Unit := fun s =>
  match s.authIdentities.insert a with
  | none => .error .uniqueViolation
  | some t =>
    if s.entities.has a.actorId then .ok ((), { s with authIdentities := t })
    else .error .foreignKeyViolation

/-- `jsonb_set(data, '{key}', value)`: sets the key of an object, fails on a scalar. -/
def jsonbSet (data : Json) (key : String) (value : Json) : Except SqlxError Json :=
  match data with
  | .obj m => .ok (.obj (JsonMap.insert m key value))
  | _ => .error .invalidJsonPath

end Numu
