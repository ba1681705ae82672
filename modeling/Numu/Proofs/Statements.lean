/-
What each route may write.

A handler is read once, here.  `Endpoint.Wrote` lists the statements of every
endpoint, each with what the handler settled before it: the id it was asked about,
the id it minted, the actor and the request an audit row names.  Every write of an
endpoint is one of them, whatever it read on the way and whatever the other requests
did in between.

An invariant of the database is then a case analysis over the list, and a property
of all requests never unfolds a handler again.
-/
import Numu.Api.Server
import Numu.Proofs.Audit
import Numu.Proofs.Roster

namespace Numu

open Fallible Handler

/-! ### The statements of an endpoint -/

/-- The row of a new run. -/
def startedRun (draws : Draws) (input : StartInput) : FeatureRun :=
  { id := "FRN_" ++ draws.uuid.text, caseId := input.caseId, title := input.title,
    startedAt := draws.now, updatedAt := draws.now }

/-- The row of a new relation. -/
def newRelation (draws : Draws) (caller : Caller) (input : RelInput) : RelationRow :=
  { id := "REL_" ++ draws.uuid.text, subjectId := input.subjectId, objectId := input.objectId,
    relationType := input.relationType, createdBy := some caller.actorId,
    createdAt := draws.now }

/-- An audit row of this caller's request. -/
structure EventRow.IsOf (ev : EventRow) (ctx : RequestCtx) (caller : Caller) : Prop where
  actor : ev.actorId = caller.actorId
  request : ev.requestId = ctx.requestId
  trace : ev.traceId = ctx.traceId

/-- One statement of an endpoint, from the database before it to the one after. -/
inductive Endpoint.Wrote (draws : Draws) (ctx : RequestCtx) (caller : Caller) :
    Endpoint → Store → Store → Prop
  | nothing {e : Endpoint} {s : Store} : Wrote draws ctx caller e s s
  | logged {e : Endpoint} {ev : EventRow} {s t : Store} (of : ev.IsOf ctx caller)
      (h : insertEvent ev s = .ok ((), t)) : Wrote draws ctx caller e s t
  | created {typeId : String} {headers : HeaderMap} {body : Body} {td : TypeDef} {data : Json}
      {sp : Option String} {s t : Store} (type : td.typeId = typeId)
      (h : createTx td typeId (mint td draws.uuid.text) caller.actorId data sp draws.now s =
        .ok ((), t)) : Wrote draws ctx caller (.collCreate typeId headers body) s t
  | updated {v : UpdateVerb} {typeId id : String} {headers : HeaderMap} {body : Body}
      {data : Json} {sp : Option String} {expected : I32} {n : Nat} {s t : Store}
      (h : updateEntityData data sp id typeId expected draws.now s = .ok (n, t)) :
      Wrote draws ctx caller (.itemUpdate v typeId id headers body) s t
  | mirrored {v : UpdateVerb} {typeId id : String} {headers : HeaderMap} {body : Body}
      {data : Json} {version : I32} {s t : Store}
      (h : upsertCaseMirror id data version s = .ok ((), t)) :
      Wrote draws ctx caller (.itemUpdate v typeId id headers body) s t
  | deleted {typeId id : String} {headers : HeaderMap} {expected : I32} {n : Nat} {s t : Store}
      (h : deleteEntity id typeId expected s = .ok (n, t)) :
      Wrote draws ctx caller (.itemDelete typeId id headers) s t
  | granted {typeId id m role : String} {headers : HeaderMap} {body : Body}
      {contextRole : Option String} {s t : Store}
      (h : upsertMembership id m role contextRole s = .ok ((), t)) :
      Wrote draws ctx caller (.addMember typeId id headers body) s t
  | regraded {typeId id m role : String} {headers : HeaderMap} {body : Body}
      {contextRole : Option String} {s t : Store}
      (h : updateMembership id m role contextRole s = .ok ((), t)) :
      Wrote draws ctx caller (.setMember typeId id m headers body) s t
  | revoked {typeId id m : String} {s t : Store} (h : deleteMembership id m s = .ok ((), t)) :
      Wrote draws ctx caller (.removeMember typeId id m) s t
  | checked {typeId id name : String} {headers : HeaderMap} {body : Body} {passed : Bool}
      {note : Option String} {s t : Store}
      (h : upsertCloseCheck { caseId := id, checkName := name, passed := passed, note := note } s =
        .ok ((), t)) : Wrote draws ctx caller (.recordCheck typeId id name headers body) s t
  | related {input : RelInput} {s t : Store} (known : input.relationType ∈ relationTypes)
      (apart : input.subjectId ≠ input.objectId)
      (h : insertRelation (newRelation draws caller input) s = .ok ((), t)) :
      Wrote draws ctx caller (.createRelation (.ok input)) s t
  | unrelated {id : String} {s t : Store} (h : deleteRelationRow id s = .ok ((), t)) :
      Wrote draws ctx caller (.deleteRelation id) s t
  | started {input : StartInput} {s t : Store}
      (h : insertFeatureRun (startedRun draws input) s = .ok ((), t)) :
      Wrote draws ctx caller (.startRun (.ok input)) s t
  | handed {id : String} {body : Except String HandoffInput} {row : RoleHandoff} {s t : Store}
      (run : row.featureRunId = id) (h : insertHandoff row s = .ok ((), t)) :
      Wrote draws ctx caller (.recordHandoff id body) s t
  | moved {id phase status : String} {body : Except String HandoffInput} {s t : Store}
      (h : updateFeatureRun id phase status draws.now s = .ok ((), t)) :
      Wrote draws ctx caller (.recordHandoff id body) s t
  | stamped {id status : String} {version : I32} {s t : Store} (run : status ∈ ["active", "error"])
      (h : stampConnector id status draws.now s = .ok (version, t)) :
      Wrote draws ctx caller (.runConnector id) s t
  | registered {spec : TypeSpec} {s t : Store} (h : registerTx spec s = .ok ((), t)) :
      Wrote draws ctx caller (.createType (.ok spec)) s t

/-- The same of the whole process: a statement, or a registry put in place. -/
inductive Endpoint.Changed (draws : Draws) (ctx : RequestCtx) (caller : Caller) (e : Endpoint) :
    Service → Service → Prop
  | database {σ : Service} {s : Store} (h : e.Wrote draws ctx caller σ.store s) :
      Changed draws ctx caller e σ { σ with store := s }
  | published {σ : Service} {reg : TypeDefCache} :
      Changed draws ctx caller e σ { σ with registry := reg }

/-! ### Handlers that only read -/

section Reads

variable {st : AppState} {ctx : RequestCtx} {caller : Caller} {td : TypeDef} {typeId id : String}

theorem readOnly_listItems : ∀ rows, ReadOnly (listItems caller td typeId rows) := by
  intro rows
  induction rows with
  | nil => exact readOnly_pure _
  | cons r rest ih =>
      exact readOnly_bind readOnly_filterReadable fun _ => readOnly_bind ih fun _ => readOnly_pure _

theorem readOnly_permittedEach {objectId : Option String} (verbs : List (String × Action)) :
    ReadOnly (permittedEach caller td objectId verbs) := by
  induction verbs with
  | nil => exact readOnly_pure _
  | cons v rest ih =>
      refine readOnly_ite ih ?_
      exact readOnly_bind readOnly_requireAction fun _ => readOnly_bind ih fun _ => readOnly_pure _

theorem readOnly_verdictEach {objectId : Option String} (verbs : List (String × Action)) :
    ∀ out, ReadOnly (verdictEach caller td objectId verbs out) := by
  induction verbs with
  | nil => intro out; exact readOnly_pure _
  | cons v rest ih =>
      intro out
      exact readOnly_ite (ih _) (readOnly_bind readOnly_requireAction fun _ => ih _)

theorem readOnly_readableEach {rank : I32} (fields : List FieldDef) :
    ReadOnly (readableEach td rank fields) := by
  induction fields with
  | nil => exact readOnly_pure _
  | cons f rest ih =>
      exact readOnly_bind (readOnly_query _) fun _ => readOnly_bind ih fun _ => readOnly_pure _

theorem readOnly_optionsBody {objectId : Option String} {isItem : Bool} {version : Option I32} :
    ReadOnly (optionsBody td caller objectId isItem version) := by
  have hset : ReadOnly (readableSet caller td objectId) := by
    unfold readableSet
    cases objectId with
    | none => exact readOnly_bind (readOnly_pure _) fun _ => readOnly_readableEach _
    | some x => exact readOnly_bind readOnly_rankOn fun _ => readOnly_readableEach _
  refine readOnly_bind hset fun _ => readOnly_bind (readOnly_permittedEach _) fun _ => ?_
  exact readOnly_bind (readOnly_bind (readOnly_verdictEach _ _) fun _ => readOnly_pure _) fun _ =>
    readOnly_pure _

/-- Everything a collection is asked for starts at the same gate. -/
theorem readOnly_gated {α : Type} {objectId : Option String} {action : Action}
    {p : TypeDef → Handler α} (hp : ∀ td, ReadOnly (p td)) :
    ReadOnly (do
      let td ← resolve st typeId ctx
      let ok ← requireAction caller td objectId action
      ensure ok (deny404 ctx)
      p td) := by
  refine readOnly_bind (readOnly_getOr _ _) fun td => ?_
  refine readOnly_bind readOnly_requireAction fun _ => ?_
  exact readOnly_bind (readOnly_ensure _ _) fun _ => hp td

theorem readOnly_collGet {q : ListParams} : ReadOnly (collGet st ctx caller typeId q) :=
  readOnly_gated fun _ => readOnly_bind readOnly_visibleRows fun _ =>
    readOnly_bind (readOnly_listItems _) fun _ => readOnly_pure _

theorem readOnly_collHead : ReadOnly (collHead st ctx caller typeId) :=
  readOnly_gated fun _ => readOnly_pure _

theorem readOnly_collOptions : ReadOnly (collOptions st ctx caller typeId) :=
  readOnly_gated fun _ => readOnly_bind (readOnly_permittedEach _) fun _ =>
    readOnly_bind readOnly_optionsBody fun _ => readOnly_pure _

/-- And an item is read from its row. -/
theorem readOnly_rowed {α : Type} {p : EntityData → Handler α} (hp : ∀ row, ReadOnly (p row)) :
    ReadOnly (do
      let found ← query fun s => s.row? id typeId
      let row ← getOr found (deny404 ctx)
      p row) :=
  readOnly_bind (readOnly_query _) fun _ => readOnly_bind (readOnly_getOr _ _) hp

theorem readOnly_itemGet {headers : HeaderMap} :
    ReadOnly (itemGet st ctx caller typeId id headers) := by
  refine readOnly_gated fun td => readOnly_rowed fun row => ?_
  exact readOnly_bind readOnly_filterReadable fun _ =>
    readOnly_ite (readOnly_pure _) (readOnly_pure _)

theorem readOnly_itemHead : ReadOnly (itemHead st ctx caller typeId id) :=
  readOnly_gated fun _ => readOnly_rowed fun _ => readOnly_pure _

theorem readOnly_itemOptions : ReadOnly (itemOptions st ctx caller typeId id) :=
  readOnly_gated fun _ => readOnly_rowed fun _ => readOnly_bind (readOnly_permittedEach _)
    fun _ => readOnly_bind readOnly_optionsBody fun _ => readOnly_pure _

theorem readOnly_m405 {isItem : Bool} : ReadOnly (m405 st ctx caller typeId isItem) :=
  readOnly_bind (readOnly_getOr _ _) fun _ => readOnly_bind (readOnly_permittedEach _)
    fun _ => readOnly_throw _

theorem readOnly_listMembers : ReadOnly (listMembers ctx caller typeId id) :=
  readOnly_bind readOnly_ensureObject fun _ => readOnly_bind readOnly_requireRank
    fun _ => readOnly_bind (readOnly_query _) fun _ => readOnly_pure _

theorem readOnly_getType : ReadOnly (getType st ctx typeId) :=
  readOnly_bind (readOnly_getOr _ _) fun _ => readOnly_pure _

theorem readOnly_reachableOf : ReadOnly (reachableOf caller) :=
  readOnly_ite (readOnly_pure _) (readOnly_bind (readOnly_query _) fun _ => readOnly_pure _)

theorem readOnly_listRelations {q : RelationQuery} :
    ReadOnly (listRelations st ctx caller q) := by
  refine readOnly_bind (readOnly_getOr _ _) fun entity => ?_
  refine readOnly_bind readOnly_reachAction fun _ => readOnly_bind (readOnly_ensure _ _) fun _ => ?_
  exact readOnly_bind (readOnly_query _) fun _ => readOnly_bind readOnly_reachableOf fun _ =>
    readOnly_pure _

theorem readOnly_search {ρ : Type} [LinearOrder ρ] {E : FullText ρ} {qp : SearchQ} :
    ReadOnly (search E ctx caller qp) := by
  refine readOnly_bind (readOnly_ensure _ _) fun _ => readOnly_ite ?_ ?_
  · exact readOnly_bind (readOnly_query _) fun _ => readOnly_pure _
  · exact readOnly_bind (readOnly_query _) fun _ => readOnly_bind (readOnly_query _) fun _ =>
      readOnly_pure _

theorem readOnly_getRun : ReadOnly (getRun st ctx caller id) := by
  refine readOnly_bind (readOnly_query _) fun _ => readOnly_bind (readOnly_getOr _ _) fun _ => ?_
  refine readOnly_bind readOnly_requireRunAuthority fun _ => readOnly_bind readOnly_loadRun
    fun _ => ?_
  exact readOnly_bind (readOnly_getOr _ _) fun _ => readOnly_pure _

theorem readOnly_listRuns {caseId : Option String} :
    ReadOnly (listRuns st ctx caller caseId) := by
  unfold listRuns
  cases caseId with
  | none =>
      exact readOnly_bind (readOnly_ensure _ _) fun _ => readOnly_bind (readOnly_query _)
        fun _ => readOnly_pure _
  | some x =>
      exact readOnly_bind readOnly_requireRunAuthority fun _ => readOnly_bind (readOnly_query _)
        fun _ => readOnly_pure _

theorem readOnly_echo {debug : Bool} {headers : List (String × List UInt8)} {body : String} :
    ReadOnly (echo debug ctx caller headers body) :=
  readOnly_bind (readOnly_ensure _ _) fun _ => readOnly_bind (readOnly_ensure _ _) fun _ =>
    readOnly_pure _

end Reads

/-! ### Handlers that write -/

section Writes

variable {st : AppState} {draws : Draws} {ctx : RequestCtx} {caller : Caller} {typeId id : String}
  {headers : HeaderMap} {body : Body}

/-- The audit row of a handler is one of its request. -/
theorem writes_audit {e : Endpoint} (entityId : Option String) (kind : String) (payload : Json) :
    Writes (e.Wrote draws ctx caller)
      (recordEvent ctx caller.actorId entityId kind payload) :=
  writes_executeQuietly (fun _ => .nothing) fun _ _ h => .logged ⟨rfl, rfl, rfl⟩ h

/-- The usual end of a mutation: the statement, the audit row, the answer. -/
theorem writes_tail {α : Type} {e : Endpoint} {q : Stmt α} {entityId : Option String}
    {kind : String} {payload : Json} {p : α → Handler Response}
    (hq : ∀ s a t, q s = .ok (a, t) → e.Wrote draws ctx caller s t)
    (hp : ∀ a, ReadOnly (p a)) :
    Writes (e.Wrote draws ctx caller) (do
      let a ← execute q
      recordEvent ctx caller.actorId entityId kind payload
      p a) :=
  writes_bind (writes_execute (fun _ => .nothing) hq) fun a =>
    writes_bind (writes_audit _ _ _) fun _ => (hp a).writes

theorem writes_collCreate :
    Writes (Endpoint.Wrote draws ctx caller (.collCreate typeId headers body))
      (collCreate st ctx draws.ambient caller typeId headers body) := by
  refine writes_getOr_bind fun td htd => ?_
  refine writes_bind (readOnly_check _).writes fun payload => ?_
  refine writes_bind (readOnly_check _).writes fun _ => ?_
  refine writes_bind (readOnly_check _).writes fun _ => ?_
  refine writes_bind (readOnly_check _).writes fun _ => ?_
  refine writes_bind (readOnly_check _).writes fun _ => ?_
  refine writes_bind readOnly_requireAction.writes fun ok => ?_
  refine writes_bind (readOnly_ensure _ _).writes fun _ => ?_
  exact writes_tail (fun s u t h => .created (TypeDefCache.get_typeId htd) h) fun _ =>
    readOnly_pure _

theorem writes_itemUpdate {v : UpdateVerb} :
    Writes (Endpoint.Wrote draws ctx caller (.itemUpdate v typeId id headers body))
      (itemUpdate v st ctx draws.ambient caller typeId id headers body) := by
  refine writes_bind (readOnly_getOr _ _).writes fun td => ?_
  refine writes_bind readOnly_requireAction.writes fun ok => ?_
  refine writes_bind (readOnly_ensure _ _).writes fun _ => ?_
  refine writes_bind (readOnly_query _).writes fun found => ?_
  refine writes_bind (readOnly_getOr _ _).writes fun row => ?_
  refine writes_bind readOnly_updateChecks.writes fun checked => ?_
  refine writes_bind (writes_execute (fun _ => .nothing) fun s n t h => .updated h) fun n => ?_
  refine writes_bind (readOnly_ensure _ _).writes fun _ => ?_
  refine writes_bind (writes_onlyIf (writes_execute (fun _ => .nothing) fun s u t h => ?_))
    fun _ => ?_
  · exact .mirrored h
  · exact writes_bind (writes_audit _ _ _) fun _ => (readOnly_pure _).writes

theorem writes_itemDelete :
    Writes (Endpoint.Wrote draws ctx caller (.itemDelete typeId id headers))
      (itemDelete st ctx caller typeId id headers) := by
  refine writes_bind (readOnly_getOr _ _).writes fun td => ?_
  refine writes_bind readOnly_requireAction.writes fun ok => ?_
  refine writes_bind (readOnly_ensure _ _).writes fun _ => ?_
  refine writes_bind (readOnly_query _).writes fun found => ?_
  refine writes_bind (readOnly_ensure _ _).writes fun _ => ?_
  refine writes_bind (readOnly_check _).writes fun expected => ?_
  refine writes_bind (writes_execute (fun _ => .nothing) fun s n t h => .deleted h) fun n => ?_
  refine writes_bind (readOnly_ensure _ _).writes fun _ => ?_
  exact writes_bind (writes_audit _ _ _) fun _ => (readOnly_pure _).writes

theorem writes_addMember :
    Writes (Endpoint.Wrote draws ctx caller (.addMember typeId id headers body))
      (addMember ctx caller typeId id headers body) :=
  addMember_writes (fun _ => .nothing) writes_audit fun _ _ _ _ _ _ h => .granted h

theorem writes_setMember {m : String} :
    Writes (Endpoint.Wrote draws ctx caller (.setMember typeId id m headers body))
      (setMember ctx caller typeId id m headers body) :=
  setMember_writes (fun _ => .nothing) writes_audit fun _ _ _ _ _ _ _ _ h => .regraded h

theorem writes_removeMember {m : String} :
    Writes (Endpoint.Wrote draws ctx caller (.removeMember typeId id m))
      (removeMember ctx caller typeId id m) :=
  removeMember_writes (fun _ => .nothing) writes_audit fun _ _ _ h => .revoked h

theorem writes_check {name : String} :
    Writes (Endpoint.Wrote draws ctx caller (.recordCheck typeId id name headers body))
      (recordCheck ctx caller typeId id name headers body) := by
  simp only [recordCheck]
  refine writes_bind (readOnly_ensure _ _).writes fun _ => ?_
  refine writes_bind readOnly_ensureObject.writes fun _ => ?_
  refine writes_bind readOnly_requireRank.writes fun _ => ?_
  refine writes_bind (readOnly_check _).writes fun v => ?_
  exact writes_tail (fun s u t h => .checked h) fun _ => readOnly_pure _

theorem writes_createRelation {rel : Except String RelInput} :
    Writes (Endpoint.Wrote draws ctx caller (.createRelation rel))
      (createRelation st ctx draws.ambient caller rel) := by
  refine writes_check_bind fun input hinput => ?_
  obtain rfl : rel = .ok input := mapError_ok hinput
  refine writes_ensure_bind fun hknown => ?_
  refine writes_ensure_bind fun hapart => ?_
  refine writes_bind readOnly_reachesBoth.writes fun ok => ?_
  refine writes_bind (readOnly_ensure _ _).writes fun _ => ?_
  refine writes_tail (fun s u t h => .related ?_ ?_ h) fun _ => ?_
  · simpa using hknown
  · simpa using hapart
  · exact readOnly_bind (readOnly_query _) fun _ => readOnly_bind (readOnly_getOr _ _)
      fun _ => readOnly_pure _

theorem writes_deleteRelation :
    Writes (Endpoint.Wrote draws ctx caller (.deleteRelation id))
      (deleteRelation st ctx caller id) := by
  refine writes_bind (readOnly_query _).writes fun _ => ?_
  refine writes_bind (readOnly_getOr _ _).writes fun subject => ?_
  refine writes_bind readOnly_reachAction.writes fun ok => ?_
  refine writes_bind (readOnly_ensure _ _).writes fun _ => ?_
  exact writes_tail (fun s u t h => .unrelated h) fun _ => readOnly_pure _

theorem writes_startRun {run : Except String StartInput} :
    Writes (Endpoint.Wrote draws ctx caller (.startRun run))
      (startRun st ctx draws.ambient caller run) := by
  refine writes_check_bind fun input hinput => ?_
  obtain rfl : run = .ok input := mapError_ok hinput
  refine writes_bind readOnly_requireRunAuthority.writes fun _ => ?_
  exact writes_tail (fun s u t h => .started h) fun _ => readOnly_bind readOnly_loadRun
    fun _ => readOnly_pure _

theorem writes_recordHandoff {input : Except String HandoffInput} :
    Writes (Endpoint.Wrote draws ctx caller (.recordHandoff id input))
      (recordHandoff st ctx draws.ambient caller id input) := by
  refine writes_bind (readOnly_check _).writes fun i => ?_
  refine writes_bind (readOnly_ensure _ _).writes fun _ => ?_
  refine writes_bind (readOnly_query _).writes fun _ => ?_
  refine writes_bind (readOnly_getOr _ _).writes fun r => ?_
  refine writes_bind readOnly_requireRunAuthority.writes fun _ => ?_
  refine writes_bind (readOnly_ensure _ _).writes fun _ => ?_
  refine writes_bind (readOnly_ensure _ _).writes fun _ => ?_
  refine writes_bind (readOnly_query _).writes fun _ => ?_
  refine writes_bind readOnly_countRetries.writes fun _ => ?_
  refine writes_bind (writes_execute (fun _ => .nothing) fun s u t h => .handed ?_ h) fun _ => ?_
  · rfl
  · exact writes_tail (fun s u t h => .moved h) fun _ => readOnly_bind readOnly_loadRun
      fun _ => readOnly_pure _

theorem writes_runConnector {fetch : String → Except AppError Json} :
    Writes (Endpoint.Wrote draws ctx caller (.runConnector id))
      (runConnector st ctx draws.ambient caller fetch id) := by
  refine writes_bind (readOnly_query _).writes fun _ => ?_
  refine writes_bind (readOnly_getOr _ _).writes fun row => ?_
  refine writes_bind readOnly_reachAction.writes fun _ => ?_
  refine writes_bind (readOnly_ensure _ _).writes fun _ => ?_
  refine writes_bind (readOnly_ensure _ _).writes fun _ => ?_
  refine writes_bind (readOnly_ensure _ _).writes fun _ => ?_
  cases fetch ((row.data.str? "target").getD "") with
  | error e =>
      exact writes_bind (writes_stampRunQuietly (fun _ => .nothing) fun s v t h =>
        .stamped (by decide) h) fun _ => (readOnly_throw _).writes
  | ok result => exact writes_tail (fun s v t h => .stamped (by decide) h) fun _ => readOnly_pure _

/-- A change of the log filter is only logged. -/
theorem writes_setLogLevel {e : Endpoint} {reload : Option (String → Bool)}
    {level : Except String String} :
    Writes (e.Wrote draws ctx caller) (setLogLevel reload ctx caller level) := by
  refine writes_bind (readOnly_ensure _ _).writes fun _ => ?_
  refine writes_bind (readOnly_check _).writes fun l => ?_
  refine writes_bind (readOnly_getOr _ _).writes fun _ => ?_
  refine writes_bind (readOnly_ensure _ _).writes fun _ => ?_
  exact writes_bind (writes_audit _ _ _) fun _ => (readOnly_pure _).writes

end Writes

/-! ### Every endpoint -/

section Endpoints

variable {draws : Draws} {ctx : RequestCtx} {caller : Caller} {e : Endpoint}

/-- A handler's statements are the service's. -/
theorem writes_handle {α : Type} {h : AppState → Handler α}
    (hh : ∀ st, Writes (e.Wrote draws ctx caller) (h st)) :
    Writes (e.Changed draws ctx caller) (Service.handle h) := by
  refine writes_bind (readOnly_query _).writes fun st => ?_
  refine (writes_zoom (z := Service.database) (hh st)).weaken ?_
  rintro σ σ' ⟨s, hs, rfl⟩
  exact .database hs

/-- A statement of the process itself. -/
theorem writes_serviceExecute {α : Type} {q : Stmt α}
    (hq : ∀ s a t, q s = .ok (a, t) → e.Wrote draws ctx caller s t) :
    Writes (e.Changed draws ctx caller) (Service.execute q) := by
  refine writes_attempt fun σ => ?_
  cases h : q σ.store with
  | error x => simpa [settle, h] using .database .nothing
  | ok r => simpa [settle, h] using .database (hq _ _ _ h)

theorem writes_serviceExecuteQuietly {q : Stmt Unit}
    (hq : ∀ s t, q s = .ok ((), t) → e.Wrote draws ctx caller s t) :
    Writes (e.Changed draws ctx caller) (Service.executeQuietly q) := by
  refine writes_attempt fun σ => ?_
  cases h : q σ.store with
  | error x => simpa [settle, h] using .database .nothing
  | ok r => simpa [settle, h] using .database (hq _ _ h)

theorem readOnly_handle {α : Type} {h : AppState → Handler α} (hh : ∀ st, ReadOnly (h st)) :
    ReadOnly (Service.handle h) :=
  readOnly_bind (readOnly_query _) fun st => readOnly_zoom (hh st)

/-- The statements of a registration are the type's rows and the audit row. -/
theorem writes_createType {display : Json → String} {spec : Except String TypeSpec} :
    Writes (Endpoint.Changed draws ctx caller (.createType spec))
      (createType display ctx caller spec) := by
  refine writes_bind (readOnly_ensure _ _).writes fun _ => ?_
  refine writes_check_bind fun input hinput => ?_
  obtain rfl : spec = .ok input := mapError_ok hinput
  refine writes_bind (readOnly_query _).writes fun _ => ?_
  refine writes_bind (readOnly_check _).writes fun _ => ?_
  refine writes_bind (writes_serviceExecute fun s u t h => .registered h) fun _ => ?_
  refine writes_bind (readOnly_query _).writes fun fresh => ?_
  refine writes_bind (writes_attempt fun σ => .published) fun _ => ?_
  exact writes_bind (writes_serviceExecuteQuietly fun s t h => .logged ⟨rfl, rfl, rfl⟩ h)
    fun _ => (readOnly_pure _).writes

/--
**What the endpoints write.**  Every write of an endpoint, whatever it read and whatever
happened since, is one of its statements.
-/
theorem writes_endpoint {ρ : Type} [LinearOrder ρ] (D : Deployment ρ) (req : Incoming) :
    Writes (e.Changed req.draws ctx caller) (Server.endpoint D req ctx caller e) := by
  cases e with
  | collGet => exact (readOnly_handle fun _ => readOnly_collGet).writes
  | collHead => exact (readOnly_handle fun _ => readOnly_collHead).writes
  | collCreate => exact writes_handle fun _ => writes_collCreate
  | collOptions => exact (readOnly_handle fun _ => readOnly_collOptions).writes
  | m405Coll => exact (readOnly_handle fun _ => readOnly_m405).writes
  | itemGet => exact (readOnly_handle fun _ => readOnly_itemGet).writes
  | itemHead => exact (readOnly_handle fun _ => readOnly_itemHead).writes
  | itemUpdate => exact writes_handle fun _ => writes_itemUpdate
  | itemDelete => exact writes_handle fun _ => writes_itemDelete
  | itemOptions => exact (readOnly_handle fun _ => readOnly_itemOptions).writes
  | m405Item => exact (readOnly_handle fun _ => readOnly_m405).writes
  | listMembers => exact (readOnly_handle fun _ => readOnly_listMembers).writes
  | addMember => exact writes_handle fun _ => writes_addMember
  | setMember => exact writes_handle fun _ => writes_setMember
  | removeMember => exact writes_handle fun _ => writes_removeMember
  | recordCheck => exact writes_handle fun _ => writes_check
  | listTypes => exact (readOnly_handle fun _ => readOnly_pure _).writes
  | getType => exact (readOnly_handle fun _ => readOnly_getType).writes
  | createType => exact writes_createType
  | createRelation => exact writes_handle fun _ => writes_createRelation
  | listRelations => exact (readOnly_handle fun _ => readOnly_listRelations).writes
  | deleteRelation => exact writes_handle fun _ => writes_deleteRelation
  | search => exact (readOnly_handle fun _ => readOnly_search).writes
  | startRun => exact writes_handle fun _ => writes_startRun
  | listRuns => exact (readOnly_handle fun _ => readOnly_listRuns).writes
  | getRun => exact (readOnly_handle fun _ => readOnly_getRun).writes
  | recordHandoff => exact writes_handle fun _ => writes_recordHandoff
  | runConnector => exact writes_handle fun _ => writes_runConnector
  | echo => exact (readOnly_handle fun _ => readOnly_echo).writes
  | setLogLevel => exact writes_handle fun _ => writes_setLogLevel

end Endpoints

end Numu
