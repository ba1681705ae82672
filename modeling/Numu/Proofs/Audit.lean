/-
The audit log.

Every mutation ends by recording an event with the id of its request, and nothing
after that can fail, so a success is one more row and an error none.  The row names
an entity, which has to exist when the row is inserted: the one just made, the one
that was read, or the one whose gate was passed.  A failure to insert it is
swallowed.

A delete names the entity that it has just removed, so its row is never inserted.
-/
import Numu.Proofs.Options
import Numu.Proofs.Pipeline

namespace Numu

open Fallible Handler

/-- The number of events with this request id. -/
def Store.logged (s : Store) (requestId : String) : Nat :=
  (s.events.filter fun e => e.requestId = requestId).length

/-- Alone the handler logs its request once, or fails and logs nothing. -/
abbrev LogsOnce {α : Type} (ctx : RequestCtx) (p : Handler α) (s : Store) : Prop :=
  Tallies (fun t => t.logged ctx.requestId) p s

section Rules

variable {α β : Type} {ctx : RequestCtx} {s : Store}

theorem logsOnce_execute_bind {q : Stmt α} {f : α → Handler β}
    (hq : ∀ a t, q s = .ok (a, t) → t.events = s.events ∧ LogsOnce ctx (f a) t) :
    LogsOnce ctx (execute q >>= f) s := by
  refine tallies_attempt_bind fun a t h => ?_
  obtain ⟨hevents, hrest⟩ := hq a t (exec_execute_ok.mp (exec_attempt_ok.mpr h))
  refine ⟨?_, hrest⟩
  unfold Store.logged
  rw [hevents]

/-- The event is inserted when it names an entity that exists. -/
theorem logsOnce_recordEvent {actorId kind : String} {entityId : Option String} {payload : Json}
    {p : Handler β} (href : s.refOk entityId = true)
    (hp : ∀ evs, ∃ b, exec p { s with events := evs } = (.ok b, { s with events := evs })) :
    LogsOnce ctx (recordEvent ctx actorId entityId kind payload >>= fun _ => p) s := by
  have hinsert : ∀ e : EventRow, s.refOk e.entityId = true →
      insertEvent e s = .ok ((), { s with events := s.events ++ [e] }) := by
    intro e he
    unfold insertEvent
    rw [if_pos he]
  refine tallies_counted (a := ()) (t := { s with events := s.events ++ [
    { entityId := entityId, actorId := actorId, kind := kind, payload := payload,
      requestId := ctx.requestId, traceId := ctx.traceId }] }) ?_ ?_ (hp _)
  · rw [hinsert _ href]
  · simp [Store.logged]

end Rules

theorem Store.refOk_some {s : Store} {id : String} :
    s.refOk (some id) = true ↔ s.entities.has id = true := Iff.rfl

/-- An entity that a row belongs to exists. -/
theorem Store.Valid.entity_of_row {s : Store} (hs : s.Valid) {id typeId : String} {row : EntityData}
    (hrow : s.row? id typeId = some row) : s.entities.has id = true := by
  have hmem := Table.mem_of_find? (Store.row?_eq_some.mp hrow).1
  rw [← Store.row?_entityId hrow]
  exact hs.dataEntity row hmem

/-- An entity whose gate was passed exists. -/
theorem entity_of_reached {st : AppState} {caller : Caller} {id : String} {action : Action}
    {s : Store} (h : exec (reachAction st caller id action) s = (.ok true, s)) :
    s.entities.has id = true := by
  unfold reachAction at h
  rw [exec_bind, exec_query] at h
  cases hfind : s.entities.find? id with
  | none =>
      have hnone : s.typeOf id = none := by
        unfold Store.typeOf
        rw [hfind]
        rfl
      simp only [hnone, Option.bind_none, exec_pure] at h
      simp at h
  | some e => exact Table.has_iff.mpr ⟨e, Table.mem_of_find? hfind, Table.find?_key hfind⟩

/-! ### Objects -/

section Objects

variable {st : AppState} {ctx : RequestCtx} {env : Ambient} {caller : Caller} {typeId id : String}
  {headers : HeaderMap} {body : Body} {s : Store}

theorem logsOnce_collCreate :
    LogsOnce ctx (collCreate st ctx env caller typeId headers body) s := by
  simp only [collCreate]
  refine tallies_getOr_bind fun td _ => ?_
  refine tallies_check_bind fun payload _ => ?_
  refine tallies_check_bind fun _ _ => ?_
  refine tallies_check_bind fun _ _ => ?_
  refine tallies_check_bind fun _ _ => ?_
  refine tallies_check_bind fun _ _ => ?_
  refine tallies_readOnly_bind readOnly_requireAction fun ok _ => ?_
  refine tallies_ensure_bind fun _ => ?_
  refine logsOnce_execute_bind fun u t htx => ?_
  obtain ⟨ents, rows, e, cases, hents, -, -, -, -, -, -, -, -, -, rfl⟩ := createTx_ok htx
  refine ⟨rfl, logsOnce_recordEvent ?_ fun _ => ⟨_, rfl⟩⟩
  exact Store.refOk_some.mpr ((Table.has_insert hents).mpr (Or.inr rfl))

theorem logsOnce_updateWrites {v : UpdateVerb} {td : TypeDef} {data : Json} {expected : I32}
    (hid : s.entities.has id = true) :
    LogsOnce ctx (updateWrites v ctx env caller td typeId id data expected) s := by
  unfold updateWrites
  refine logsOnce_execute_bind fun n t hq => ?_
  obtain ⟨hevents, hents⟩ : t.events = s.events ∧ t.entities = s.entities := by
    rcases updateEntityData_ok hq with ⟨-, rfl, -⟩ | ⟨-, row, ver, -, -, -, -, rfl⟩
    · exact ⟨rfl, rfl⟩
    · exact ⟨rfl, rfl⟩
  refine ⟨hevents, tallies_ensure_bind fun _ => ?_⟩
  have hrecord : ∀ u : Store, u.entities = s.entities → ∀ resp : Response, LogsOnce ctx (do
      recordEvent ctx caller.actorId (some id) (typeId ++ v.eventSuffix) data
      pure resp) u := by
    intro u hu resp
    refine logsOnce_recordEvent ?_ fun _ => ⟨_, rfl⟩
    rw [Store.refOk_some, hu]
    exact hid
  by_cases hcase : td.typeId = "case"
  · rw [onlyIf, if_pos hcase]
    refine logsOnce_execute_bind fun _ u hu => ?_
    obtain ⟨-, rfl⟩ := upsertCase_ok hu
    refine ⟨rfl, hrecord _ ?_ _⟩
    exact hents
  · rw [onlyIf, if_neg hcase]
    exact hrecord t hents _

theorem logsOnce_itemUpdate {v : UpdateVerb} (hs : s.Valid) :
    LogsOnce ctx (itemUpdate v st ctx env caller typeId id headers body) s := by
  refine tallies_getOr_bind fun td _ => ?_
  refine tallies_readOnly_bind readOnly_requireAction fun ok _ => ?_
  refine tallies_ensure_bind fun _ => ?_
  refine tallies_query_bind ?_
  refine tallies_getOr_bind fun row hrow => ?_
  refine tallies_readOnly_bind readOnly_updateChecks fun checked _ => ?_
  exact logsOnce_updateWrites (hs.entity_of_row hrow)

/-- A delete that is let through and names the version of the entity. -/
def Store.Accepts (s : Store) (st : AppState) (caller : Caller) (typeId id : String)
    (headers : HeaderMap) : Prop :=
  ∃ td row, TypeDefCache.get st.registry typeId = some td ∧
    s.admits caller td (some id) .delete = true ∧ s.row? id typeId = some row ∧
    (ifMatch headers).join = some row.version

/-- A delete that is not accepted fails and logs nothing. -/
theorem logsOnce_refusedDelete (h : ¬ s.Accepts st caller typeId id headers) :
    LogsOnce ctx (itemDelete st ctx caller typeId id headers) s := by
  unfold itemDelete
  refine tallies_getOr_bind fun td htd => ?_
  refine tallies_readOnly_bind readOnly_requireAction fun ok hok => ?_
  refine tallies_ensure_bind fun hadmitted => ?_
  refine tallies_query_bind ?_
  refine tallies_ensure_bind fun hsome => ?_
  refine tallies_check_bind fun expected hexpected => ?_
  refine logsOnce_execute_bind fun n t hq => ?_
  obtain ⟨row, hrow⟩ := Option.isSome_iff_exists.mp hsome
  rcases deleteEntity_ok hq with ⟨rfl, rfl⟩ | ⟨-, ⟨row', hrow', hver⟩, -⟩
  · exact ⟨rfl, tallies_ensure_bind fun hn => by simp at hn⟩
  · refine absurd ⟨td, row', htd, ?_, hrow', ?_⟩ h
    · rw [exec_requireAction, hadmitted] at hok
      exact Except.ok.inj (congrArg Prod.fst hok)
    · rw [hver]
      exact ifMatch_of_require hexpected

/-- The event of an entity that is not there is dropped. -/
theorem exec_recordEvent_dropped {actorId kind : String} {payload : Json}
    (hid : s.entities.has id = false) :
    exec (recordEvent ctx actorId (some id) kind payload) s = (.ok (), s) := by
  refine exec_attempt_ok.mpr ?_
  have href : s.refOk (some id) = false := hid
  simp [insertEvent, href]

/-- An accepted delete succeeds, and its event names an entity that is gone. -/
theorem exec_acceptedDelete (hs : s.Valid) (h : s.Accepts st caller typeId id headers) :
    exec (itemDelete st ctx caller typeId id headers) s =
      (.ok { status := 204 }, cascadeDelete s id) := by
  obtain ⟨td, row, htd, hadmitted, hrow, hversion⟩ := h
  have hmatch : requireIfMatch headers ctx = .ok row.version := by
    unfold requireIfMatch
    rw [Option.join_eq_some_iff.mp hversion]
  have hdelete : exec (execute (deleteEntity id typeId row.version)) s =
      (.ok 1, cascadeDelete s id) := by
    refine exec_execute_ok.mpr ?_
    unfold deleteEntity
    simp only [hrow]
    rw [if_pos (by simp [hs.entity_of_row hrow])]
  have hgone : (cascadeDelete s id).entities.has id = false := by
    rw [← Bool.not_eq_true, Store.has_deleted]
    exact fun hhas => hhas.2 rfl
  unfold itemDelete
  rw [exec_gated htd, if_pos hadmitted, exec_bind, exec_query, hrow]
  show exec (check (requireIfMatch headers ctx) >>= _) s = _
  rw [hmatch]
  show exec (execute (deleteEntity id typeId row.version) >>= _) s = _
  rw [exec_bind, hdelete]
  show exec (recordEvent ctx caller.actorId (some id) (typeId ++ ".deleted") (.obj []) >>= _)
    (cascadeDelete s id) = _
  rw [exec_bind, exec_recordEvent_dropped hgone]
  rfl

/-- A delete forgets whose the events were, and keeps them. -/
theorem logged_cascadeDelete (s : Store) (id requestId : String) :
    (cascadeDelete s id).logged requestId = s.logged requestId := by
  have hid : ∀ e : EventRow,
      (if e.entityId = some id then { e with entityId := none } else e).requestId = e.requestId := by
    intro e
    split
    · rfl
    · rfl
  unfold Store.logged
  show ((s.events.map _).filter _).length = _
  rw [List.filter_map, List.length_map]
  simp only [Function.comp_def, hid]

end Objects

/-! ### Rosters and checks -/

section Members

variable {ctx : RequestCtx} {caller : Caller} {typeId id : String} {headers : HeaderMap}
  {body : Body} {s : Store}

theorem entity_of_ensured (hs : s.Valid) {u : Unit}
    (h : exec (ensureObject id typeId ctx) s = (.ok u, s)) : s.entities.has id = true := by
  obtain ⟨found, t, hfound, hensure⟩ := exec_bind_ok.mp h
  simp only [exec_query, Prod.mk.injEq, Except.ok.injEq] at hfound
  obtain ⟨rfl, rfl⟩ := hfound
  obtain ⟨row, hrow⟩ := Option.isSome_iff_exists.mp (exec_ensure_ok.mp hensure).1
  exact hs.entity_of_row hrow

theorem logsOnce_addMember (hs : s.Valid) :
    LogsOnce ctx (addMember ctx caller typeId id headers body) s := by
  simp only [addMember]
  refine tallies_readOnly_bind readOnly_ensureObject fun _ hfound => ?_
  refine tallies_readOnly_bind readOnly_requireRank fun _ _ => ?_
  refine tallies_check_bind fun v _ => ?_
  refine tallies_check_bind fun memberId _ => ?_
  refine tallies_check_bind fun role _ => ?_
  refine tallies_readOnly_bind readOnly_requireGrantable fun _ _ => ?_
  refine tallies_query_bind ?_
  refine tallies_ensure_bind fun _ => ?_
  refine logsOnce_execute_bind fun u t hq => ?_
  have hid := entity_of_ensured hs hfound
  obtain ⟨e, -, -, -, -, rfl⟩ := upsertMembership_ok hq
  exact ⟨rfl, logsOnce_recordEvent hid fun _ => ⟨_, rfl⟩⟩

theorem logsOnce_setMember {memberId : String} (hs : s.Valid) :
    LogsOnce ctx (setMember ctx caller typeId id memberId headers body) s := by
  simp only [setMember]
  refine tallies_readOnly_bind readOnly_ensureObject fun _ hfound => ?_
  refine tallies_readOnly_bind readOnly_requireRank fun _ _ => ?_
  refine tallies_check_bind fun v _ => ?_
  refine tallies_check_bind fun role _ => ?_
  refine tallies_readOnly_bind readOnly_requireGrantable fun _ _ => ?_
  refine tallies_query_bind ?_
  refine tallies_getOr_bind fun current _ => ?_
  refine tallies_readOnly_bind (readOnly_onlyIf readOnly_requireAnotherOwner) fun _ _ => ?_
  refine logsOnce_execute_bind fun u t hq => ?_
  have hid := entity_of_ensured hs hfound
  rcases updateMembership_ok hq with ⟨-, rfl⟩ | ⟨e, -, -, -, -, rfl⟩
  · exact ⟨rfl, logsOnce_recordEvent hid fun _ => ⟨_, rfl⟩⟩
  · exact ⟨rfl, logsOnce_recordEvent hid fun _ => ⟨_, rfl⟩⟩

theorem logsOnce_removeMember {memberId : String} (hs : s.Valid) :
    LogsOnce ctx (removeMember ctx caller typeId id memberId) s := by
  unfold removeMember
  refine tallies_readOnly_bind readOnly_ensureObject fun _ hfound => ?_
  refine tallies_query_bind ?_
  refine tallies_getOr_bind fun current _ => ?_
  refine tallies_readOnly_bind (readOnly_onlyIf
    (readOnly_bind readOnly_requireRank fun _ => readOnly_pure _)) fun _ _ => ?_
  refine tallies_readOnly_bind (readOnly_onlyIf readOnly_requireAnotherOwner) fun _ _ => ?_
  refine logsOnce_execute_bind fun u t hq => ?_
  have hid := entity_of_ensured hs hfound
  obtain ⟨-, rfl⟩ := Prod.mk.inj (Except.ok.inj hq)
  exact ⟨rfl, logsOnce_recordEvent hid fun _ => ⟨_, rfl⟩⟩

theorem logsOnce_recordCheck {name : String} (hs : s.Valid) :
    LogsOnce ctx (recordCheck ctx caller typeId id name headers body) s := by
  simp only [recordCheck]
  refine tallies_ensure_bind fun _ => ?_
  refine tallies_readOnly_bind readOnly_ensureObject fun _ hfound => ?_
  refine tallies_readOnly_bind readOnly_requireRank fun _ _ => ?_
  refine tallies_check_bind fun v _ => ?_
  refine logsOnce_execute_bind fun u t hq => ?_
  have hid := entity_of_ensured hs hfound
  unfold upsertCloseCheck at hq
  split at hq
  · obtain ⟨-, rfl⟩ := Prod.mk.inj (Except.ok.inj hq)
    exact ⟨rfl, logsOnce_recordEvent hid fun _ => ⟨_, rfl⟩⟩
  · simp at hq

end Members

/-! ### Relations -/

section Relations

variable {st : AppState} {ctx : RequestCtx} {env : Ambient} {caller : Caller} {s : Store}

theorem readOnly_reachesBoth {subjectId objectId : String} :
    ReadOnly (reachesBoth st caller subjectId objectId) := by
  refine readOnly_bind readOnly_reachAction fun edit => ?_
  exact readOnly_ite readOnly_reachAction (readOnly_pure _)

theorem subject_of_reached {subjectId objectId : String}
    (h : exec (reachesBoth st caller subjectId objectId) s = (.ok true, s)) :
    s.entities.has subjectId = true := by
  unfold reachesBoth at h
  obtain ⟨edit, t, hedit, h⟩ := exec_bind_ok.mp h
  obtain rfl := exec_snd_of_readOnly readOnly_reachAction hedit
  cases edit with
  | true => exact entity_of_reached hedit
  | false => simp at h

theorem insertRelation_ok {r : RelationRow} {u : Unit} {t : Store}
    (h : insertRelation r s = .ok (u, t)) :
    ∃ rows, s.relations.insert r = some rows ∧ t = { s with relations := rows } := by
  unfold insertRelation at h
  split at h
  · cases h
  · rename_i rows hrows
    split at h
    · cases h
    · split at h
      · obtain ⟨-, rfl⟩ := Prod.mk.inj (Except.ok.inj h)
        exact ⟨rows, hrows, rfl⟩
      · cases h

theorem logsOnce_createRelation {body : Except String RelInput} :
    LogsOnce ctx (createRelation st ctx env caller body) s := by
  simp only [createRelation]
  refine tallies_check_bind fun input _ => ?_
  refine tallies_ensure_bind fun _ => ?_
  refine tallies_ensure_bind fun _ => ?_
  refine tallies_readOnly_bind readOnly_reachesBoth fun ok hok => ?_
  refine tallies_ensure_bind fun hreached => ?_
  refine logsOnce_execute_bind fun u t hq => ?_
  have hsubject := subject_of_reached (hreached ▸ hok)
  obtain ⟨rows, hrows, rfl⟩ := insertRelation_ok hq
  refine ⟨rfl, logsOnce_recordEvent hsubject fun evs => ?_⟩
  -- The row that was inserted is read back.
  have hfind := (Table.find?_insert hrows ("REL_" ++ env.uuid)).trans (if_pos rfl)
  rw [exec_bind, exec_query]
  show ∃ b, exec (getOr (rows.find? ("REL_" ++ env.uuid)) _ >>= _) _ = (.ok b, _)
  rw [hfind]
  exact ⟨_, rfl⟩

theorem logsOnce_deleteRelation {id : String} :
    LogsOnce ctx (deleteRelation st ctx caller id) s := by
  unfold deleteRelation
  refine tallies_query_bind ?_
  refine tallies_getOr_bind fun subject _ => ?_
  refine tallies_readOnly_bind readOnly_reachAction fun ok hok => ?_
  refine tallies_ensure_bind fun hreached => ?_
  refine logsOnce_execute_bind fun u t hq => ?_
  have hsubject := entity_of_reached (hreached ▸ hok)
  obtain ⟨-, rfl⟩ := Prod.mk.inj (Except.ok.inj hq)
  exact ⟨rfl, logsOnce_recordEvent hsubject fun _ => ⟨_, rfl⟩⟩

end Relations

/-! ### Runs -/

section Runs

variable {st : AppState} {ctx : RequestCtx} {env : Ambient} {caller : Caller} {s : Store}

theorem case_of_authority {caseId : Option String} {action : Action} {u : Unit}
    (h : exec (requireRunAuthority st caller caseId action ctx) s = (.ok u, s)) :
    s.refOk caseId = true := by
  cases caseId with
  | none => rfl
  | some id =>
      obtain ⟨ok, t, hok, hensure⟩ := exec_bind_ok.mp h
      obtain rfl := exec_snd_of_readOnly readOnly_reachAction hok
      exact entity_of_reached ((exec_ensure_ok.mp hensure).1 ▸ hok)

theorem exec_loadRun_bind {id : String} {resp : Option Json → Response} (s : Store) :
    ∃ b, exec (loadRun id >>= fun run => pure (resp run) : Handler Response) s = (.ok b, s) := by
  unfold loadRun
  rw [exec_bind, exec_bind, exec_query]
  cases s.featureRuns.find? id with
  | none => exact ⟨_, rfl⟩
  | some r => exact ⟨_, rfl⟩

theorem logsOnce_startRun {body : Except String StartInput} :
    LogsOnce ctx (startRun st ctx env caller body) s := by
  simp only [startRun]
  refine tallies_check_bind fun input _ => ?_
  refine tallies_readOnly_bind readOnly_requireRunAuthority fun _ hgate => ?_
  refine logsOnce_execute_bind fun u t hq => ?_
  have hcase := case_of_authority hgate
  unfold insertFeatureRun at hq
  split at hq
  · cases hq
  · split at hq
    · obtain ⟨-, rfl⟩ := Prod.mk.inj (Except.ok.inj hq)
      exact ⟨rfl, logsOnce_recordEvent hcase fun _ => exec_loadRun_bind _⟩
    · cases hq

theorem logsOnce_recordHandoff {id : String} {body : Except String HandoffInput} :
    LogsOnce ctx (recordHandoff st ctx env caller id body) s := by
  simp only [recordHandoff]
  refine tallies_check_bind fun input _ => ?_
  refine tallies_ensure_bind fun _ => ?_
  refine tallies_query_bind ?_
  refine tallies_getOr_bind fun run _ => ?_
  refine tallies_readOnly_bind readOnly_requireRunAuthority fun _ hgate => ?_
  refine tallies_ensure_bind fun _ => ?_
  refine tallies_ensure_bind fun _ => ?_
  refine tallies_query_bind ?_
  refine tallies_readOnly_bind readOnly_countRetries fun retries _ => ?_
  have hcase := case_of_authority hgate
  unfold handoffWrites
  refine logsOnce_execute_bind fun u t hq => ?_
  obtain ⟨-, rfl⟩ := insertHandoff_ok hq
  refine ⟨rfl, logsOnce_execute_bind fun u t hq => ?_⟩
  obtain ⟨-, rfl⟩ := Prod.mk.inj (Except.ok.inj hq)
  exact ⟨rfl, logsOnce_recordEvent hcase fun _ => exec_loadRun_bind _⟩

end Runs

/-! ### Types -/

/-- A registration names no entity. -/
theorem tallies_createType {display : Json → String} {ctx : RequestCtx} {caller : Caller}
    {body : Except String TypeSpec} {σ : Service} :
    Tallies (fun τ : Service => τ.store.logged ctx.requestId) (createType display ctx caller body)
      σ := by
  unfold createType
  refine tallies_ensure_bind fun _ => ?_
  refine tallies_check_bind fun spec _ => ?_
  refine tallies_query_bind ?_
  refine tallies_check_bind fun _ _ => ?_
  refine tallies_attempt_bind fun u τ hq => ?_
  obtain ⟨t, ht, rfl⟩ := Service.exec_execute_ok.mp (exec_attempt_ok.mpr hq)
  obtain ⟨hnodup, types, -, rfl⟩ := registerTx_ok ht
  refine ⟨rfl, tallies_query_bind ?_⟩
  refine tallies_attempt_bind fun _ υ hpublish => ?_
  obtain ⟨-, rfl⟩ := Prod.mk.inj (Except.ok.inj hpublish)
  refine ⟨rfl, tallies_counted rfl ?_ ⟨_, rfl⟩⟩
  simp [Store.logged]

/-! ### Every mutation -/

/-- The requests that mutate something. -/
inductive Mutation where
  | create (ctx : RequestCtx) (env : Ambient) (caller : Caller) (typeId : String)
      (headers : HeaderMap) (body : Body)
  | put (ctx : RequestCtx) (env : Ambient) (caller : Caller) (typeId id : String)
      (headers : HeaderMap) (body : Body)
  | patch (ctx : RequestCtx) (env : Ambient) (caller : Caller) (typeId id : String)
      (headers : HeaderMap) (body : Body)
  | delete (ctx : RequestCtx) (caller : Caller) (typeId id : String) (headers : HeaderMap)
  | addMember (ctx : RequestCtx) (caller : Caller) (typeId id : String) (headers : HeaderMap)
      (body : Body)
  | setMember (ctx : RequestCtx) (caller : Caller) (typeId id memberId : String)
      (headers : HeaderMap) (body : Body)
  | removeMember (ctx : RequestCtx) (caller : Caller) (typeId id memberId : String)
  | recordCheck (ctx : RequestCtx) (caller : Caller) (typeId id name : String)
      (headers : HeaderMap) (body : Body)
  | createRelation (ctx : RequestCtx) (env : Ambient) (caller : Caller)
      (body : Except String RelInput)
  | deleteRelation (ctx : RequestCtx) (caller : Caller) (id : String)
  | startRun (ctx : RequestCtx) (env : Ambient) (caller : Caller) (body : Except String StartInput)
  | recordHandoff (ctx : RequestCtx) (env : Ambient) (caller : Caller) (id : String)
      (body : Except String HandoffInput)
  | createType (display : Json → String) (ctx : RequestCtx) (caller : Caller)
      (body : Except String TypeSpec)

/-- The answer of a handler on the database of the service, and the service after it. -/
def Service.answer (σ : Service) (h : Handler Response) : Except AppError Response × Service :=
  ((exec h σ.store).1, σ.after h)

namespace Mutation

/-- What the request answers, and the service it leaves. -/
def perform (σ : Service) : Mutation → Except AppError Response × Service
  | .create ctx env caller typeId headers body =>
    σ.answer (collCreate σ.toAppState ctx env caller typeId headers body)
  | .put ctx env caller typeId id headers body =>
    σ.answer (itemPut σ.toAppState ctx env caller typeId id headers body)
  | .patch ctx env caller typeId id headers body =>
    σ.answer (itemPatch σ.toAppState ctx env caller typeId id headers body)
  | .delete ctx caller typeId id headers =>
    σ.answer (itemDelete σ.toAppState ctx caller typeId id headers)
  | .addMember ctx caller typeId id headers body =>
    σ.answer (Numu.addMember ctx caller typeId id headers body)
  | .setMember ctx caller typeId id memberId headers body =>
    σ.answer (Numu.setMember ctx caller typeId id memberId headers body)
  | .removeMember ctx caller typeId id memberId =>
    σ.answer (Numu.removeMember ctx caller typeId id memberId)
  | .recordCheck ctx caller typeId id name headers body =>
    σ.answer (Numu.recordCheck ctx caller typeId id name headers body)
  | .createRelation ctx env caller body =>
    σ.answer (Numu.createRelation σ.toAppState ctx env caller body)
  | .deleteRelation ctx caller id =>
    σ.answer (Numu.deleteRelation σ.toAppState ctx caller id)
  | .startRun ctx env caller body => σ.answer (Numu.startRun σ.toAppState ctx env caller body)
  | .recordHandoff ctx env caller id body =>
    σ.answer (Numu.recordHandoff σ.toAppState ctx env caller id body)
  | .createType display ctx caller body => exec (Numu.createType display ctx caller body) σ

/-- The id of the request. -/
def requestId : Mutation → String
  | .create ctx _ _ _ _ _ | .put ctx _ _ _ _ _ _ | .patch ctx _ _ _ _ _ _ | .delete ctx _ _ _ _
  | .addMember ctx _ _ _ _ _ | .setMember ctx _ _ _ _ _ _ | .removeMember ctx _ _ _ _
  | .recordCheck ctx _ _ _ _ _ _ | .createRelation ctx _ _ _ | .deleteRelation ctx _ _
  | .startRun ctx _ _ _ | .recordHandoff ctx _ _ _ _ | .createType _ ctx _ _ => ctx.requestId

/-- A success is exactly one new event with the id of the request, an error is none. -/
def Audited (σ : Service) (m : Mutation) : Prop :=
  (∀ resp, (m.perform σ).1 = .ok resp →
      (m.perform σ).2.store.logged m.requestId = σ.store.logged m.requestId + 1) ∧
    ∀ e, (m.perform σ).1 = .error e →
      (m.perform σ).2.store.logged m.requestId = σ.store.logged m.requestId

/-- The request is a delete that is let through and names the version of the entity. -/
def Deletes (σ : Service) : Mutation → Prop
  | .delete _ caller typeId id headers => σ.store.Accepts σ.toAppState caller typeId id headers
  | _ => False

theorem audited_answer {σ : Service} {ctx : RequestCtx} {h : Handler Response}
    (hlogs : LogsOnce ctx h σ.store) :
    (∀ resp, (σ.answer h).1 = .ok resp →
        (σ.answer h).2.store.logged ctx.requestId = σ.store.logged ctx.requestId + 1) ∧
      ∀ e, (σ.answer h).1 = .error e →
        (σ.answer h).2.store.logged ctx.requestId = σ.store.logged ctx.requestId :=
  ⟨fun resp hr => hlogs.1 resp _ (Prod.ext hr rfl), fun e hr => hlogs.2 e _ (Prod.ext hr rfl)⟩

/-- A request that deletes nothing is audited. -/
theorem audited_of_kept {σ : Service} (hs : σ.store.Valid) (m : Mutation) (h : ¬ m.Deletes σ) :
    m.Audited σ := by
  cases m with
  | create ctx env caller typeId headers body => exact audited_answer logsOnce_collCreate
  | put ctx env caller typeId id headers body => exact audited_answer (logsOnce_itemUpdate hs)
  | patch ctx env caller typeId id headers body => exact audited_answer (logsOnce_itemUpdate hs)
  | delete ctx caller typeId id headers => exact audited_answer (logsOnce_refusedDelete h)
  | addMember ctx caller typeId id headers body => exact audited_answer (logsOnce_addMember hs)
  | setMember ctx caller typeId id memberId headers body =>
      exact audited_answer (logsOnce_setMember hs)
  | removeMember ctx caller typeId id memberId => exact audited_answer (logsOnce_removeMember hs)
  | recordCheck ctx caller typeId id name headers body =>
      exact audited_answer (logsOnce_recordCheck hs)
  | createRelation ctx env caller body => exact audited_answer logsOnce_createRelation
  | deleteRelation ctx caller id => exact audited_answer logsOnce_deleteRelation
  | startRun ctx env caller body => exact audited_answer logsOnce_startRun
  | recordHandoff ctx env caller id body => exact audited_answer logsOnce_recordHandoff
  | createType display ctx caller body =>
      have hlogs : Tallies (fun τ : Service => τ.store.logged ctx.requestId)
          (Numu.createType display ctx caller body) σ := tallies_createType
      exact ⟨fun resp hr => hlogs.1 resp _ (Prod.ext hr rfl),
        fun e hr => hlogs.2 e _ (Prod.ext hr rfl)⟩

end Mutation

/--
**A mutation is audited unless it is a delete that goes through.**  On any database that keeps its
foreign keys, a success logs the request exactly once and an error not at all, and the only request
of which this fails is the delete that is accepted: it succeeds and logs nothing.
-/
theorem mutation_audited_iff (σ : Service) (hs : σ.store.Valid) (m : Mutation) :
    m.Audited σ ↔ ¬ m.Deletes σ := by
  refine ⟨fun haudited hdeletes => ?_, m.audited_of_kept hs⟩
  cases m with
  | delete ctx caller typeId id headers =>
      have hrun : exec (itemDelete σ.toAppState ctx caller typeId id headers) σ.store = _ :=
        exec_acceptedDelete hs hdeletes
      have hlogged := haudited.1 { status := 204 } (congrArg Prod.fst hrun)
      have hstore : (Mutation.perform σ (.delete ctx caller typeId id headers)).2.store =
          cascadeDelete σ.store id := congrArg Prod.snd hrun
      rw [hstore, logged_cascadeDelete] at hlogged
      omega
  | _ => exact hdeletes

/-! #### Alice deletes a case -/

def auditService : Service := ⟨caseState, caseStore⟩

/-- Her delete of the case, which names its version. -/
def deleteCase : Mutation := .delete plainCtx alice "case" "CAS_1" versionOne

/-- Her change of its title. -/
def retitleCase : Mutation :=
  .patch plainCtx {} alice "case" "CAS_1" versionOne (.ok ⟨.obj [("title", .str "Slow")], by decide⟩)

/-- The delete succeeds, and no event has its id. -/
theorem delete_logs_nothing :
    caseStore.Valid ∧ (deleteCase.perform auditService).1 = .ok { status := 204 } ∧
      (deleteCase.perform auditService).2.store.events = [] ∧
      ¬ deleteCase.Audited auditService := by
  refine ⟨caseStore_valid, rfl, by decide, fun h => ?_⟩
  exact absurd (h.1 { status := 204 } rfl) (by decide)

/-- The change is logged. -/
theorem retitle_logged :
    (∃ resp, (retitleCase.perform auditService).1 = .ok resp) ∧
      retitleCase.Audited auditService :=
  ⟨⟨_, rfl⟩, (mutation_audited_iff auditService caseStore_valid retitleCase).mpr not_false⟩

end Numu
