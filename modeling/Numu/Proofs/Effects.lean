/-
What a request does to the service.

One constructor for every way a request can leave the service, with everything the
request was checked for on the way; a request that fails leaves it as it was,
except for an update whose mirror is refused, which has stored its data.  An
invariant of the service is then a case analysis over the effects.
-/
import Numu.Api.Service
import Numu.Proofs.Mirror
import Numu.Proofs.Versions

namespace Numu

open Fallible Handler

/-! ### The mirror of an update -/

/-- The `cases` rows after an update: as they were, or with the mirror of the data. -/
def Mirrored (s : Store) (td : TypeDef) (c : CaseRow) (rows : Table CaseRow.entityId) : Prop :=
  rows = s.cases ∨ td.typeId = "case" ∧ caseRefsOk s c = true ∧ rows = s.cases.upsert c

/-- The writes of an update store everything up to the mirror, or nothing. -/
theorem updateWrites_effect {v : UpdateVerb} {ctx : RequestCtx} {env : Ambient} {caller : Caller}
    {td : TypeDef} {typeId id : String} {data : Json} {expected : I32} {s s' : Store}
    {r : Except AppError Response}
    (h : exec (updateWrites v ctx env caller td typeId id data expected) s = (r, s')) :
    s' = s ∨ ∃ row ver rows evs, s.row? id typeId = some row ∧ row.version = expected ∧
      expected.succ? = some ver ∧ s.refOk (scopeParent td data) = true ∧
      Mirrored s td (caseMirror id data ver) rows ∧
      s' = { s with
        entityData := s.entityData.upsert (updatedRow td row data ver env.now)
        cases := rows
        events := evs } := by
  cases r with
  | error e =>
      rcases updateWrites_error h with rfl | ⟨row, ver, hrow, hver, hsucc, href, hcase, hrefused⟩
      · exact Or.inl rfl
      · obtain ⟨x, -, hexec⟩ :=
          updateWrites_refused v ctx env caller hrow hver hsucc href hcase hrefused
        rw [hexec] at h
        simp only [Prod.mk.injEq] at h
        exact Or.inr ⟨row, ver, s.cases, s.events, hrow, hver, hsucc, href, Or.inl rfl, h.2.symm⟩
  | ok resp =>
      obtain ⟨row, ver, s₂, evs, hrow, hver, hsucc, href, hmirror, rfl, -⟩ := updateWrites_ok h
      refine Or.inr ?_
      rcases exec_onlyIf_ok.mp hmirror with ⟨hcase, hmirror⟩ | ⟨-, rfl⟩
      · obtain ⟨hrefs, rfl⟩ := upsertCase_ok (exec_execute_ok.mp hmirror)
        exact ⟨row, ver, _, evs, hrow, hver, hsucc, href, Or.inr ⟨hcase, hrefs, rfl⟩, rfl⟩
      · exact ⟨row, ver, s.cases, evs, hrow, hver, hsucc, href, Or.inl rfl, rfl⟩

/-! ### The registration -/

/-- A registration that was accepted inserted the type of its specification. -/
theorem registerTx_ok {spec : TypeSpec} {u : Unit} {s s' : Store}
    (h : registerTx spec s = .ok (u, s')) :
    ∃ hnodup types, s.typeDefinitions.insert (spec.typeDef hnodup) = some types ∧
      s' = { s with typeDefinitions := types } := by
  unfold registerTx at h
  split at h
  · rename_i hnodup
    split at h
    · simp at h
    · rename_i types htypes
      split at h
      · simp at h
      · simp only [Except.ok.injEq, Prod.mk.injEq] at h
        exact ⟨hnodup, types, htypes, h.2.symm⟩
  · simp at h

section Register

variable {α : Type} {σ τ : Service}

theorem Service.exec_execute_ok {q : Stmt α} {a : α} :
    exec (Service.execute q) σ = (.ok a, τ) ↔
      ∃ s, q σ.store = .ok (a, s) ∧ τ = { σ with store := s } := by
  unfold Service.execute
  rw [exec_attempt_ok]
  cases h : q σ.store with
  | error e => simp
  | ok r =>
      obtain ⟨b, t⟩ := r
      refine ⟨fun hr => ?_, fun ⟨s, hs, hτ⟩ => ?_⟩
      · simp only [Except.ok.injEq, Prod.mk.injEq] at hr
        exact ⟨t, by rw [hr.1], hr.2.symm⟩
      · simp only [Except.ok.injEq, Prod.mk.injEq] at hs
        rw [hs.1, hs.2, hτ]

theorem Service.exec_execute_error {q : Stmt α} {e : AppError}
    (h : exec (Service.execute q) σ = (.error e, τ)) : τ = σ := by
  unfold Service.execute at h
  exact (exec_attempt_error.mp h).2

theorem Service.exec_executeQuietly_event (e : EventRow) (σ : Service) :
    ∃ evs, exec (Service.executeQuietly (insertEvent e)) σ =
      (.ok (), { σ with store := { σ.store with events := evs } }) := by
  unfold Service.executeQuietly insertEvent
  by_cases href : σ.store.refOk e.entityId = true
  · exact ⟨σ.store.events ++ [e], exec_attempt_ok.mpr (by simp only [if_pos href])⟩
  · exact ⟨σ.store.events, exec_attempt_ok.mpr (by simp only [if_neg href])⟩

/-- A registration fails and leaves everything, or the type is inserted and the registry is what
the database then holds. -/
theorem createType_cases {display : Json → String} {ctx : RequestCtx} {caller : Caller}
    {body : Except String TypeSpec} {r : Except AppError Response}
    (h : exec (createType display ctx caller body) σ = (r, τ)) :
    ((∃ e, r = .error e) ∧ τ = σ) ∨
      ∃ spec t evs, body = .ok spec ∧ caller.isPlatformAdmin = true ∧
        validateSpec display spec σ.registry = .ok () ∧
        registerTx spec σ.store = .ok ((), t) ∧ (∃ resp, r = .ok resp) ∧
        τ = { σ with registry := t.typeDefinitions, store := { t with events := evs } } := by
  unfold createType at h
  rcases exec_readOnly_next (readOnly_ensure _ _) h with hfail | ⟨_, hadmin, h₁⟩
  · exact Or.inl hfail
  rcases exec_readOnly_next (readOnly_check _) h₁ with hfail | ⟨spec, hspec, h₂⟩
  · exact Or.inl hfail
  rcases exec_readOnly_next (readOnly_query _) h₂ with hfail | ⟨reg, hreg, h₃⟩
  · exact Or.inl hfail
  rcases exec_readOnly_next (readOnly_check _) h₃ with hfail | ⟨_, hvalid, h₄⟩
  · exact Or.inl hfail
  rw [exec_bind] at h₄
  rcases htx : exec (Service.execute (registerTx spec)) σ with ⟨out, τ₁⟩
  rw [htx] at h₄
  cases out with
  | error e =>
      obtain rfl := Service.exec_execute_error htx
      simp only [Prod.mk.injEq] at h₄
      exact Or.inl ⟨⟨e, h₄.1.symm⟩, h₄.2.symm⟩
  | ok u =>
      obtain ⟨t, ht, rfl⟩ := Service.exec_execute_ok.mp htx
      have hpublish : exec (Service.publish t.typeDefinitions) { σ with store := t } =
          (.ok (), { σ with store := t, registry := t.typeDefinitions }) := rfl
      obtain ⟨evs, hevs⟩ := Service.exec_executeQuietly_event
        { entityId := none, actorId := caller.actorId, kind := "type.registered",
          payload := .mkObj [("type_id", .str spec.typeId), ("id_prefix", .str spec.idPrefix),
            ("fields", .num (.int spec.fields.length))],
          requestId := ctx.requestId, traceId := ctx.traceId }
        { σ with store := t, registry := t.typeDefinitions }
      simp only [Service.load, exec_bind, exec_query, hpublish, hevs, exec_pure,
        Prod.mk.injEq] at h₄
      simp only [exec_query, Prod.mk.injEq, Except.ok.injEq, and_true] at hreg
      have hbody : body = .ok spec := by
        simp only [exec_check, Prod.mk.injEq, and_true] at hspec
        cases body with
        | error e => simp [Except.mapError] at hspec
        | ok spec' => exact congrArg Except.ok (Except.ok.inj hspec)
      have hchecked : validateSpec display spec σ.registry = .ok () := by
        simp only [exec_check, Prod.mk.injEq, and_true, ← hreg] at hvalid
        cases hval : validateSpec display spec σ.registry with
        | error e => simp [hval, Except.mapError] at hvalid
        | ok u => rfl
      exact Or.inr ⟨spec, t, evs, hbody, (exec_ensure_ok.mp hadmin).1, hchecked, ht,
        ⟨_, h₄.1.symm⟩, h₄.2.symm⟩

end Register

/-! ### The writers outside the object handlers -/

/-- The row of a connector after a run. -/
def stampedRow (row : EntityData) (m : JsonMap) (version : I32) (now : Timestamp)
    (status : String) : EntityData :=
  { row with data := stampedData m now.text status, version := version, updatedAt := now }

/-- The row of an actor that was made an admin. -/
def promotedRow (row : EntityData) (m : JsonMap) : EntityData :=
  { row with data := .obj (JsonMap.insert m "platform_role" (.str "admin")) }

/-- A run of a connector stamps it, on either path, or leaves everything. -/
theorem runConnector_effect {st : AppState} {ctx : RequestCtx} {env : Ambient} {caller : Caller}
    {fetch : String → Except AppError Json} {id : String} {s s' : Store}
    {r : Except AppError Response}
    (h : exec (runConnector st ctx env caller fetch id) s = (r, s')) :
    s' = s ∨ ∃ status ∈ ["active", "error"], ∃ row m ver evs,
      s.row? id "connector" = some row ∧ row.data = .obj m ∧ row.version.succ? = some ver ∧
      s' = { s with
        entityData := s.entityData.upsert (stampedRow row m ver env.now status)
        events := evs } := by
  unfold runConnector at h
  rcases exec_readOnly_next (readOnly_query _) h with hfail | ⟨found, -, h₁⟩
  · exact Or.inl hfail.2
  rcases exec_readOnly_next (readOnly_getOr _ _) h₁ with hfail | ⟨row, -, h₂⟩
  · exact Or.inl hfail.2
  rcases exec_readOnly_next readOnly_reachAction h₂ with hfail | ⟨ok, -, h₃⟩
  · exact Or.inl hfail.2
  rcases exec_readOnly_next (readOnly_ensure _ _) h₃ with hfail | ⟨_, -, h₄⟩
  · exact Or.inl hfail.2
  rcases exec_readOnly_next (readOnly_ensure _ _) h₄ with hfail | ⟨_, -, h₅⟩
  · exact Or.inl hfail.2
  rcases exec_readOnly_next (readOnly_ensure _ _) h₅ with hfail | ⟨_, -, h₆⟩
  · exact Or.inl hfail.2
  cases hfetch : fetch ((row.data.str? "target").getD "") with
  | error e =>
      -- The stamp of a failed run is written or given up, and the answer is the error.
      simp only [hfetch, exec_bind, stampRunQuietly, executeQuietly, exec_attempt, settle] at h₆
      cases hstamp : stampConnector id "error" env.now s with
      | error x =>
          simp only [hstamp, Except.map, exec_throw, Prod.mk.injEq] at h₆
          exact Or.inl h₆.2.symm
      | ok a =>
          obtain ⟨row', m, hrow, hobj, hsucc, ht⟩ := stampConnector_ok hstamp
          simp only [hstamp, Except.map, exec_throw, Prod.mk.injEq, ht] at h₆
          exact Or.inr ⟨"error", by decide, row', m, _, s.events, hrow, hobj, hsucc, h₆.2.symm⟩
  | ok result =>
      simp only [hfetch, exec_bind, stampRun] at h₆
      rcases hexec : exec (execute (stampConnector id "active" env.now)) s with ⟨out, t⟩
      rw [hexec] at h₆
      cases out with
      | error e =>
          obtain ⟨-, rfl⟩ := exec_execute_error.mp hexec
          simp only [Prod.mk.injEq] at h₆
          exact Or.inl h₆.2.symm
      | ok ver =>
          obtain ⟨row', m, hrow, hobj, hsucc, rfl⟩ := stampConnector_ok (exec_execute_ok.mp hexec)
          obtain ⟨evs, hevs⟩ := exec_recordEvent ctx caller.actorId (some id) "connector.ran"
            (.mkObj [("id", .str id), ("target", .str ((row.data.str? "target").getD ""))])
            { s with entityData := s.entityData.upsert (stampedRow row' m ver env.now "active") }
          unfold stampedRow at hevs
          simp only [hevs, exec_pure, Prod.mk.injEq] at h₆
          exact Or.inr ⟨"active", by decide, row', m, ver, evs, hrow, hobj, hsucc, h₆.2.symm⟩

/-- A claim promotes its caller, or leaves everything. -/
theorem claimAdmin_effect {caller : Caller} {s s' : Store} {r : Except AppError Response}
    (h : exec (claimAdmin caller) s = (r, s')) :
    s' = s ∨ ∃ row m, s.row? caller.actorId "actor" = some row ∧ row.data = .obj m ∧
      s' = { s with entityData := s.entityData.upsert (promotedRow row m) } := by
  unfold claimAdmin at h
  rw [exec_bind] at h
  rcases hexec : exec (execute (promoteActor caller.actorId)) s with ⟨out, t⟩
  rw [hexec] at h
  cases out with
  | error e =>
      obtain ⟨-, rfl⟩ := exec_execute_error.mp hexec
      simp only [Prod.mk.injEq] at h
      exact Or.inl h.2.symm
  | ok n =>
      have hstore : s' = t := by
        rcases exec_readOnly_next (readOnly_ensure _ _) h with hfail | ⟨_, -, h₁⟩
        · exact hfail.2
        · simp only [exec_pure, Prod.mk.injEq] at h₁
          exact h₁.2.symm
      rcases promoteActor_ok (exec_execute_ok.mp hexec) with ⟨rfl, -⟩ | ⟨row, m, hrow, -, hobj, ht⟩
      · exact Or.inl hstore
      · exact Or.inr ⟨row, m, hrow, hobj, hstore.trans ht⟩

/-- A login finds its actor and leaves everything, or mints one. -/
theorem upsertIdentity_effect {env : Ambient} {provider sub : String} {email : Option String}
    {name : String} {s s' : Store} {r : Except AppError String}
    (h : exec (upsertIdentity env provider sub email name) s = (r, s')) :
    s' = s ∨ loginTx ("USR_" ++ env.uuid) provider sub name email env.now s = .ok ((), s') := by
  unfold upsertIdentity at h
  rcases exec_readOnly_next (readOnly_query _) h with hfail | ⟨found, -, h₁⟩
  · exact Or.inl hfail.2
  cases found with
  | some actorId =>
      simp only [exec_pure, Prod.mk.injEq] at h₁
      exact Or.inl h₁.2.symm
  | none =>
      rw [exec_bind] at h₁
      rcases hexec : exec (execute (loginTx ("USR_" ++ env.uuid) provider sub name email env.now)) s
        with ⟨out, t⟩
      rw [hexec] at h₁
      cases out with
      | error e =>
          obtain ⟨-, rfl⟩ := exec_execute_error.mp hexec
          simp only [Prod.mk.injEq] at h₁
          exact Or.inl h₁.2.symm
      | ok u =>
          simp only [exec_pure, Prod.mk.injEq] at h₁
          exact Or.inr (h₁.2 ▸ exec_execute_ok.mp hexec)

/-! ### Every request -/

/-- The ways a request can leave the service. -/
inductive Effect (σ : Service) : Request → Service → Prop
  | nothing (r : Request) : Effect σ r σ
  | created {ctx : RequestCtx} {env : Ambient} {caller : Caller} {typeId : String}
      {headers : HeaderMap} {body : Body} {td : TypeDef} {payload : Json} {t : Store}
      (evs : List EventRow)
      (checked : CreateChecked σ.toAppState ctx caller typeId headers body σ.store td payload)
      (tx : createTx td typeId (mint td env.uuid) caller.actorId (buildCreateData td payload)
        (scopeParent td (buildCreateData td payload)) env.now σ.store = .ok ((), t)) :
      Effect σ (.create ctx env caller typeId headers body)
        { σ with store := { t with events := evs } }
  | updated {v : UpdateVerb} {ctx : RequestCtx} {env : Ambient} {caller : Caller}
      {typeId id : String} {headers : HeaderMap} {body : Body} {td : TypeDef} {row : EntityData}
      {payload : Json} {expected ver : I32} {rows : Table CaseRow.entityId} (evs : List EventRow)
      (checked : UpdateChecked v σ.toAppState ctx caller typeId id headers body σ.store td row
        payload expected)
      (succ : row.version.succ? = some ver)
      (parent : σ.store.refOk (scopeParent td (v.build td row.data payload)) = true)
      (mirror : Mirrored σ.store td (caseMirror id (v.build td row.data payload) ver) rows) :
      Effect σ (.update v ctx env caller typeId id headers body)
        { σ with store := { σ.store with
            entityData := σ.store.entityData.upsert
              (updatedRow td row (v.build td row.data payload) ver env.now)
            cases := rows
            events := evs } }
  | deleted {ctx : RequestCtx} {caller : Caller} {typeId id : String} {headers : HeaderMap}
      (evs : List EventRow) :
      Effect σ (.delete ctx caller typeId id headers)
        { σ with store := { cascadeDelete σ.store id with events := evs } }
  | registered {display : Json → String} {ctx : RequestCtx} {caller : Caller} {spec : TypeSpec}
      {t : Store} (evs : List EventRow)
      (valid : validateSpec display spec σ.registry = .ok ())
      (tx : registerTx spec σ.store = .ok ((), t)) :
      Effect σ (.createType display ctx caller (.ok spec))
        { σ with registry := t.typeDefinitions, store := { t with events := evs } }
  | stamped {ctx : RequestCtx} {env : Ambient} {caller : Caller}
      {fetch : String → Except AppError Json} {id status : String} {row : EntityData}
      {m : JsonMap} {ver : I32} (evs : List EventRow) (run : status ∈ ["active", "error"])
      (found : σ.store.row? id "connector" = some row) (obj : row.data = .obj m) :
      Effect σ (.runConnector ctx env caller fetch id)
        { σ with store := { σ.store with
            entityData := σ.store.entityData.upsert (stampedRow row m ver env.now status)
            events := evs } }
  | promoted {caller : Caller} {row : EntityData} {m : JsonMap}
      (found : σ.store.row? caller.actorId "actor" = some row) (obj : row.data = .obj m) :
      Effect σ (.claimAdmin caller)
        { σ with store := { σ.store with
            entityData := σ.store.entityData.upsert (promotedRow row m) } }
  | minted {env : Ambient} {provider sub : String} {email : Option String} {name : String}
      {t : Store}
      (tx : loginTx ("USR_" ++ env.uuid) provider sub name email env.now σ.store = .ok ((), t)) :
      Effect σ (.login env provider sub email name) { σ with store := t }

/-- **Every request has one of the effects.** -/
theorem Service.perform_effect (σ : Service) (r : Request) : Effect σ r (σ.perform r) := by
  cases r with
  | create ctx env caller typeId headers body =>
      rcases h : exec (collCreate σ.toAppState ctx env caller typeId headers body) σ.store
        with ⟨out, s'⟩
      rw [perform, after, h]
      rcases collCreate_checked h with ⟨-, rfl⟩ | ⟨td, payload, t, evs, hchecked, htx, -, rfl⟩
      · exact .nothing _
      · exact .created evs hchecked htx
  | update v ctx env caller typeId id headers body =>
      have hcases : (∃ e, exec (itemUpdate v σ.toAppState ctx env caller typeId id headers body)
            σ.store = (.error e, σ.store)) ∨
          ∃ td row payload expected, UpdateChecked v σ.toAppState ctx caller typeId id headers body
            σ.store td row payload expected := itemUpdate_cases
      rcases hcases with ⟨e, hfail⟩ | ⟨td, row, payload, expected, hchecked⟩
      · rw [perform, after, hfail]
        exact .nothing _
      · rcases h : exec (itemUpdate v σ.toAppState ctx env caller typeId id headers body) σ.store
          with ⟨out, s'⟩
        rw [perform, after, h]
        rw [hchecked.exec_eq] at h
        rcases updateWrites_effect h with
          rfl | ⟨row', ver, rows, evs, hrow, hver, hsucc, href, hmirror, rfl⟩
        · exact .nothing _
        · obtain rfl : row = row' := Option.some.inj (hchecked.found.symm.trans hrow)
          exact .updated evs hchecked (hver ▸ hsucc) href hmirror
  | delete ctx caller typeId id headers =>
      rcases h : exec (itemDelete σ.toAppState ctx caller typeId id headers) σ.store with ⟨out, s'⟩
      rw [perform, after, h]
      rcases itemDelete_cases h with ⟨-, rfl⟩ | ⟨resp, evs, -, rfl⟩
      · exact .nothing _
      · exact .deleted evs
  | createType display ctx caller body =>
      rcases h : exec (Numu.createType display ctx caller body) σ with ⟨out, τ⟩
      rw [perform, h]
      rcases createType_cases h with ⟨-, rfl⟩ | ⟨spec, t, evs, rfl, -, hvalid, htx, -, rfl⟩
      · exact .nothing _
      · exact .registered evs hvalid htx
  | runConnector ctx env caller fetch id =>
      rcases h : exec (Numu.runConnector σ.toAppState ctx env caller fetch id) σ.store
        with ⟨out, s'⟩
      rw [perform, after, h]
      rcases runConnector_effect h with
        rfl | ⟨status, hstatus, row, m, ver, evs, hrow, hobj, -, rfl⟩
      · exact .nothing _
      · exact .stamped evs hstatus hrow hobj
  | claimAdmin caller =>
      rcases h : exec (Numu.claimAdmin caller) σ.store with ⟨out, s'⟩
      rw [perform, after, h]
      rcases claimAdmin_effect h with rfl | ⟨row, m, hrow, hobj, rfl⟩
      · exact .nothing _
      · exact .promoted hrow hobj
  | login env provider sub email name =>
      rcases h : exec (upsertIdentity env provider sub email name) σ.store with ⟨out, s'⟩
      rw [perform, after, h]
      rcases upsertIdentity_effect h with rfl | htx
      · exact .nothing _
      · exact .minted htx

end Numu
