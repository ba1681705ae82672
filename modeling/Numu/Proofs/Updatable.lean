/-
When an object can still be updated.

A PATCH with an empty merge writes back what is stored.  It computes the columns
anew from the data, and the data keeps the ids of entities that have been deleted
since, where the columns were set to null.  So it fails on a foreign key, and that
is all it fails on in a state the service reaches: the data passes its final
check, a case's workflow is the seeded one and its status no terminal state that
the trigger would look at.
-/
import Numu.Proofs.Oracles
import Numu.Proofs.ScopeForest

namespace Numu

open Fallible Handler

/-! ### Cases as the service keeps them -/

/-- What holds of workflows and cases in every state: the seeded workflow is the only one, no
close check was ever recorded, and a case is in that workflow and not done. -/
structure Service.CasesOpen (σ : Service) : Prop where
  cached : σ.workflows = Service.seeded.workflows
  stored : σ.store.workflows = seededStore.workflows
  unchecked : σ.store.closeChecks = ∅
  workflow : ∀ d ∈ σ.store.entityData, d.typeId = "case" →
    d.data.str? "workflow_id" = some "default"
  notDone : ∀ d ∈ σ.store.entityData, d.typeId = "case" → d.data.str? "status" ≠ some "done"

section Checked

variable {σ : Service} {v : UpdateVerb} {ctx : RequestCtx} {caller : Caller}
  {typeId id : String} {headers : HeaderMap} {body : Body} {td : TypeDef}
  {row : EntityData} {payload : Json} {expected : I32}

/-- A new case starts in the initial state. -/
theorem CreateChecked.notDone
    (h : CreateChecked σ.toAppState ctx caller typeId headers body σ.store caseType payload)
    (hcached : σ.workflows = Service.seeded.workflows) :
    (buildCreateData caseType payload).str? "status" ≠ some "done" := by
  intro hdone
  have hinitial := h.initial
  have hcase : caseType.typeId = "case" := rfl
  have hrefused : ∃ e, WorkflowCache.validate Service.seeded.workflows "default" none "done" =
      .error e := ⟨_, rfl⟩
  obtain ⟨e, he⟩ := hrefused
  unfold validateNewCase at hinitial
  rw [if_pos hcase, workflow_created, hdone, hcached, Option.getD_some, Option.getD_some, he]
    at hinitial
  simp [Except.mapError] at hinitial

theorem exec_unmetCloseChecks (s : Store) (id : String) (names : List String) :
    exec (unmetCloseChecks id names) s =
      (.ok (names.filter fun name => !s.checkPassed id name), s) := by
  induction names with
  | nil => rfl
  | cons name rest ih =>
      simp only [unmetCloseChecks, exec_bind, exec_query, ih, List.filter_cons]
      cases hpassed : s.checkPassed id name with
      | true => rfl
      | false => rfl

/-- Without a recorded check no case is closed. -/
theorem UpdateChecked.notDone
    (h : UpdateChecked v σ.toAppState ctx caller typeId id headers body σ.store caseType row
      payload expected)
    (hcached : σ.workflows = Service.seeded.workflows) (hunchecked : σ.store.closeChecks = ∅)
    (hworkflow : row.data.str? "workflow_id" = some "default")
    (hstatus : row.data.str? "status" ≠ some "done") :
    (v.build caseType row.data payload).str? "status" ≠ some "done" := by
  intro hdone
  have hframe : (v.build caseType row.data payload).str? "workflow_id" = some "default" := by
    have hfield : workflowField ∈ caseType.fields := by decide
    rw [← hworkflow]
    exact congrArg (Option.bind · Json.asStr?) (h.frozen hfield (by decide))
  have hget : WorkflowCache.get σ.workflows "default" = some defaultWorkflow := by
    rw [hcached]
    rfl
  have hterminal : (defaultWorkflow.isTerminal "done" &&
      decide (row.data.str? "status" ≠ some "done")) = true := by
    rw [Bool.and_eq_true]
    exact ⟨by decide, decide_eq_true hstatus⟩
  have hunmet : defaultWorkflow.closeChecks.filter (fun name => !σ.store.checkPassed id name) =
      ["docs_reconciled"] := by
    unfold Store.checkPassed
    rw [hunchecked]
    rfl
  have hcase : caseType.typeId = "case" := rfl
  have hlegal := h.legal
  rw [onlyIf, if_pos hcase] at hlegal
  simp only [validateCaseChange, hframe, hdone, Option.getD_some, hget] at hlegal
  obtain ⟨_, t, hcheck, hrest⟩ := exec_bind_ok.mp hlegal
  obtain rfl := exec_snd_of_readOnly (readOnly_check _) hcheck
  rw [if_pos hterminal, exec_bind, exec_unmetCloseChecks, hunmet] at hrest
  obtain ⟨hnone, -⟩ := exec_ensure_ok.mp hrest
  simp at hnone

end Checked

/-! ### Every state -/

section Effect

variable {σ τ : Service} {r : Request}

/-- An entity is stored with its data. -/
def Store.Rowed (s : Store) : Prop := ∀ x, s.entities.has x = true → s.entityData.has x = true

theorem Effect.rowed (h : σ.store.Rowed) (he : Effect σ r τ) : τ.store.Rowed := by
  intro x hx
  cases he with
  | nothing => exact h x hx
  | created evs checked tx =>
      obtain ⟨ents, rows, e, cases, hents, hrows, -, -, -, -, -, -, -, -, rfl⟩ := createTx_ok tx
      refine (Table.has_insert hrows).mpr ?_
      rcases (Table.has_insert hents).mp hx with hold | hnew
      · exact Or.inl (h x hold)
      · exact Or.inr hnew
  | updated evs checked succ parent mirror => exact Table.has_upsert.mpr (Or.inl (h x hx))
  | @deleted _ _ _ id _ evs =>
      obtain ⟨hold, hne⟩ := Store.has_deleted.mp hx
      obtain ⟨d, hd, hid⟩ := Table.has_iff.mp (h x hold)
      refine Table.has_iff.mpr ⟨d.orphaned id, ?_, (d.orphaned_entityId id).trans hid⟩
      exact Store.mem_entityData_deleted.mpr ⟨d, hd, hid ▸ hne, rfl⟩
  | registered evs valid tx =>
      obtain ⟨hnodup, types, -, rfl⟩ := registerTx_ok tx
      exact h x hx
  | stamped evs run found obj => exact Table.has_upsert.mpr (Or.inl (h x hx))
  | promoted found obj => exact Table.has_upsert.mpr (Or.inl (h x hx))
  | minted tx =>
      obtain ⟨ents, rows, ids, hents, hrows, -, -, rfl⟩ := loginTx_ok tx
      refine (Table.has_insert hrows).mpr ?_
      rcases (Table.has_insert hents).mp hx with hold | hnew
      · exact Or.inl (h x hold)
      · exact Or.inr hnew

/-- Every case that an effect leaves is in the seeded workflow and not done. -/
theorem Effect.case_open (hs : σ.Sound) (h : σ.CasesOpen) (he : Effect σ r τ) {d : EntityData}
    (hd : d ∈ τ.store.entityData) (htype : d.typeId = "case") :
    d.data.str? "workflow_id" = some "default" ∧ d.data.str? "status" ≠ some "done" := by
  have hkept : d ∈ σ.store.entityData →
      d.data.str? "workflow_id" = some "default" ∧ d.data.str? "status" ≠ some "done" :=
    fun hold => ⟨h.workflow d hold htype, h.notDone d hold htype⟩
  cases he with
  | nothing => exact hkept hd
  | created evs checked tx =>
      obtain ⟨ents, rows, e, cases, -, hrows, -, -, -, -, -, -, -, -, rfl⟩ := createTx_ok tx
      rcases (Table.mem_insert hrows).mp hd with hold | rfl
      · exact hkept hold
      · obtain rfl : _ = "case" := htype
        obtain rfl := Option.some.inj (hs.case.symm.trans checked.typed)
        exact ⟨workflow_created _, checked.notDone h.cached⟩
  | @updated _ _ _ _ _ _ _ _ _ row _ _ _ _ evs checked succ parent mirror =>
      rcases Table.mem_upsert.mp hd with rfl | ⟨hold, -⟩
      · obtain ⟨hfind, hrow⟩ := Store.row?_eq_some.mp checked.found
        have hmem := Table.mem_of_find? hfind
        have htyped := checked.typed
        rw [← hrow, show row.typeId = "case" from htype] at htyped
        obtain rfl := Option.some.inj (hs.case.symm.trans htyped)
        have hworkflow := h.workflow row hmem htype
        refine ⟨?_, checked.notDone h.cached h.unchecked hworkflow (h.notDone row hmem htype)⟩
        have hfield : workflowField ∈ caseType.fields := by decide
        rw [← hworkflow]
        exact congrArg (Option.bind · Json.asStr?) (checked.frozen hfield (by decide))
      · exact hkept hold
  | @deleted _ _ _ id _ evs =>
      obtain ⟨q, hq, -, rfl⟩ := Store.mem_entityData_deleted.mp hd
      rw [EntityData.orphaned_typeId] at htype
      rw [EntityData.orphaned_data]
      exact ⟨h.workflow q hq htype, h.notDone q hq htype⟩
  | registered evs valid tx =>
      obtain ⟨hnodup, types, -, rfl⟩ := registerTx_ok tx
      exact hkept hd
  | @stamped _ env _ _ _ status row m ver evs run found obj =>
      rcases Table.mem_upsert.mp hd with rfl | ⟨hold, -⟩
      · have hrow : row.typeId = "connector" := (Store.row?_eq_some.mp found).2
        rw [show row.typeId = "case" from htype] at hrow
        simp at hrow
      · exact hkept hold
  | @promoted _ row m found obj =>
      rcases Table.mem_upsert.mp hd with rfl | ⟨hold, -⟩
      · have hrow : row.typeId = "actor" := (Store.row?_eq_some.mp found).2
        rw [show row.typeId = "case" from htype] at hrow
        simp at hrow
      · exact hkept hold
  | minted tx =>
      obtain ⟨ents, rows, ids, -, hrows, -, -, rfl⟩ := loginTx_ok tx
      rcases (Table.mem_insert hrows).mp hd with hold | rfl
      · exact hkept hold
      · simp at htype

/-- No effect touches the workflows, and none records a close check. -/
theorem Effect.workflows (he : Effect σ r τ) :
    τ.workflows = σ.workflows ∧ τ.store.workflows = σ.store.workflows ∧
      (σ.store.closeChecks = ∅ → τ.store.closeChecks = ∅) := by
  cases he with
  | created evs checked tx =>
      obtain ⟨ents, rows, e, cases, -, -, -, -, -, -, -, -, -, -, rfl⟩ := createTx_ok tx
      exact ⟨rfl, rfl, id⟩
  | registered evs valid tx =>
      obtain ⟨hnodup, types, -, rfl⟩ := registerTx_ok tx
      exact ⟨rfl, rfl, id⟩
  | minted tx =>
      obtain ⟨ents, rows, ids, -, -, -, -, rfl⟩ := loginTx_ok tx
      exact ⟨rfl, rfl, id⟩
  | deleted evs =>
      refine ⟨rfl, rfl, fun h => ?_⟩
      show (σ.store.closeChecks.filter _) = ∅
      rw [h]
      rfl
  | nothing | updated _ _ _ _ _ | stamped _ _ _ _ | promoted _ _ => exact ⟨rfl, rfl, id⟩

theorem Service.CasesOpen.effect (h : σ.CasesOpen) (hs : σ.Sound) (he : Effect σ r τ) :
    τ.CasesOpen := by
  obtain ⟨hcached, hstored, hchecks⟩ := he.workflows
  exact ⟨hcached.trans h.cached, hstored.trans h.stored, hchecks h.unchecked,
    fun d hd htype => (he.case_open hs h hd htype).1,
    fun d hd htype => (he.case_open hs h hd htype).2⟩

end Effect

theorem Service.CasesOpen.run {σ : Service} (h : σ.CasesOpen) (hs : σ.Sound)
    (reqs : List Request) : (σ.run reqs).CasesOpen := by
  induction reqs generalizing σ with
  | nil => exact h
  | cons r rest ih => exact ih (h.effect hs (σ.perform_effect r)) (hs.perform r)

theorem Store.Rowed.run {σ : Service} (h : σ.store.Rowed) (reqs : List Request) :
    (σ.run reqs).store.Rowed := by
  induction reqs generalizing σ with
  | nil => exact h
  | cons r rest ih => exact ih ((σ.perform_effect r).rowed h)

theorem Service.CasesOpen.seeded : Service.seeded.CasesOpen where
  cached := rfl
  stored := rfl
  unchecked := rfl
  workflow := by decide
  notDone := by decide

theorem seededStore_rowed : seededStore.Rowed := by
  intro x hx
  obtain ⟨e, he, rfl⟩ := Table.has_iff.mp hx
  obtain rfl := List.mem_singleton.mp he
  rfl

/-! ### The empty merge -/

/-- The columns that an update with the empty merge writes can be written: the version has a next
one, the scope parent is there, and so is the assignee of a case. -/
def Updatable (s : Store) (td : TypeDef) (d : EntityData) : Prop :=
  d.version < I32.max ∧ s.refOk (scopeParent td d.data) = true ∧
    (td.typeId = "case" → s.refOk (d.data.str? "assignee_id") = true)

section Empty

variable {σ : Service} {ctx : RequestCtx} {env : Ambient} {caller : Caller} {headers : HeaderMap}
  {body : Body} {td : TypeDef} {d : EntityData}

theorem mergePatch_empty {data : Json} (h : ∃ m, data = .obj m) :
    mergePatch data (.obj []) = data := by
  obtain ⟨m, rfl⟩ := h
  rfl

/-- The empty merge keeps a case in its state, which the workflow allows. -/
theorem validateCaseChange_kept (hcached : σ.workflows = Service.seeded.workflows) {id : String}
    {data : Json} (hworkflow : data.str? "workflow_id" = some "default")
    (hstatus : ∃ state ∈ defaultWorkflow.states, data.str? "status" = some state) :
    exec (validateCaseChange σ.toAppState id data (data.str? "status") ctx) σ.store =
      (.ok (), σ.store) := by
  obtain ⟨state, hstate, hdata⟩ := hstatus
  have hget : WorkflowCache.get σ.workflows "default" = some defaultWorkflow := by
    rw [hcached]
    rfl
  have hvalid : WorkflowCache.validate σ.workflows "default" (some state) state = .ok () := by
    have hknown : defaultWorkflow.isState state = true := List.contains_iff_mem.mpr hstate
    simp [WorkflowCache.validate, hget, hknown]
  simp only [validateCaseChange, hworkflow, hdata, Option.getD_some, hvalid, hget, exec_bind]
  simp [Except.mapError]

/-- In a state the service reaches, the empty merge at the current version passes every check. -/
theorem empty_patch_checked (hs : σ.Sound) (hopen : σ.CasesOpen) (hd : d ∈ σ.store.entityData)
    (htd : TypeDefCache.get σ.registry d.typeId = some td)
    (hrank : 2 ≤ σ.store.callerRank caller d.entityId)
    (hmatch : requireIfMatch headers ctx = .ok d.version)
    (hjson : readJson headers body true = .ok (.obj [])) :
    UpdateChecked .patch σ.toAppState ctx caller d.typeId d.entityId headers body σ.store td d
      (.obj []) d.version := by
  have hfound : σ.store.row? d.entityId d.typeId = some d :=
    Store.row?_eq_some.mpr ⟨Table.find?_eq_some.mpr ⟨hd, rfl⟩, rfl⟩
  have hfits := hs.row_fits hfound htd
  have hsame : UpdateVerb.patch.build td d.data (.obj []) = d.data :=
    mergePatch_empty hfits.object
  refine ⟨htd, ?_, hfound, hmatch, hjson, rfl, ?_, ?_, ?_⟩
  · unfold Store.callerRank at hrank
    unfold requireAction
    by_cases hadmin : caller.isPlatformAdmin = true
    · rw [if_pos hadmin]
      rfl
    · rw [if_neg hadmin] at hrank ⊢
      simp only [exec_bind, exec_query, exec_pure, Prod.mk.injEq, and_true, Except.ok.injEq]
      cases hr : σ.store.effectiveRank caller.actorId d.entityId with
      | none =>
          rw [hr] at hrank
          exact absurd hrank (by decide)
      | some rank =>
          rw [hr] at hrank
          exact decide_eq_true hrank
  · rw [hsame]
    exact hfits.final
  · unfold requireWrite
    rw [exec_bind, exec_rankOn]
    by_cases hmax : σ.store.callerRank caller d.entityId = I32.max
    · simp only [if_pos hmax, exec_pure]
    · simp only [if_neg hmax]
      rfl
  · rw [hsame]
    by_cases hcase : td.typeId = "case"
    · rw [onlyIf, if_pos hcase]
      have htype : d.typeId = "case" := (TypeDefCache.get_typeId htd).symm.trans hcase
      obtain rfl : caseType = td := by
        rw [htype] at htd
        exact Option.some.inj (hs.case.symm.trans htd)
      exact validateCaseChange_kept hopen.cached (hopen.workflow d hd htype) (caseStatus_of_final hfits.final)
    · rw [onlyIf, if_neg hcase]
      rfl

/-- The columns of the empty merge are refused only for an entity that is gone. -/
theorem columnsOk_empty (hs : σ.Sound) (hopen : σ.CasesOpen) (hd : d ∈ σ.store.entityData)
    (htd : TypeDefCache.get σ.registry d.typeId = some td) (ver : I32) :
    ColumnsOk σ.store td d.entityId d.data ver ↔
      σ.store.refOk (scopeParent td d.data) = true ∧
        (td.typeId = "case" → σ.store.refOk (d.data.str? "assignee_id") = true) := by
  unfold ColumnsOk
  refine and_congr_right fun hparent => forall_congr' fun hcase => ?_
  have htype : d.typeId = "case" := (TypeDefCache.get_typeId htd).symm.trans hcase
  obtain rfl : caseType = td := by
    rw [htype] at htd
    exact Option.some.inj (hs.case.symm.trans htd)
  have hentity := hs.valid.dataEntity d hd
  have hworkflow : (caseMirror d.entityId d.data ver).workflowId = "default" := by
    show (d.data.str? "workflow_id").getD "default" = "default"
    rw [hopen.workflow d hd htype]
    rfl
  have hknown : σ.store.workflows.has "default" = true := by
    rw [hopen.stored]
    rfl
  have hproject : scopeParent caseType d.data = d.data.str? "project_id" := rfl
  have hguard : ¬ ∃ old x, σ.store.cases.find? d.entityId = some old ∧
      casesGuard σ.store old (caseMirror d.entityId d.data ver) = .error x := by
    rintro ⟨old, x, -, hx⟩
    have hopened : defaultWorkflowRow.states.getLast? ≠
        some (caseMirror d.entityId d.data ver).status := by
      intro hlast
      obtain ⟨state, -, hstate⟩ := (hs.row_fits (Store.row?_eq_some.mpr
        ⟨Table.find?_eq_some.mpr ⟨hd, rfl⟩, htype⟩) hs.case).final |> caseStatus_of_final
      refine hopen.notDone d hd htype ?_
      have hmirror : (caseMirror d.entityId d.data ver).status = state := by
        show (d.data.str? "status").getD "backlog" = state
        rw [hstate]
        rfl
      rw [hmirror] at hlast
      rw [hstate, ← hlast]
      rfl
    have hfind : σ.store.workflows.find? "default" = some defaultWorkflowRow := by
      rw [hopen.stored]
      rfl
    unfold casesGuard at hx
    rw [hworkflow, hfind] at hx
    simp [hopened] at hx
  unfold CaseRefused caseRefsOk
  rw [show (caseMirror d.entityId d.data ver).entityId = d.entityId from rfl, hworkflow, hentity,
    hknown]
  show ¬ ((true && true && σ.store.refOk (d.data.str? "assignee_id") &&
    σ.store.refOk (d.data.str? "project_id")) = false ∨ _) ↔ _
  rw [← hproject, hparent]
  simp only [Bool.and_true, Bool.true_and, or_iff_left hguard, Bool.not_eq_false]

/-- **The empty merge at the current version is refused only for a column that cannot be
written.** -/
theorem empty_patch_status (hs : σ.Sound) (hopen : σ.CasesOpen) (hd : d ∈ σ.store.entityData)
    (htd : TypeDefCache.get σ.registry d.typeId = some td)
    (hrank : 2 ≤ σ.store.callerRank caller d.entityId)
    (hmatch : requireIfMatch headers ctx = .ok d.version)
    (hjson : readJson headers body true = .ok (.obj [])) :
    statusOf (exec (itemPatch σ.toAppState ctx env caller d.typeId d.entityId headers body)
        σ.store).1 = 200 ↔ Updatable σ.store td d := by
  have hchecked := empty_patch_checked hs hopen hd htd hrank hmatch hjson
  have hfits := hs.row_fits hchecked.found htd
  unfold itemPatch Updatable
  rw [hchecked.exec_eq, show UpdateVerb.patch.build td d.data (.obj []) = d.data from
    mergePatch_empty hfits.object]
  by_cases hroom : d.version < I32.max
  · rw [and_iff_right hroom, ← columnsOk_empty hs hopen hd htd d.version.succ]
    rcases updateWrites_columns hchecked.found rfl (I32.succ?_of_lt hroom) with
      ⟨hok, hstatus⟩ | ⟨hbad, hstatus⟩
    · exact iff_of_true hstatus hok
    · rw [hstatus]
      exact iff_of_false (by decide) hbad
  · have hfull : d.version = I32.max := le_antisymm (I32.le_max _) (not_lt.mp hroom)
    have hnone : d.version.succ? = none := by
      rw [hfull]
      exact I32.succ?_max
    rw [updateWrites_full hchecked.found rfl hnone]
    exact iff_of_false (by decide) fun h => hroom h.1

end Empty

/--
**In every state the service reaches, an entity can be updated exactly when the
entities that its columns name are still there.**
-/
theorem empty_patch_iff (reqs : List Request) (x : String)
    (hx : (Service.seeded.run reqs).store.entities.has x = true) :
    ∃ d ∈ (Service.seeded.run reqs).store.entityData, d.entityId = x ∧ ∃ td,
      TypeDefCache.get (Service.seeded.run reqs).registry d.typeId = some td ∧
        ∀ (ctx : RequestCtx) (env : Ambient) (caller : Caller) (headers : HeaderMap) (body : Body),
          2 ≤ (Service.seeded.run reqs).store.callerRank caller x →
          requireIfMatch headers ctx = .ok d.version →
          readJson headers body true = .ok (.obj []) →
          (statusOf (exec (itemPatch (Service.seeded.run reqs).toAppState ctx env caller d.typeId x
              headers body) (Service.seeded.run reqs).store).1 = 200 ↔
            Updatable (Service.seeded.run reqs).store td d) := by
  have hs := Service.Sound.seeded.run reqs
  have hopen := Service.CasesOpen.seeded.run Service.Sound.seeded reqs
  have hrowed : Service.seeded.store.Rowed := seededStore_rowed
  obtain ⟨d, hd, rfl⟩ := Table.has_iff.mp (hrowed.run reqs x hx)
  obtain ⟨td, htd, -⟩ := hs.fits d hd
  exact ⟨d, hd, rfl, td, htd, fun ctx env caller headers body hrank hmatch hjson =>
    empty_patch_status hs hopen hd htd hrank hmatch hjson⟩

/-- The capability can be updated while its project is there. -/
theorem capability_updatable :
    statusOf (exec (itemPatch (Service.seeded.run planning).toAppState plainCtx {} dev "capability"
      "CAP_1" versionOne emptyBody) (Service.seeded.run planning).store).1 = 200 := by
  obtain ⟨d, hd, hid, td, htd, hiff⟩ := empty_patch_iff planning "CAP_1" (by decide)
  obtain rfl : capabilityRow (some "PRJ_1") = d := by
    have hrow : (Service.seeded.run planning).store.entityData.find? "CAP_1" =
        some (capabilityRow (some "PRJ_1")) := by decide
    exact Option.some.inj (hrow.symm.trans (Table.find?_eq_some.mpr ⟨hd, hid⟩))
  obtain rfl : capabilityType = td := Option.some.inj htd
  exact (hiff plainCtx {} dev versionOne emptyBody (by decide) rfl rfl).mpr
    ⟨by decide, by decide, by decide⟩

/-- Once the project is deleted, nothing can be written to the capability any more. -/
theorem capability_stuck :
    ¬ ∀ (reqs : List Request) (x : String) (d : EntityData) (ctx : RequestCtx) (env : Ambient)
      (caller : Caller) (headers : HeaderMap) (body : Body),
      (Service.seeded.run reqs).store.entities.has x = true →
      d ∈ (Service.seeded.run reqs).store.entityData → d.entityId = x →
      2 ≤ (Service.seeded.run reqs).store.callerRank caller x →
      requireIfMatch headers ctx = .ok d.version → readJson headers body true = .ok (.obj []) →
      statusOf (exec (itemPatch (Service.seeded.run reqs).toAppState ctx env caller d.typeId x
        headers body) (Service.seeded.run reqs).store).1 = 200 := by
  intro h
  have hok := h (planning ++ givingUp) "CAP_1" (capabilityRow none) plainCtx {} dev versionOne
    emptyBody (by decide) (by decide) rfl (by decide) rfl rfl
  have hrefused : statusOf (exec (itemPatch (Service.seeded.run (planning ++ givingUp)).toAppState
      plainCtx {} dev "capability" "CAP_1" versionOne emptyBody)
      (Service.seeded.run (planning ++ givingUp)).store).1 = 422 := by decide
  rw [show (capabilityRow none).typeId = "capability" from rfl, hrefused] at hok
  simp at hok

end Numu
