/-
The close gate of a case among other requests.

A case may enter the terminal state of its workflow only with every close check
passed.  An update looks at the checks one query at a time, then stores the data,
and then the mirror, whose trigger looks at them again.  What the trigger refuses
has been stored by then, so the stored status rests on the checks as the update
saw them.  It is right when none of them is revoked in between and the case is not
reopened after it was seen closed.
-/
import Numu.Proofs.Roster
import Numu.Proofs.Sightings
import Numu.Proofs.Versions

namespace Numu

open Fallible Handler

/-- The workflow the data of a case names. -/
def workflowOf (st : AppState) (data : Json) : Option Workflow :=
  WorkflowCache.get st.workflows ((data.str? "workflow_id").getD "default")

/-- Is the status of the data the terminal state? -/
def Workflow.closes (wf : Workflow) (data : Json) : Bool := (data.str? "status").any wf.isTerminal

def Store.closedUnder (s : Store) (wf : Workflow) (x : String) : Bool :=
  (s.row? x "case").any fun d => wf.closes d.data

/-- The case enters the terminal state of the workflow its data names. -/
structure Closes (st : AppState) (x : String) (wf : Workflow) (s t : Store) : Prop where
  openBefore : s.closedUnder wf x = false
  closedAfter : ∃ d, t.row? x "case" = some d ∧ workflowOf st d.data = some wf ∧
    wf.closes d.data = true

/-- Every case that enters its terminal state has its close checks passed. -/
def GateHeld (st : AppState) (s t : Store) : Prop :=
  ∀ x wf, Closes st x wf s t → ∀ name ∈ wf.closeChecks, t.checkPassed x name = true

theorem Closes.changed {st : AppState} {x : String} {wf : Workflow} {s t : Store}
    (h : Closes st x wf s t) : t.row? x "case" ≠ s.row? x "case" := by
  intro hsame
  obtain ⟨d, hrow, -, hclosed⟩ := h.closedAfter
  have hopen := h.openBefore
  unfold Store.closedUnder at hopen
  rw [← hsame, hrow, Option.any_some, hclosed] at hopen
  simp at hopen

theorem GateHeld.of_data {st : AppState} {s t : Store} (h : t.entityData = s.entityData) :
    GateHeld st s t := by
  intro x wf hcloses
  refine absurd ?_ hcloses.changed
  unfold Store.row?
  rw [h]

/-! ### The requests on cases and their checks -/

inductive GateRequest where
  | update (v : UpdateVerb) (ctx : RequestCtx) (env : Ambient) (caller : Caller) (id : String)
      (headers : HeaderMap) (body : Body)
  | record (ctx : RequestCtx) (caller : Caller) (id name : String) (headers : HeaderMap)
      (body : Body)

namespace GateRequest

def handle (st : AppState) : GateRequest → Handler Response
  | .update v ctx env caller id headers body =>
    itemUpdate v st ctx env caller "case" id headers body
  | .record ctx caller id name headers body => recordCheck ctx caller "case" id name headers body

/-- What an update builds over the case as it is in the store. -/
def builds (st : AppState) (v : UpdateVerb) (id : String) (headers : HeaderMap) (body : Body)
    (s : Store) : Option Json :=
  match TypeDefCache.get st.registry "case", s.row? id "case",
    readJson headers body v.allowMerge with
  | some td, some row, .ok payload => some (v.build td row.data payload)
  | _, _, _ => none

/--
An update that finds the version it names and would close the case as it saw it: no close check
that it saw passed has been revoked since, and the case has not been reopened since it saw it
closed.
-/
def Undisturbed (st : AppState) (m : List (Glance Store)) (s : Store) : GateRequest → Prop
  | .update v _ _ _ id headers body =>
    (s.row? id "case").any (fun row => (ifMatch headers).join = some row.version) = true →
      ∀ g ∈ m, ∀ d ∈ builds st v id headers body g.state, ∀ wf ∈ workflowOf st d,
        wf.closes d = true →
          (∀ name ∈ wf.closeChecks, (∃ h ∈ m, h.state.checkPassed id name = true) →
            s.checkPassed id name = true) ∧
          ((∃ h ∈ m, h.state.closedUnder wf id = true) → s.closedUnder wf id = true)
  | .record _ _ _ _ _ _ => True

instance (st : AppState) (m : List (Glance Store)) (s : Store) : (req : GateRequest) →
    Decidable (req.Undisturbed st m s)
  | .update v _ _ _ id headers body =>
    inferInstanceAs (Decidable
      ((s.row? id "case").any (fun row => (ifMatch headers).join = some row.version) = true →
        ∀ g ∈ m, ∀ d ∈ builds st v id headers body g.state, ∀ wf ∈ workflowOf st d,
          wf.closes d = true →
            (∀ name ∈ wf.closeChecks, (∃ h ∈ m, h.state.checkPassed id name = true) →
              s.checkPassed id name = true) ∧
            ((∃ h ∈ m, h.state.closedUnder wf id = true) → s.closedUnder wf id = true)))
  | .record _ _ _ _ _ _ => isTrue trivial

variable {st : AppState}

/-- An undisturbed update closes the case only with its checks passed. -/
theorem guarded_update (v : UpdateVerb) (ctx : RequestCtx) (env : Ambient) (caller : Caller)
    (id : String) (headers : HeaderMap) (body : Body) (m : List (Glance Store)) :
    Guarded (fun m s t => Undisturbed st m s (.update v ctx env caller id headers body) →
        GateHeld st s t) (fun _ _ => True)
      (itemUpdate v st ctx env caller "case" id headers body) m := by
  refine guarded_itemUpdate_rows (fun _ _ _ h _ => GateHeld.of_data h) ?_ m
  intro td row payload expected m s stored ver htd hseen hstored hver hquiet x wf hcloses name hname
  have hid : stored.entityId = id := Store.row?_entityId hstored
  have hcase : td.typeId = "case" := TypeDefCache.get_typeId htd
  have hfind := Table.find?_upsert s.entityData
    (updatedRow td stored (v.build td row.data payload) ver env.now) x
  obtain rfl : id = x := by
    by_contra hx
    refine hcloses.changed ?_
    unfold Store.row?
    rw [hfind, if_neg]
    intro hc
    exact hx (hid.symm.trans hc)
  obtain ⟨d, hd, hwf, hclosed⟩ := hcloses.closedAfter
  obtain rfl : updatedRow td stored (v.build td row.data payload) ver env.now = d := by
    have hfull := hfind.trans (if_pos hid)
    exact Option.some.inj (hfull.symm.trans (Store.row?_eq_some.mp hd).1)
  have hclosed : wf.closes (v.build td row.data payload) = true := hclosed
  obtain ⟨u, hu, hfound⟩ := hseen.found
  have hnamed : (s.row? id "case").any
      (fun row => (ifMatch headers).join = some row.version) = true := by
    rw [hstored]
    simpa [hver] using ifMatch_of_require hseen.agreed.matched
  have hbuilds : builds st v id headers body u = some (v.build td row.data payload) := by
    unfold builds
    simp only [htd, hfound, hseen.agreed.parsed]
  obtain ⟨hkept, hreopened⟩ := hquiet hnamed _ hu _ hbuilds wf hwf hclosed
  obtain ⟨status, hstatus, hterminal⟩ := (Option.any_eq_true _ _).mp hclosed
  -- The update did not see the case closed, so it looked at the checks.
  have hold : row.data.str? "status" ≠ some status := by
    intro hc
    have hseenClosed : u.closedUnder wf id = true := by
      unfold Store.closedUnder Workflow.closes
      rw [hfound, Option.any_some, hc, Option.any_some, hterminal]
    have hopen := hcloses.openBefore
    rw [hreopened ⟨_, hu, hseenClosed⟩] at hopen
    simp at hopen
  have hchecks := hseen.closed hcase wf hwf
  rw [hstatus] at hchecks
  exact hkept name hname (hchecks hterminal hold name hname)

/-- A check is recorded without touching the case. -/
theorem writes_recordCheck (ctx : RequestCtx) (caller : Caller) (typeId id name : String)
    (headers : HeaderMap) (body : Body) :
    Writes (fun s t => t.entityData = s.entityData)
      (recordCheck ctx caller typeId id name headers body) := by
  simp only [recordCheck]
  refine writes_bind (readOnly_ensure _ _).writes fun _ => ?_
  refine writes_bind readOnly_ensureObject.writes fun _ => ?_
  refine writes_bind readOnly_requireRank.writes fun _ => ?_
  refine writes_bind (readOnly_check _).writes fun v => ?_
  refine writes_bind (writes_execute (fun _ => rfl) ?_) fun _ => ?_
  · intro s u t h
    unfold upsertCloseCheck at h
    split at h
    · obtain ⟨-, rfl⟩ := Prod.mk.inj (Except.ok.inj h)
      rfl
    · simp at h
  · exact writes_bind (writes_data_recordEvent _ _ _ _ _) fun _ => (readOnly_pure _).writes

theorem guarded_handle (req : GateRequest) :
    Guarded (fun m s t => req.Undisturbed st m s → GateHeld st s t) (fun _ _ => True)
      (req.handle st) [] := by
  cases req with
  | update v ctx env caller id headers body =>
      exact guarded_update v ctx env caller id headers body []
  | record ctx caller id name headers body =>
      exact guarded_of_writes (writes_recordCheck ctx caller "case" id name headers body)
        (fun _ _ _ h _ => GateHeld.of_data h) []

end GateRequest

/-- The programs of some requests. -/
def gate (st : AppState) (reqs : Nat → GateRequest) (n : Nat) :
    Resumption Store (Except AppError Response) := ExceptT.run ((reqs n).handle st)

/-- Between what it saw and what it stored, nothing was revoked or reopened for any update. -/
def ChecksKept (st : AppState) (reqs : Nat → GateRequest)
    (w : Watch Store (Except AppError Response)) : Prop :=
  ∀ c ∈ w.sightings, (reqs c.who).Undisturbed st c.memory c.before

instance (st : AppState) (reqs : Nat → GateRequest) (w : Watch Store (Except AppError Response)) :
    Decidable (ChecksKept st reqs w) :=
  inferInstanceAs (Decidable (∀ c ∈ w.sightings, (reqs c.who).Undisturbed st c.memory c.before))

/--
**With the checks kept no case closes without them.**  In any interleaving of updates of cases and
recordings of their checks, under any workflows, where no check is revoked and no case reopened
between the reads of an update that closes it and its store.
-/
theorem close_gate_holds (st : AppState) (reqs : Nat → GateRequest) (s₀ : Store)
    (w : Watch Store (Except AppError Response))
    (hrun : Watch.Run (gate st reqs) (Watch.start s₀) w) (hkept : ChecksKept st reqs w) :
    ∀ c ∈ w.pool.world.log, ∀ x wf, Closes st x wf c.before c.after →
      ∀ name ∈ wf.closeChecks, c.after.checkPassed x name = true := by
  have hjustified := Watch.Run.justified
    (W := fun n m s t => (reqs n).Undisturbed st m s → GateHeld st s t)
    (Q := fun _ (r : Except AppError Response) _ => ∀ a, r = .ok a → True)
    (fun n => (reqs n).guarded_handle) hrun
  intro c hc
  rw [Watch.Run.log hrun] at hc
  obtain ⟨d, hd, rfl⟩ := List.mem_map.mp hc
  exact hjustified.commits d hd (hkept d hd)

/-! #### A check is revoked on the way -/

/-- A case in review, and its check. -/
def reviewStore (passed : Bool) : Store :=
  { caseStore with
    entityData := ⟨[{ firstCase with
      data := .obj [("priority", .str "normal"), ("project_id", .str "PRJ_1"),
        ("status", .str "in_review"), ("title", .str "Crash"), ("type", .str "bug"),
        ("workflow_id", .str "default")] }], by decide⟩
    cases := ⟨[{ caseMirror "CAS_1" firstCase.data 1 with status := "in_review" }], by decide⟩
    closeChecks := ⟨[⟨"CAS_1", "docs_reconciled", passed, none⟩], by simp [CloseCheck.key]⟩ }

/-- Alice closes the case, and records its check. -/
def closeAndRecord (passed : Bool) : Nat → GateRequest
  | 0 => .update .patch plainCtx {} alice "CAS_1" versionOne
      (.ok ⟨.obj [("status", .str "done")], by decide⟩)
  | _ => .record plainCtx alice "CAS_1" "docs_reconciled" versionOne
      (.ok ⟨.obj [("passed", .bool passed)], by simp [JsonMap.keys, Json.asMap]⟩)

def playGate (passed : Bool) (schedule : List Pool.Move) :
    Watch Store (Except AppError Response) :=
  Watch.play (gate caseState (closeAndRecord passed)) (Watch.start (reviewStore !passed)) schedule

/-- The check is revoked after it was looked at and before the case is stored. -/
def revokeOnTheWay : List Pool.Move :=
  [.spawn, .spawn] ++ List.replicate 5 (.advance 0) ++ List.replicate 4 (.advance 1) ++
    List.replicate 3 (.advance 0)

/-- The check is passed before it is looked at. -/
def passThenClose : List Pool.Move :=
  [.spawn, .spawn] ++ List.replicate 4 (.advance 1) ++ List.replicate 8 (.advance 0)

/-- The request that closes the case is refused by the trigger, and the case stays closed. -/
theorem revoked_check_closes :
    Watch.Run (gate caseState (closeAndRecord false)) (Watch.start (reviewStore true))
        (playGate false revokeOnTheWay) ∧
      (∃ e, (playGate false revokeOnTheWay).pool.Finished 0 (.error e) ∧ e.status = 422) ∧
      (playGate false revokeOnTheWay).pool.world.now.closedUnder defaultWorkflow "CAS_1" = true ∧
      ¬ ∀ c ∈ (playGate false revokeOnTheWay).pool.world.log, ∀ x wf,
        Closes caseState x wf c.before c.after →
          ∀ name ∈ wf.closeChecks, c.after.checkPassed x name = true := by
  refine ⟨Watch.play_run _ revokeOnTheWay _, ⟨_, rfl, by decide⟩, by decide, fun h => ?_⟩
  have hstored := h _ (List.mem_cons_of_mem _ (List.mem_cons_of_mem _ List.mem_cons_self)) "CAS_1"
    defaultWorkflow ⟨by decide, _, rfl, rfl, by decide⟩ "docs_reconciled" List.mem_cons_self
  exact absurd hstored (by decide)

/-- A case whose check was passed first is closed. -/
theorem passed_check_closes :
    (∃ resp, (playGate true passThenClose).pool.Finished 0 (.ok resp)) ∧
      (playGate true passThenClose).pool.world.now.closedUnder defaultWorkflow "CAS_1" = true ∧
      ∀ c ∈ (playGate true passThenClose).pool.world.log, ∀ x wf,
        Closes caseState x wf c.before c.after →
          ∀ name ∈ wf.closeChecks, c.after.checkPassed x name = true := by
  refine ⟨⟨_, rfl⟩, by decide, ?_⟩
  exact close_gate_holds caseState (closeAndRecord true) (reviewStore false)
    (playGate true passThenClose) (Watch.play_run _ passThenClose _) (by decide)

end Numu
