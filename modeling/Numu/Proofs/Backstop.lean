/-
The close gate and its backstop.

The rule that a case enters the terminal state of its workflow only with every
close check passed is written twice: in the update, over the workflows as the
process loaded them, and in the trigger on `cases`, over the row of the database.
Each is compared with the rule stated once over the row.  A move the workflow
allows is then refused by both or by neither.
-/
import Numu.Api.Workflow
import Numu.Proofs.CloseGate
import Numu.Proofs.Updatable

namespace Numu

open Fallible Handler

/-! ### What is loaded of a row -/

theorem strVec_strings (l : List String) : strVec (.arr (l.map Json.str)) = l := by
  unfold strVec
  rw [Json.asArray?, Option.map_some, Option.getD_some, List.filterMap_map]
  exact List.filterMap_some

theorem WorkflowRow.parse_states (r : WorkflowRow) : r.parse.states = r.states :=
  strVec_strings r.states

theorem WorkflowRow.parse_closeChecks (r : WorkflowRow) : r.parse.closeChecks = r.closeChecks :=
  strVec_strings r.closeChecks

theorem WorkflowCache.get_load (s : Store) (id : String) :
    WorkflowCache.get (WorkflowCache.load s) id =
      (s.workflows.find? id).map WorkflowRow.parse := by
  show Option.map Prod.snd ((s.workflows.rows.map fun r => (r.workflowId, r.parse)).find?
    fun w => decide (w.1 = id)) = _
  rw [List.find?_map, Option.map_map]
  rfl

/-! ### The rule -/

/-- The move takes the case into the terminal state with a close check not passed. -/
structure ClosesUnchecked (s : Store) (wf : WorkflowRow) (x old new : String) : Prop where
  moved : old ≠ new
  terminal : wf.states.getLast? = some new
  unmet : ∃ name ∈ wf.closeChecks, s.checkPassed x name = false

section Gates

variable {s : Store} {wf : WorkflowRow} {x old new : String}

/-- The names the update lists as unmet are none exactly when every check is passed. -/
theorem unmet_isEmpty_iff :
    (wf.closeChecks.filter fun name => !s.checkPassed x name).isEmpty = false ↔
      ∃ name ∈ wf.closeChecks, s.checkPassed x name = false := by
  rw [← Bool.not_eq_true, List.isEmpty_iff, List.filter_eq_nil_iff]
  simp

/-- An allowed move is one of a known workflow. -/
theorem validate_known {c : WorkflowCache} {id : String} {from? : Option String}
    (h : WorkflowCache.validate c id from? new = .ok ()) :
    ∃ w, WorkflowCache.get c id = some w := by
  unfold WorkflowCache.validate at h
  cases hget : WorkflowCache.get c id with
  | none => simp [hget] at h
  | some w => exact ⟨w, rfl⟩

/-- The update refuses an allowed move exactly when the rule does. -/
theorem validateCaseChange_refuses {st : AppState} {data : Json} {ctx : RequestCtx}
    (hget : WorkflowCache.get st.workflows ((data.str? "workflow_id").getD "default") =
      some wf.parse)
    (hnew : data.str? "status" = some new)
    (hallowed : WorkflowCache.validate st.workflows ((data.str? "workflow_id").getD "default")
      (some old) new = .ok ()) :
    (∃ e, (exec (validateCaseChange st x data (some old) ctx) s).1 = .error e ∧
        e.kind = "close_preconditions_unmet") ↔
      ClosesUnchecked s wf x old new := by
  have hterminal : wf.parse.isTerminal new = decide (wf.states.getLast? = some new) := by
    unfold Workflow.isTerminal
    rw [wf.parse_states]
  have hmoved : decide (some old ≠ some new) = decide (old ≠ new) := by simp
  simp only [validateCaseChange, hnew, Option.getD_some, hallowed, hget, Except.mapError,
    exec_bind, exec_check]
  rw [hterminal, hmoved]
  by_cases hc : (decide (wf.states.getLast? = some new) && decide (old ≠ new)) = true
  · obtain ⟨hlast, hne⟩ : wf.states.getLast? = some new ∧ old ≠ new := by simpa using hc
    rw [if_pos hc, exec_bind, exec_unmetCloseChecks, wf.parse_closeChecks]
    have hclosed : ClosesUnchecked s wf x old new ↔
        (wf.closeChecks.filter fun name => !s.checkPassed x name).isEmpty = false := by
      rw [unmet_isEmpty_iff]
      exact ⟨fun h => h.unmet, fun h => ⟨hne, hlast, h⟩⟩
    rw [hclosed]
    cases hempty : (wf.closeChecks.filter fun name => !s.checkPassed x name).isEmpty with
    | true => simp [ensure, hempty]
    | false => simp [ensure, hempty, AppError.closePreconditionsUnmet, AppError.withRequestId]
  · rw [if_neg hc]
    constructor
    · rintro ⟨e, he, -⟩
      simp at he
    · intro h
      refine absurd ?_ hc
      simpa using ⟨h.terminal, h.moved⟩

/-- The trigger raises exactly when the rule refuses. -/
theorem casesGuard_raises {c d : CaseRow} (hfind : s.workflows.find? d.workflowId = some wf) :
    (∃ m, casesGuard s c d = .error (.closePreconditions m)) ↔
      ClosesUnchecked s wf d.entityId c.status d.status := by
  unfold casesGuard
  by_cases hmoved : d.status ≠ c.status
  · rw [if_pos hmoved, hfind]
    dsimp only
    by_cases hc : (decide (wf.states.getLast? = some d.status) &&
        wf.closeChecks.any fun name => !s.checkPassed d.entityId name) = true
    · obtain ⟨hlast, hunmet⟩ := (Bool.and_eq_true _ _).mp hc
      obtain ⟨name, hname, hfailed⟩ := List.any_eq_true.mp hunmet
      refine ⟨fun _ => ⟨fun h => hmoved h.symm, of_decide_eq_true hlast, name, hname, ?_⟩,
        fun _ => ?_⟩
      · simpa using hfailed
      · exact ⟨_, if_pos hc⟩
    · rw [if_neg hc]
      constructor
      · rintro ⟨m, hm⟩
        simp at hm
      · intro h
        refine absurd ?_ hc
        obtain ⟨name, hname, hfailed⟩ := h.unmet
        rw [Bool.and_eq_true]
        exact ⟨decide_eq_true h.terminal, List.any_eq_true.mpr ⟨name, hname, by simpa using hfailed⟩⟩
  · rw [if_neg hmoved]
    constructor
    · rintro ⟨m, hm⟩
      simp at hm
    · intro h
      exact absurd h.moved.symm hmoved

/-- The update of a stored `cases` row raises exactly when its trigger does. -/
theorem upsertCase_raises {c d : CaseRow} (hstored : s.cases.find? d.entityId = some c) :
    (∃ m, upsertCase d s = .error (.closePreconditions m)) ↔
      ∃ m, casesGuard s c d = .error (.closePreconditions m) := by
  unfold upsertCase
  rw [hstored]
  cases hguard : casesGuard s c d with
  | error e => simp [hguard]
  | ok u =>
      by_cases hrefs : caseRefsOk s d = true
      · simp [hguard, hrefs]
      · simp [hguard, hrefs, SqlxError.foreignKeyViolation, SqlxError.closePreconditions]

end Gates

/--
**The two close gates agree.**  For workflows loaded from the database and a case whose row has the
status of its data, the update refuses a move the workflow allows exactly when the trigger would
raise on the row the move writes.
-/
theorem close_gates_agree (s : Store) (st : AppState) (x : String) (c : CaseRow)
    (existing data : Json) (new : String) (version : I32) (ctx : RequestCtx)
    (hloaded : st.workflows = WorkflowCache.load s) (hcase : s.cases.find? x = some c)
    (hold : existing.str? "status" = some c.status) (hnew : data.str? "status" = some new)
    (hallowed : WorkflowCache.validate st.workflows ((data.str? "workflow_id").getD "default")
      (existing.str? "status") new = .ok ()) :
    (∃ e, (exec (validateCaseChange st x data (existing.str? "status") ctx) s).1 = .error e ∧
        e.kind = "close_preconditions_unmet") ↔
      ∃ m, upsertCaseMirror x data version s = .error (.closePreconditions m) := by
  rw [hold] at hallowed ⊢
  obtain ⟨w, hget⟩ := validate_known hallowed
  have hstored := hget
  rw [hloaded, WorkflowCache.get_load] at hstored
  obtain ⟨wf, hfind, rfl⟩ := Option.map_eq_some_iff.mp hstored
  have hstatus : (caseMirror x data version).status = new := by
    unfold caseMirror
    rw [hnew]
    rfl
  have hraises : (∃ m, upsertCaseMirror x data version s = .error (.closePreconditions m)) ↔
      ClosesUnchecked s wf x c.status new := by
    unfold upsertCaseMirror
    rw [upsertCase_raises (d := caseMirror x data version) hcase, casesGuard_raises hfind, hstatus]
    rfl
  rw [validateCaseChange_refuses hget hnew hallowed, hraises]

/-- A case in review under the seeded workflow, and the state of a process that loaded it. -/
def reviewedCase (passed : Bool) : Store :=
  { reviewStore passed with workflows := seededStore.workflows }

def loadedState (s : Store) : AppState := ⟨seededTypes, WorkflowCache.load s⟩

/-- The status and workflow of the case as stored, and as an update would close it. -/
def reviewData (status : String) : Json :=
  .obj [("status", .str status), ("workflow_id", .str "default")]

/-- The closing of the case in review, as the update sees it. -/
def closeReview (passed : Bool) : Except AppError Unit :=
  (exec (validateCaseChange (loadedState (reviewedCase passed)) "CAS_1" (reviewData "done")
    ((reviewData "in_review").str? "status") plainCtx) (reviewedCase passed)).1

/-- Both gates refuse the case while its check is not passed, and neither does once it is. -/
theorem review_refused_twice :
    (∃ e, closeReview false = .error e ∧ e.kind = "close_preconditions_unmet") ∧
      ¬ ∃ e, closeReview true = .error e ∧ e.kind = "close_preconditions_unmet" := by
  have hgates := fun passed => close_gates_agree (reviewedCase passed)
    (loadedState (reviewedCase passed)) "CAS_1"
    { caseMirror "CAS_1" firstCase.data 1 with status := "in_review" } (reviewData "in_review")
    (reviewData "done") "done" 2 plainCtx rfl rfl rfl rfl rfl
  refine ⟨(hgates false).mpr ⟨_, rfl⟩, fun hrefused => ?_⟩
  obtain ⟨m, hm⟩ := (hgates true).mp hrefused
  have hstored : (upsertCaseMirror "CAS_1" (reviewData "done") 2 (reviewedCase true)).isOk = true :=
    rfl
  rw [hm] at hstored
  simp [Except.isOk, Except.toBool] at hstored

end Numu
