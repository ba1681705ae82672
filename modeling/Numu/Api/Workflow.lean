/-
The workflows of the database, as the process loads them.

A workflow is a row whose states, transitions and close checks are JSON.  They are
parsed once, and a case's status is checked against what was parsed; the trigger
on `cases` reads the same row again at every update.
-/
import Numu.Api.Store

namespace Numu

/-- The strings of an array; anything else in it is skipped, and no array has none. -/
def strVec (v : Json) : List String := (v.asArray?.map fun a => a.filterMap Json.asStr?).getD []

namespace WorkflowRow

/-- The columns `states` and `close_checks` as JSON. -/
def statesJson (r : WorkflowRow) : Json := .arr (r.states.map Json.str)

def closeChecksJson (r : WorkflowRow) : Json := .arr (r.closeChecks.map Json.str)

/-- The row parsed. -/
def parse (r : WorkflowRow) : Workflow where
  states := strVec r.statesJson
  transitions := r.transitions.asMap.map fun f => (f.1, strVec f.2)
  initial := r.initial
  closeChecks := strVec r.closeChecksJson

end WorkflowRow

/-- `select workflow_id, states, transitions, initial, close_checks from workflows`, parsed. -/
def WorkflowCache.load (s : Store) : WorkflowCache where
  rows := s.workflows.rows.map fun r => (r.workflowId, r.parse)
  nodup := by
    rw [List.map_map]
    exact s.workflows.nodup

end Numu
