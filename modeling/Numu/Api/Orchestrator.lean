/-
The feature pipeline, `/api/feature-runs`.

A run goes through five phases, each owned by one role.  A handoff reports the
outcome of the current phase: a pass moves the run on, a fail sends it back to the
code phase, a contested test back to the test phase.  Two counters taken from the
history stop a run that goes round in circles: three fails on one gate, or eight
handoffs.

A handoff is a read of the run, one or two counts, an insert and an update, each a
statement of its own.
-/
import Numu.Api.Objects

namespace Numu

open Fallible Handler

def phases : List String := ["spec", "test", "code", "review", "ops"]

def outcomes : List String := ["pass", "fail", "test-drift", "escalate"]

def maxHops : Nat := 8

def maxRetriesPerGate : Nat := 3

def roleForPhase (phase : String) : String :=
  match phase with
  | "spec" => "architect"
  | "test" => "tester"
  | "code" => "coder"
  | "review" => "reviewer"
  | "ops" => "ops"
  | _ => ""

/-- The phase after the given one, if both are phases. -/
def nextPhase (phase : String) : Option String :=
  (phases.findIdx? fun p => p = phase).bind fun i => phases[i + 1]?

structure StartInput where
  caseId : Option String := none
  title : String := ""

structure HandoffInput where
  role : String
  gate : String := ""
  outcome : String
  note : String := ""

/-- Authority over a run is reach on its case; a run without one is for admins. -/
def requireRunAuthority (st : AppState) (caller : Caller) (caseId : Option String)
    (action : Action) (ctx : RequestCtx) : Handler Unit := do
  let ok ← match caseId with
    | some id => reachAction st caller id action
    | none => pure caller.isPlatformAdmin
  ensure ok (deny404 ctx)

def optStr (o : Option String) : Json := (o.map Json.str).getD .null

def handoffJson (h : RoleHandoff) : Json :=
  .mkObj [("role", .str h.role), ("gate", .str h.gate), ("outcome", .str h.outcome),
    ("kind", .str h.kind), ("attempt", .num (.int h.attempt.val)),
    ("retries", .num (.int h.retries.val)), ("hops", .num (.int h.hops.val)),
    ("note", .str h.note), ("at", .str h.at_.text)]

def runJson (r : FeatureRun) (handoffs : List RoleHandoff) : Json :=
  .mkObj [("id", .str r.id), ("case_id", optStr r.caseId), ("title", .str r.title),
    ("phase", .str r.phase), ("status", .str r.status), ("started_at", .str r.startedAt.text),
    ("updated_at", .str r.updatedAt.text), ("handoffs", .arr (handoffs.map handoffJson))]

/-- A run and its history, read in two statements. -/
def loadRun (id : String) : Handler (Option Json) := do
  let found ← query fun s => s.featureRuns.find? id
  match found with
  | none => pure none
  | some r => do
    let handoffs ← query fun s => s.handoffsOf id
    pure (some (runJson r handoffs))

def startRun (st : AppState) (ctx : RequestCtx) (env : Ambient) (caller : Caller)
    (body : Except String StartInput) : Handler Response := do
  let input ← check (body.mapError fun e =>
    (AppError.badRequest ("invalid run: " ++ e)).withRequestId ctx.requestId)
  requireRunAuthority st caller input.caseId .edit ctx
  let id := "FRN_" ++ env.uuid
  execute (insertFeatureRun
    { id := id, caseId := input.caseId, title := input.title, startedAt := env.now,
      updatedAt := env.now })
  recordEvent ctx caller.actorId input.caseId "feature_run.started"
    (.mkObj [("id", .str id), ("title", .str input.title)])
  let run ← loadRun id
  pure { status := 201, body := some (run.getD .null) }

/-! ### Handoffs -/

/-- `select count(*) from role_handoffs where feature_run_id = $1`. -/
def Store.hopsSoFar (s : Store) (runId : String) : Nat := (s.handoffsOf runId).length

/-- `select count(*) … where feature_run_id = $1 and gate = $2 and outcome = 'fail'`. -/
def Store.failsOn (s : Store) (runId gate : String) : Nat :=
  ((s.handoffsOf runId).filter fun h => h.gate = gate && h.outcome = "fail").length

/-- What a handoff makes of the run, before the cap on the number of hops. -/
structure Verdict where
  phase : String
  status : String
  retries : Nat
  kind : String
deriving DecidableEq

/-- The verdict on an outcome, given the fails on the gate with this one counted. -/
def verdict (phase outcome : String) (retries : Nat) : Verdict :=
  match outcome with
  | "escalate" => ⟨phase, "escalated", 0, "gate"⟩
  | "pass" =>
    match nextPhase phase with
    | some next => ⟨next, "active", 0, "gate"⟩
    | none => ⟨phase, "landed", 0, "gate"⟩
  | "fail" =>
    if maxRetriesPerGate ≤ retries then ⟨phase, "escalated", retries, "gate"⟩
    else ⟨"code", "active", retries, "gate"⟩
  | "test-drift" => ⟨"test", "active", 0, "test-drift"⟩
  | _ => ⟨phase, "active", 0, "gate"⟩

/-- The cap on the hops, whatever the outcome. -/
def Verdict.cap (v : Verdict) (thisHop : Nat) : Verdict :=
  if v.status = "active" && maxHops ≤ thisHop then { v with status := "escalated" } else v

/-- The fails on the gate with this one counted; asked for a fail only. -/
def countRetries (id : String) (input : HandoffInput) : Handler Nat :=
  if input.outcome = "fail" then do
    let fails ← query fun s => s.failsOn id input.gate
    pure (fails + 1)
  else pure 0

/-- The row of a handoff; the counts are cut to 32 bits. -/
def handoffRow (id : String) (input : HandoffInput) (v : Verdict) (thisHop : Nat)
    (now : Timestamp) : RoleHandoff where
  featureRunId := id
  role := input.role
  gate := input.gate
  outcome := input.outcome
  kind := v.kind
  attempt := I32.wrap (v.retries + 1)
  retries := I32.wrap v.retries
  hops := I32.wrap thisHop
  note := input.note
  at_ := now

/-- The writes of a handoff: the row, the run, the audit row. -/
def handoffWrites (ctx : RequestCtx) (env : Ambient) (caller : Caller) (id : String)
    (caseId : Option String) (input : HandoffInput) (v : Verdict) (thisHop : Nat) :
    Handler Response := do
  execute (insertHandoff (handoffRow id input v thisHop env.now))
  execute (updateFeatureRun id v.phase v.status env.now)
  recordEvent ctx caller.actorId caseId "feature_run.handoff"
    (.mkObj [("run", .str id), ("role", .str input.role), ("outcome", .str input.outcome),
      ("phase", .str v.phase), ("status", .str v.status)])
  let updated ← loadRun id
  pure { status := 200, body := some (updated.getD .null) }

def recordHandoff (st : AppState) (ctx : RequestCtx) (env : Ambient) (caller : Caller)
    (id : String) (body : Except String HandoffInput) : Handler Response := do
  let input ← check (body.mapError fun e =>
    (AppError.badRequest ("invalid handoff: " ++ e)).withRequestId ctx.requestId)
  ensure (outcomes.contains input.outcome)
    ((AppError.unprocessable ("unknown outcome '" ++ input.outcome ++ "' (one of: " ++
      String.intercalate ", " outcomes ++ ")")).withRequestId ctx.requestId)
  let found ← query fun s => s.featureRuns.find? id
  let run ← getOr found (deny404 ctx)
  requireRunAuthority st caller run.caseId .edit ctx
  ensure (run.status = "active")
    ((AppError.unprocessable ("run is '" ++ run.status ++
      "' — no further handoffs")).withRequestId ctx.requestId)
  -- The chain is enforced here: the role must own the current phase.
  ensure (input.role = roleForPhase run.phase)
    ((AppError.unprocessable ("expected role '" ++ roleForPhase run.phase ++ "' for phase '" ++
      run.phase ++ "', got '" ++ input.role ++ "'")).withRequestId ctx.requestId)
  let hopsSoFar ← query fun s => s.hopsSoFar id
  let retries ← countRetries id input
  handoffWrites ctx env caller id run.caseId input
    ((verdict run.phase input.outcome retries).cap (hopsSoFar + 1)) (hopsSoFar + 1)

/-! ### Reading runs -/

def getRun (st : AppState) (ctx : RequestCtx) (caller : Caller) (id : String) :
    Handler Response := do
  let found ← query fun s => (s.featureRuns.find? id).map FeatureRun.caseId
  let caseId ← getOr found (deny404 ctx)
  requireRunAuthority st caller caseId .view ctx
  let loaded ← loadRun id
  let run ← getOr loaded (deny404 ctx)
  pure { status := 200, body := some run }

/-- `select … from feature_runs [where case_id = $1] order by started_at desc [limit 200]`. -/
def Store.listRunRows (s : Store) (caseId : Option String) : List FeatureRun :=
  let newest := fun rows : List FeatureRun =>
    rows.insertionSort fun a b => b.startedAt.micros ≤ a.startedAt.micros
  match caseId with
  | some id => newest (s.featureRuns.rows.filter fun r => r.caseId = some id)
  | none => (newest s.featureRuns.rows).take 200

def runSummaryJson (r : FeatureRun) : Json :=
  .mkObj [("id", .str r.id), ("case_id", optStr r.caseId), ("title", .str r.title),
    ("phase", .str r.phase), ("status", .str r.status), ("updated_at", .str r.updatedAt.text)]

/-- The runs of a case; all of them for an admin who names none. -/
def listRuns (st : AppState) (ctx : RequestCtx) (caller : Caller) (caseId : Option String) :
    Handler Response := do
  match caseId with
  | some id => requireRunAuthority st caller (some id) .view ctx
  | none => ensure caller.isPlatformAdmin (deny404 ctx)
  let rows ← query fun s => s.listRunRows caseId
  pure { status := 200, body := some (.mkObj [("runs", .arr (rows.map runSummaryJson))]) }

end Numu
