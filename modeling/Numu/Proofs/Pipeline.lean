/-
The feature pipeline: its chain, its breaker, and what concurrency does to both.

A run is a row and a history of handoffs.  The row is not independent of the
history: replaying the handoffs from the first phase gives where the run stands,
and `Lawful` says of a history that every handoff in it was made from where the
ones before it had led.  The bounds of the breaker are facts about lawful
histories and nothing else.

Requests that run one at a time keep the row at the standing of a lawful history.
Requests that overlap do not, since a handoff is stored before the row is updated
and counts taken before that are stale; the second half says which runs are still
lawful.
-/
import Numu.Api.Orchestrator
import Numu.Proofs.Versions

namespace Numu

open Fallible Handler

/-! ### Where a history leads -/

/-- Where a run stands. -/
structure Standing where
  phase : String
  status : String
deriving DecidableEq

/-- Where one more handoff leads. -/
def Standing.after (p : Standing) (h : RoleHandoff) : Standing :=
  let v := (verdict p.phase h.outcome h.retries.val.toNat).cap h.hops.val.toNat
  ⟨v.phase, v.status⟩

/-- Where a history leads from the first phase. -/
def standing (hist : List RoleHandoff) : Standing :=
  hist.foldl Standing.after ⟨"spec", "active"⟩

/-- The fails of a history on a gate. -/
def failsIn (hist : List RoleHandoff) (gate : String) : Nat :=
  (hist.filter fun h => h.gate = gate && h.outcome = "fail").length

/-- Every handoff was made from where the ones before it had led, and counts them. -/
inductive Lawful : List RoleHandoff → Prop
  | nil : Lawful []
  | snoc {hist : List RoleHandoff} {h : RoleHandoff} (hist_lawful : Lawful hist)
      (active : (standing hist).status = "active")
      (owns : h.role = roleForPhase (standing hist).phase)
      (counted : h.hops.val = hist.length + 1)
      (retried : h.outcome = "fail" → h.retries.val = failsIn hist h.gate + 1) :
      Lawful (hist ++ [h])

theorem standing_snoc (hist : List RoleHandoff) (h : RoleHandoff) :
    standing (hist ++ [h]) = (standing hist).after h := by
  unfold standing
  rw [List.foldl_append]
  rfl

theorem failsIn_snoc (hist : List RoleHandoff) (h : RoleHandoff) (gate : String) :
    failsIn (hist ++ [h]) gate =
      failsIn hist gate + if h.gate = gate ∧ h.outcome = "fail" then 1 else 0 := by
  unfold failsIn
  rw [List.filter_append, List.length_append]
  by_cases hg : h.gate = gate ∧ h.outcome = "fail"
  · rw [if_pos hg]
    simp [hg.1, hg.2]
  · rw [if_neg hg]
    have hfilter : ([h].filter fun h => h.gate = gate && h.outcome = "fail") = [] := by
      rw [List.filter_eq_nil_iff]
      intro a ha
      obtain rfl : a = h := by simpa using ha
      simpa using hg
    rw [hfilter]
    rfl

/-! ### The verdict on a handoff -/

theorem nextPhase_mem {p n : String} (h : nextPhase p = some n) : n ∈ phases := by
  unfold nextPhase at h
  obtain ⟨i, -, hi⟩ := Option.bind_eq_some_iff.mp h
  exact List.mem_of_getElem? hi

/-- A run stays among the phases. -/
theorem verdict_phase_mem {p outcome : String} {retries : Nat} (hp : p ∈ phases) :
    (verdict p outcome retries).phase ∈ phases := by
  unfold verdict
  split
  · exact hp
  · split
    · rename_i next hnext
      exact nextPhase_mem hnext
    · exact hp
  · split
    · exact hp
    · show "code" ∈ phases
      decide
  · show "test" ∈ phases
    decide
  · exact hp

@[simp] theorem Verdict.cap_phase (v : Verdict) (n : Nat) : (v.cap n).phase = v.phase := by
  unfold Verdict.cap
  split <;> rfl

@[simp] theorem Verdict.cap_retries (v : Verdict) (n : Nat) : (v.cap n).retries = v.retries := by
  unfold Verdict.cap
  split <;> rfl

/-- The cap leaves a run active only below the limit. -/
theorem Verdict.cap_active {v : Verdict} {n : Nat} (h : (v.cap n).status = "active") :
    v.status = "active" ∧ n < maxHops := by
  unfold Verdict.cap at h
  split at h
  · simp at h
  · rename_i hcond
    simp only [Bool.and_eq_true, decide_eq_true_eq, not_and, Nat.not_le] at hcond
    exact ⟨h, hcond h⟩

/-- A fail leaves a run active only below the limit of its gate. -/
theorem verdict_fail_active {p : String} {retries : Nat}
    (h : (verdict p "fail" retries).status = "active") : retries < maxRetriesPerGate := by
  simp only [verdict] at h
  split at h
  · simp at h
  · rename_i hlt
    omega

/-- What the fails are matters to a fail only. -/
theorem verdict_of_ne_fail {p outcome : String} (h : outcome ≠ "fail") (m n : Nat) :
    verdict p outcome m = verdict p outcome n := by
  unfold verdict
  split
  · rfl
  · rfl
  · exact absurd rfl h
  · rfl
  · rfl

/-! ### The bounds of a lawful history -/

/-- What a lawful history is bounded by, and more tightly while the run is active. -/
structure Bounds (hist : List RoleHandoff) : Prop where
  hops : hist.length ≤ maxHops
  fails : ∀ gate, failsIn hist gate ≤ maxRetriesPerGate
  phase : (standing hist).phase ∈ phases
  active : (standing hist).status = "active" →
    hist.length < maxHops ∧ ∀ gate, failsIn hist gate < maxRetriesPerGate

/-- **The breaker is a property of the history.** -/
theorem Lawful.bounds {hist : List RoleHandoff} (h : Lawful hist) : Bounds hist := by
  induction h with
  | nil =>
      refine ⟨by decide, fun gate => Nat.zero_le _, by decide, fun _ => ⟨by decide, ?_⟩⟩
      intro gate
      show 0 < maxRetriesPerGate
      decide
  | @snoc hist h _ hactive _ hcounted hretried ih =>
      obtain ⟨hlen, hfails⟩ := ih.active hactive
      refine ⟨?_, ?_, ?_, ?_⟩
      · rw [List.length_append, List.length_singleton]
        omega
      · intro gate
        have hgate := hfails gate
        rw [failsIn_snoc]
        split <;> omega
      · rw [standing_snoc]
        show ((verdict _ _ _).cap _).phase ∈ phases
        rw [Verdict.cap_phase]
        exact verdict_phase_mem ih.phase
      · intro hstill
        rw [standing_snoc] at hstill
        obtain ⟨hverdict, hcap⟩ := Verdict.cap_active hstill
        have hhops : h.hops.val.toNat = hist.length + 1 := by omega
        refine ⟨?_, ?_⟩
        · rw [List.length_append, List.length_singleton]
          omega
        · intro gate
          have hgate := hfails gate
          rw [failsIn_snoc]
          split
          · -- This handoff failed on the gate: its own count is below the limit.
            rename_i hfail
            obtain ⟨rfl, hout⟩ := hfail
            rw [hout] at hverdict
            have hretries := hretried hout
            have hlt := verdict_fail_active hverdict
            omega
          · omega

/-- The handoffs of a lawful history are numbered from one. -/
theorem Lawful.numbered {hist : List RoleHandoff} (h : Lawful hist) :
    ∀ (i : Nat) (h' : RoleHandoff), hist[i]? = some h' → h'.hops.val = (i : Int) + 1 := by
  induction h with
  | nil => intro i h' hi; simp at hi
  | snoc _ _ _ hcounted _ ih => exact Pool.forall_concat ih hcounted

/-! ### A handoff as a whole -/

section Handoff

variable {st : AppState} {ctx : RequestCtx} {env : Ambient} {caller : Caller} {id : String}
  {s s' : Store}

/-- The verdict a handoff computes from what it read. -/
def handoffVerdict (phase : String) (input : HandoffInput) (hopsSoFar retries : Nat) : Verdict :=
  (verdict phase input.outcome retries).cap (hopsSoFar + 1)

/-- The store after both writes of a handoff. -/
def handedOff (s : Store) (id : String) (h : RoleHandoff) (v : Verdict) (now : Timestamp) :
    Store :=
  { s with
    roleHandoffs := s.roleHandoffs ++ [h]
    featureRuns := s.featureRuns.modify
      (fun r => if r.id = id then { r with phase := v.phase, status := v.status, updatedAt := now }
        else r)
      (by intro r; split <;> rfl) }

theorem readOnly_requireRunAuthority {caseId : Option String} {action : Action} :
    ReadOnly (requireRunAuthority st caller caseId action ctx) := by
  unfold requireRunAuthority
  cases caseId with
  | none => exact readOnly_bind (readOnly_pure _) fun _ => readOnly_ensure _ _
  | some x => exact readOnly_bind readOnly_reachAction fun _ => readOnly_ensure _ _

theorem readOnly_loadRun : ReadOnly (loadRun id) := by
  refine readOnly_bind (readOnly_query _) fun found => ?_
  cases found with
  | none => exact readOnly_pure _
  | some r => exact readOnly_bind (readOnly_query _) fun _ => readOnly_pure _

theorem readOnly_countRetries {input : HandoffInput} : ReadOnly (countRetries id input) :=
  readOnly_ite (readOnly_bind (readOnly_query _) fun _ => readOnly_pure _) (readOnly_pure _)

theorem exec_countRetries {input : HandoffInput} (s : Store) :
    exec (countRetries id input) s =
      (.ok (if input.outcome = "fail" then s.failsOn id input.gate + 1 else 0), s) := by
  unfold countRetries
  split <;> rfl

theorem insertHandoff_ok {h : RoleHandoff} {u : Unit} (hq : insertHandoff h s = .ok (u, s')) :
    s.featureRuns.has h.featureRunId = true ∧
      s' = { s with roleHandoffs := s.roleHandoffs ++ [h] } := by
  unfold insertHandoff at hq
  split at hq
  · simp at hq
  · split at hq
    · rename_i hhas
      simp only [Except.ok.injEq, Prod.mk.injEq] at hq
      exact ⟨hhas, hq.2.symm⟩
    · simp at hq

/-- The writes of a handoff fail at the first of them, or all go through. -/
theorem handoffWrites_next {caseId : Option String} {input : HandoffInput} {v : Verdict} {n : Nat}
    {r : Except AppError Response}
    (h : exec (handoffWrites ctx env caller id caseId input v n) s = (r, s')) :
    ((∃ e, r = .error e) ∧ s' = s) ∨
      ∃ resp evs, r = .ok resp ∧
        s' = { handedOff s id (handoffRow id input v n env.now) v env.now with events := evs } := by
  unfold handoffWrites at h
  rw [exec_bind] at h
  rcases hinsert : exec (execute (insertHandoff (handoffRow id input v n env.now))) s with ⟨out, t⟩
  rw [hinsert] at h
  cases out with
  | error e =>
      obtain rfl := (exec_execute_error.mp hinsert).2
      simp only [Prod.mk.injEq] at h
      exact Or.inl ⟨⟨e, h.1.symm⟩, h.2.symm⟩
  | ok u =>
      obtain ⟨-, rfl⟩ := insertHandoff_ok (exec_execute_ok.mp hinsert)
      have hupdate : exec (execute (updateFeatureRun id v.phase v.status env.now))
          { s with roleHandoffs := s.roleHandoffs ++ [handoffRow id input v n env.now] } =
          (.ok (), handedOff s id (handoffRow id input v n env.now) v env.now) := rfl
      obtain ⟨evs, hevs⟩ := exec_recordEvent ctx caller.actorId caseId "feature_run.handoff"
        (.mkObj [("run", .str id), ("role", .str input.role), ("outcome", .str input.outcome),
          ("phase", .str v.phase), ("status", .str v.status)])
        (handedOff s id (handoffRow id input v n env.now) v env.now)
      simp only [exec_bind, hupdate, hevs] at h
      rcases hload : exec (loadRun id)
        { handedOff s id (handoffRow id input v n env.now) v env.now with events := evs } with
        ⟨out', t'⟩
      obtain rfl := exec_snd_of_readOnly readOnly_loadRun hload
      rw [hload] at h
      cases out' with
      | ok loaded =>
          simp only [exec_pure, Prod.mk.injEq] at h
          exact Or.inr ⟨_, evs, h.1.symm, h.2.symm⟩
      | error e =>
          -- Loading a run cannot fail.
          unfold loadRun at hload
          rw [exec_bind, exec_query] at hload
          simp only at hload
          split at hload
          · simp at hload
          · simp [exec_bind] at hload

/-- A handoff fails and changes nothing, or is made from what the run is. -/
theorem recordHandoff_next {body : Except String HandoffInput} {r : Except AppError Response}
    (h : exec (recordHandoff st ctx env caller id body) s = (r, s')) :
    ((∃ e, r = .error e) ∧ s' = s) ∨
      ∃ input run v resp evs, body = .ok input ∧ s.featureRuns.find? id = some run ∧
        run.status = "active" ∧ input.role = roleForPhase run.phase ∧
        v = handoffVerdict run.phase input (s.hopsSoFar id)
          (if input.outcome = "fail" then s.failsOn id input.gate + 1 else 0) ∧
        r = .ok resp ∧
        s' = { handedOff s id (handoffRow id input v (s.hopsSoFar id + 1) env.now) v env.now with
               events := evs } := by
  unfold recordHandoff at h
  rcases exec_readOnly_next (readOnly_check _) h with hfail | ⟨input, hinput, h₁⟩
  · exact Or.inl hfail
  rcases exec_readOnly_next (readOnly_ensure _ _) h₁ with hfail | ⟨_, -, h₂⟩
  · exact Or.inl hfail
  rcases exec_readOnly_next (readOnly_query _) h₂ with hfail | ⟨found, hfound, h₃⟩
  · exact Or.inl hfail
  rcases exec_readOnly_next (readOnly_getOr _ _) h₃ with hfail | ⟨run, hrun, h₄⟩
  · exact Or.inl hfail
  rcases exec_readOnly_next readOnly_requireRunAuthority h₄ with hfail | ⟨_, -, h₅⟩
  · exact Or.inl hfail
  rcases exec_readOnly_next (readOnly_ensure _ _) h₅ with hfail | ⟨_, hactive, h₆⟩
  · exact Or.inl hfail
  rcases exec_readOnly_next (readOnly_ensure _ _) h₆ with hfail | ⟨_, hrole, h₇⟩
  · exact Or.inl hfail
  rcases exec_readOnly_next (readOnly_query _) h₇ with hfail | ⟨hops, hhops, h₈⟩
  · exact Or.inl hfail
  rcases exec_readOnly_next readOnly_countRetries h₈ with hfail | ⟨retries, hretries, h₉⟩
  · exact Or.inl hfail
  rcases handoffWrites_next h₉ with hfail | ⟨resp, evs, hresp, hs'⟩
  · exact Or.inl hfail
  simp only [exec_check, exec_query, Prod.mk.injEq, Except.ok.injEq, and_true]
    at hinput hfound hhops
  rw [exec_countRetries] at hretries
  simp only [Prod.mk.injEq, Except.ok.injEq, and_true] at hretries
  have hbody : body = .ok input := by
    cases body with
    | error e => simp [Except.mapError] at hinput
    | ok i => simpa [Except.mapError] using hinput
  subst hhops
  refine Or.inr ⟨input, run, _, resp, evs, hbody, hfound.trans (exec_getOr_ok.mp hrun).1,
    by simpa using (exec_ensure_ok.mp hactive).1, by simpa using (exec_ensure_ok.mp hrole).1,
    rfl, hresp, ?_⟩
  rw [hretries]
  exact hs'

end Handoff

/-! ### Handoffs one at a time -/

theorem handoffsOf_handedOff (s : Store) (id rid : String) (h : RoleHandoff) (v : Verdict)
    (now : Timestamp) : (handedOff s id h v now).handoffsOf rid =
      s.handoffsOf rid ++ if h.featureRunId = rid then [h] else [] := by
  show (s.roleHandoffs ++ [h]).filter _ = _
  rw [List.filter_append]
  by_cases hid : h.featureRunId = rid
  · rw [if_pos hid, List.filter_cons_of_pos (by simpa using hid)]
    rfl
  · rw [if_neg hid, List.filter_cons_of_neg (by simpa using hid)]
    rfl

theorem find?_handedOff {s : Store} (id : String) {rid : String} (h : RoleHandoff) (v : Verdict)
    (now : Timestamp) {run : FeatureRun} (hrun : s.featureRuns.find? rid = some run) :
    (handedOff s id h v now).featureRuns.find? rid =
      some (if rid = id then { run with phase := v.phase, status := v.status, updatedAt := now }
        else run) := by
  have hid : run.id = rid := Table.find?_key hrun
  unfold handedOff
  rw [Table.find?_modify, hrun, Option.map_some, hid]

/-- A fail keeps its count. -/
theorem handoffVerdict_retries {phase : String} {input : HandoffInput} {hops retries : Nat}
    (hout : input.outcome = "fail") :
    (handoffVerdict phase input hops retries).retries = retries := by
  rw [handoffVerdict, Verdict.cap_retries, hout]
  simp only [verdict]
  split <;> rfl

/-- A handoff made from where the run stands leads where its verdict says. -/
theorem standing_row {hist : List RoleHandoff} {phase status : String} {input : HandoffInput}
    {hops retries : Nat} {v : Verdict} (rid : String) (now : Timestamp)
    (hstands : standing hist = ⟨phase, status⟩) (hv : v = handoffVerdict phase input hops retries)
    (hhops : hops + 1 < 2147483648) (hretries : retries < 2147483648) :
    standing (hist ++ [handoffRow rid input v (hops + 1) now]) = ⟨v.phase, v.status⟩ := by
  have hn : (I32.wrap ((hops + 1 : Nat) : Int)).val.toNat = hops + 1 := by
    rw [I32.wrap_val hhops]
    rfl
  have hw : (verdict phase input.outcome (I32.wrap (v.retries : Int)).val.toNat).cap
      (I32.wrap ((hops + 1 : Nat) : Int)).val.toNat = v := by
    rw [hn]
    by_cases hout : input.outcome = "fail"
    · have hr : v.retries = retries := by rw [hv, handoffVerdict_retries hout]
      rw [hr, I32.wrap_val hretries, hv]
      rfl
    · rw [verdict_of_ne_fail hout _ retries, hv]
      rfl
  rw [standing_snoc, hstands]
  exact congrArg (fun w : Verdict => (⟨w.phase, w.status⟩ : Standing)) hw

/-- The row of a run is where its lawful history leads. -/
structure InStep (s : Store) (rid : String) (run : FeatureRun) : Prop where
  found : s.featureRuns.find? rid = some run
  lawful : Lawful (s.handoffsOf rid)
  stands : standing (s.handoffsOf rid) = ⟨run.phase, run.status⟩

namespace InStep

variable {s : Store} {rid : String} {run : FeatureRun}

theorem active (h : InStep s rid run) (hactive : run.status = "active") :
    (standing (s.handoffsOf rid)).status = "active" := by
  rw [h.stands]
  exact hactive

/-- The row that a handoff stores goes on from where the run stands. -/
theorem row_snoc (h : InStep s rid run) (hactive : run.status = "active") {input : HandoffInput}
    (hrole : input.role = roleForPhase run.phase) (now : Timestamp) {v : Verdict}
    (hv : v = handoffVerdict run.phase input (s.hopsSoFar rid)
      (if input.outcome = "fail" then s.failsOn rid input.gate + 1 else 0)) :
    Lawful (s.handoffsOf rid ++ [handoffRow rid input v (s.hopsSoFar rid + 1) now]) ∧
      standing (s.handoffsOf rid ++ [handoffRow rid input v (s.hopsSoFar rid + 1) now]) =
        ⟨v.phase, v.status⟩ ∧
      (handoffRow rid input v (s.hopsSoFar rid + 1) now).hops.val = s.hopsSoFar rid + 1 := by
  have hbounds := h.lawful.bounds
  obtain ⟨hlen, hfails⟩ := hbounds.active (h.active hactive)
  have hlen' : s.hopsSoFar rid < maxHops := hlen
  have hgate : s.failsOn rid input.gate < maxRetriesPerGate := hfails input.gate
  have hmax : maxHops = 8 := rfl
  have hthree : maxRetriesPerGate = 3 := rfl
  have hhops : (I32.wrap ((s.hopsSoFar rid + 1 : Nat) : Int)).val = s.hopsSoFar rid + 1 :=
    I32.wrap_val (by omega)
  have hphase : run.phase = (standing (s.handoffsOf rid)).phase := by rw [h.stands]
  refine ⟨.snoc h.lawful (h.active hactive) (hphase ▸ hrole) hhops ?_,
    standing_row rid now h.stands hv (by omega) (by split <;> omega), hhops⟩
  intro hout
  have hretries : v.retries = s.failsOn rid input.gate + 1 := by
    rw [hv, handoffVerdict_retries hout]
    exact if_pos hout
  show (I32.wrap (v.retries : Int)).val = (s.failsOn rid input.gate + 1 : Nat)
  rw [hretries]
  exact I32.wrap_val (by omega)

end InStep

/-- A request to record a handoff. -/
structure HandoffRequest where
  ctx : RequestCtx
  env : Ambient
  caller : Caller
  run : String
  body : Except String HandoffInput

namespace HandoffRequest

def handle (st : AppState) (req : HandoffRequest) : Handler Response :=
  recordHandoff st req.ctx req.env req.caller req.run req.body

/-- The store after the requests, one at a time. -/
def runAll (st : AppState) (reqs : List HandoffRequest) (s : Store) : Store :=
  reqs.foldl (fun t req => (exec (req.handle st) t).2) s

/-- The request was accepted as a handoff of the run. -/
def AcceptedOn (st : AppState) (rid : String) (s : Store) (req : HandoffRequest) : Prop :=
  req.run = rid ∧ ∃ resp, (exec (req.handle st) s).1 = .ok resp

end HandoffRequest

/-- A new run: in the first phase, active, without history. -/
structure NewRun (s : Store) (rid : String) : Prop where
  handoffs : s.handoffsOf rid = []
  row : ∃ run, s.featureRuns.find? rid = some run ∧ run.phase = "spec" ∧ run.status = "active"

theorem NewRun.inStep {s : Store} {rid : String} (h : NewRun s rid) : ∃ run, InStep s rid run := by
  obtain ⟨run, hrun, hphase, hstatus⟩ := h.row
  refine ⟨run, hrun, ?_, ?_⟩
  · rw [h.handoffs]
    exact .nil
  · rw [h.handoffs, hphase, hstatus]
    rfl

/-- A run that was started is new, when no handoff is without a run. -/
theorem startRun_new (st : AppState) (ctx : RequestCtx) (env : Ambient) (caller : Caller)
    (body : Except String StartInput) (s : Store) {s' : Store} {resp : Response}
    (hruns : ∀ h ∈ s.roleHandoffs, s.featureRuns.has h.featureRunId = true)
    (h : exec (startRun st ctx env caller body) s = (.ok resp, s')) :
    NewRun s' ("FRN_" ++ env.uuid) := by
  simp only [startRun] at h
  obtain ⟨input, t₀, hinput, h₁⟩ := exec_bind_ok.mp h
  obtain rfl := exec_snd_of_readOnly (readOnly_check _) hinput
  obtain ⟨_, t₁, hgate, h₂⟩ := exec_bind_ok.mp h₁
  obtain rfl := exec_snd_of_readOnly readOnly_requireRunAuthority hgate
  obtain ⟨_, t, hinsert, h₃⟩ := exec_bind_ok.mp h₂
  obtain ⟨_, t', hevent, h₄⟩ := exec_bind_ok.mp h₃
  obtain ⟨_, t'', hload, h₅⟩ := exec_bind_ok.mp h₄
  obtain rfl := exec_snd_of_readOnly readOnly_loadRun hload
  simp only [exec_pure, Prod.mk.injEq] at h₅
  obtain ⟨-, rfl⟩ := h₅
  obtain ⟨evs, hevs⟩ := exec_recordEvent ctx caller.actorId input.caseId "feature_run.started"
    (.mkObj [("id", .str ("FRN_" ++ env.uuid)), ("title", .str input.title)]) t
  rw [hevs] at hevent
  simp only [Prod.mk.injEq, true_and] at hevent
  have hq := exec_execute_ok.mp hinsert
  unfold insertFeatureRun at hq
  split at hq
  · simp at hq
  · rename_i runs hinserted
    split at hq
    · simp only [Except.ok.injEq, Prod.mk.injEq, true_and] at hq
      rw [← hevent, ← hq]
      refine ⟨?_, _, (Table.find?_insert hinserted _).trans (if_pos rfl), rfl, rfl⟩
      have hfree := (Table.insert_eq_some hinserted).1
      refine List.filter_eq_nil_iff.mpr ?_
      intro d hd hid
      have hhas := hruns d hd
      rw [of_decide_eq_true hid, hfree] at hhas
      simp at hhas
    · simp at hq

/-- What holds of a run at any moment. -/
structure Breaker (s : Store) (rid : String) (run : FeatureRun) : Prop where
  found : s.featureRuns.find? rid = some run
  /-- At most eight handoffs, numbered from one. -/
  hops : (s.handoffsOf rid).length ≤ maxHops
  numbered : ∀ (i : Nat) (h : RoleHandoff), (s.handoffsOf rid)[i]? = some h →
    h.hops.val = (i : Int) + 1
  /-- At most three fails on any gate. -/
  fails : ∀ gate, s.failsOn rid gate ≤ maxRetriesPerGate
  /-- An active run is below both limits and in one of the phases. -/
  active : run.status = "active" →
    (s.handoffsOf rid).length < maxHops ∧ (∀ gate, s.failsOn rid gate < maxRetriesPerGate) ∧
      run.phase ∈ phases

theorem InStep.breaker {s : Store} {rid : String} {run : FeatureRun} (h : InStep s rid run) :
    Breaker s rid run := by
  have hbounds := h.lawful.bounds
  refine ⟨h.found, hbounds.hops, h.lawful.numbered, hbounds.fails, fun hactive => ?_⟩
  obtain ⟨hlen, hfails⟩ := hbounds.active (h.active hactive)
  have hphase := hbounds.phase
  rw [h.stands] at hphase
  exact ⟨hlen, hfails, hphase⟩

/-- What one request does to a run. -/
structure HandedOn (st : AppState) (rid : String) (req : HandoffRequest) (s t : Store) : Prop where
  /-- An accepted handoff is stored, with the next number, by the owner of the phase. -/
  accepted : req.AcceptedOn st rid s → ∃ run h, s.featureRuns.find? rid = some run ∧
    run.status = "active" ∧ t.handoffsOf rid = s.handoffsOf rid ++ [h] ∧
    h.role = roleForPhase run.phase ∧ h.hops.val = ((s.handoffsOf rid).length : Int) + 1
  /-- Any other request leaves the run as it was. -/
  otherwise : ¬ req.AcceptedOn st rid s →
    t.featureRuns.find? rid = s.featureRuns.find? rid ∧ t.handoffsOf rid = s.handoffsOf rid

/-- **One request keeps the run in step, and does to it what it should.** -/
theorem InStep.step (st : AppState) {rid : String} {run : FeatureRun} {s : Store}
    (hs : InStep s rid run) (req : HandoffRequest) :
    HandedOn st rid req s (exec (req.handle st) s).2 ∧
      ∃ run', InStep (exec (req.handle st) s).2 rid run' := by
  rcases hexec : exec (req.handle st) s with ⟨r, s'⟩
  rcases recordHandoff_next hexec with ⟨⟨e, rfl⟩, rfl⟩ |
    ⟨input, run', v, resp, evs, -, hrun, hactive, hrole, hv, rfl, rfl⟩
  · refine ⟨⟨fun hacc => ?_, fun _ => ⟨rfl, rfl⟩⟩, run, hs⟩
    obtain ⟨-, resp, hresp⟩ := hacc
    simp [hexec] at hresp
  by_cases hid : req.run = rid
  · obtain rfl : run = run' := Option.some.inj (hs.found.symm.trans (hid ▸ hrun))
    subst hid
    obtain ⟨hlawful, hstands, hhops⟩ := hs.row_snoc hactive hrole req.env.now hv
    have hhist := handoffsOf_handedOff s req.run req.run
      (handoffRow req.run input v (s.hopsSoFar req.run + 1) req.env.now) v req.env.now
    have hfound := find?_handedOff req.run (handoffRow req.run input v (s.hopsSoFar req.run + 1)
      req.env.now) v req.env.now hs.found
    rw [if_pos (show (handoffRow req.run input v (s.hopsSoFar req.run + 1)
      req.env.now).featureRunId = req.run from rfl)] at hhist
    rw [if_pos rfl] at hfound
    refine ⟨⟨fun _ => ⟨run, _, hs.found, hactive, hhist, hrole, hhops⟩, fun hnot => ?_⟩,
      _, hfound, ?_, ?_⟩
    · exact absurd ⟨rfl, resp, by rw [hexec]⟩ hnot
    · exact hhist.symm ▸ hlawful
    · exact (congrArg standing hhist).trans hstands
  · have hhist := handoffsOf_handedOff s req.run rid
      (handoffRow req.run input v (s.hopsSoFar req.run + 1) req.env.now) v req.env.now
    have hfound := find?_handedOff req.run (handoffRow req.run input v (s.hopsSoFar req.run + 1)
      req.env.now) v req.env.now hs.found
    rw [if_neg (show ¬ (handoffRow req.run input v (s.hopsSoFar req.run + 1)
      req.env.now).featureRunId = rid from hid), List.append_nil] at hhist
    rw [if_neg (fun hc => hid hc.symm)] at hfound
    refine ⟨⟨fun hacc => absurd hacc.1 hid, fun _ => ⟨hfound.trans hs.found.symm, hhist⟩⟩,
      run, hfound, ?_, ?_⟩
    · exact hhist.symm ▸ hs.lawful
    · exact (congrArg standing hhist).trans hs.stands

theorem InStep.runAll (st : AppState) {rid : String} (reqs : List HandoffRequest) :
    ∀ {s : Store} {run : FeatureRun}, InStep s rid run →
      ∃ run', InStep (HandoffRequest.runAll st reqs s) rid run' := by
  induction reqs with
  | nil => intro s run h; exact ⟨run, h⟩
  | cons req rest ih =>
      intro s run h
      obtain ⟨-, run', h'⟩ := h.step st req
      exact ih h'

/-- A run that has stopped accepts nothing, and stays as it is. -/
theorem InStep.frozen {st : AppState} {rid : String} (reqs : List HandoffRequest) :
    ∀ {s : Store} {run : FeatureRun}, InStep s rid run → run.status ≠ "active" →
      (HandoffRequest.runAll st reqs s).featureRuns.find? rid = some run ∧
        (HandoffRequest.runAll st reqs s).handoffsOf rid = s.handoffsOf rid := by
  induction reqs with
  | nil => intro s run h _; exact ⟨h.found, rfl⟩
  | cons req rest ih =>
      intro s run h hstopped
      obtain ⟨hhanded, run', h'⟩ := h.step st req
      have hnot : ¬ req.AcceptedOn st rid s := by
        intro hacc
        obtain ⟨run₁, -, hfound, hactive, -⟩ := hhanded.accepted hacc
        obtain rfl : run = run₁ := Option.some.inj (h.found.symm.trans hfound)
        exact hstopped hactive
      obtain ⟨hrow, hhist⟩ := hhanded.otherwise hnot
      obtain rfl : run' = run :=
        Option.some.inj (h'.found.symm.trans (hrow.trans h.found))
      obtain ⟨hrow', hhist'⟩ := ih h' hstopped
      exact ⟨hrow', hhist'.trans hhist⟩

/-- The run at every moment, at every request, and once it has stopped. -/
structure BreakerHolds (st : AppState) (rid : String) (s : Store) (reqs : List HandoffRequest) :
    Prop where
  always : ∀ pre, pre <+: reqs → ∃ run, Breaker (HandoffRequest.runAll st pre s) rid run
  each : ∀ pre req, pre ++ [req] <+: reqs →
    HandedOn st rid req (HandoffRequest.runAll st pre s)
      (HandoffRequest.runAll st (pre ++ [req]) s)
  stopped : ∀ pre, pre <+: reqs → ∀ run,
    (HandoffRequest.runAll st pre s).featureRuns.find? rid = some run → run.status ≠ "active" →
      (HandoffRequest.runAll st reqs s).featureRuns.find? rid = some run ∧
        (HandoffRequest.runAll st reqs s).handoffsOf rid =
          (HandoffRequest.runAll st pre s).handoffsOf rid

/--
**The circuit breaker.**  Whatever handoffs are reported to a run that was started,
one at a time, it accepts at most eight, each from the owner of its phase and
numbered in turn; no gate sees more than three fails; and a run that has landed or
escalated never changes again.
-/
theorem started_run_breaker (st : AppState) (ctx : RequestCtx) (env : Ambient) (caller : Caller)
    (body : Except String StartInput) (s₀ s : Store) (resp : Response)
    (hruns : ∀ h ∈ s₀.roleHandoffs, s₀.featureRuns.has h.featureRunId = true)
    (hstart : exec (startRun st ctx env caller body) s₀ = (.ok resp, s))
    (reqs : List HandoffRequest) : BreakerHolds st ("FRN_" ++ env.uuid) s reqs := by
  obtain ⟨run, hnew⟩ := (startRun_new st ctx env caller body s₀ hruns hstart).inStep
  have hsplit : ∀ (pre post : List HandoffRequest),
      HandoffRequest.runAll st (pre ++ post) s =
        HandoffRequest.runAll st post (HandoffRequest.runAll st pre s) := by
    intro pre post
    unfold HandoffRequest.runAll
    rw [List.foldl_append]
  refine ⟨fun pre _ => ?_, fun pre req _ => ?_, fun pre hpre run' hfound hstopped => ?_⟩
  · obtain ⟨run', hstep⟩ := hnew.runAll st pre
    exact ⟨run', hstep.breaker⟩
  · obtain ⟨run', hstep⟩ := hnew.runAll st pre
    rw [hsplit]
    exact (hstep.step st req).1
  · obtain ⟨run'', hstep⟩ := hnew.runAll st pre
    obtain rfl : run'' = run' := Option.some.inj (hstep.found.symm.trans hfound)
    obtain ⟨post, rfl⟩ := hpre
    rw [hsplit]
    exact hstep.frozen post hstopped

/-- A handoff reported by an admin. -/
def report (run role outcome : String) : HandoffRequest where
  ctx := plainCtx
  env := {}
  caller := ⟨"USR_dev", true⟩
  run := run
  body := .ok { role := role, gate := "unit", outcome := outcome }

/-- The store once a run has been started on a fresh install. -/
def startedStore : Store :=
  (exec (startRun ⟨∅, ∅⟩ plainCtx { uuid := "1" } ⟨"USR_dev", true⟩ (.ok {})) seededStore).2

/-- The chain up to the code phase, and three fails there. -/
def threeFails : List HandoffRequest :=
  [report "FRN_1" "architect" "pass", report "FRN_1" "tester" "pass",
    report "FRN_1" "coder" "fail", report "FRN_1" "coder" "fail", report "FRN_1" "coder" "fail",
    report "FRN_1" "coder" "pass"]

/-- Three fails on one gate escalate the run, and what is reported after that is refused. -/
theorem three_fails_escalate :
    ((HandoffRequest.runAll ⟨∅, ∅⟩ threeFails startedStore).featureRuns.find? "FRN_1").map
        FeatureRun.status = some "escalated" ∧
      ((HandoffRequest.runAll ⟨∅, ∅⟩ threeFails startedStore).handoffsOf "FRN_1").length = 5 ∧
      BreakerHolds ⟨∅, ∅⟩ "FRN_1" startedStore threeFails := by
  refine ⟨by decide, by decide, ?_⟩
  exact started_run_breaker ⟨∅, ∅⟩ plainCtx { uuid := "1" } ⟨"USR_dev", true⟩ (.ok {}) seededStore
    startedStore _ (by decide) rfl threeFails

/-! ### Handoffs that overlap -/

/-- The run is active. -/
def Store.RunActive (s : Store) (rid : String) : Prop :=
  ∃ run, s.featureRuns.find? rid = some run ∧ run.status = "active"

/-- The commit stored a handoff of the run. -/
def StoresHandoff (rid : String) (c : Commit Store) : Prop :=
  c.after.handoffsOf rid ≠ c.before.handoffsOf rid

/-- No handoff is stored after a moment at which the run was not active. -/
def OnTime (rid : String) (log : List (Commit Store)) : Prop :=
  ∀ pre c post, log = pre ++ c :: post → StoresHandoff rid c →
    ∀ d ∈ pre ++ [c], d.before.RunActive rid

/-- What the breaker is for, at one moment of a concurrent run. -/
structure BreakerKept (rid : String) (w : World Store) : Prop where
  hops : (w.now.handoffsOf rid).length ≤ maxHops
  distinct : ((w.now.handoffsOf rid).map RoleHandoff.hops).Nodup
  onTime : OnTime rid w.log

/--
A handoff may be stored: no earlier one still waits for its update, so the row is
where the stored handoffs lead, and the phase, the hops and the fails the handoff
was made from are still those of the store.
-/
def StillCurrent (rid : String) (s : Store) (h : RoleHandoff) : Prop :=
  ∃ run, s.featureRuns.find? rid = some run ∧
    standing (s.handoffsOf rid) = ⟨run.phase, run.status⟩ ∧ run.status = "active" ∧
    h.role = roleForPhase run.phase ∧ h.hops.val = ((s.handoffsOf rid).length : Int) + 1 ∧
    (h.outcome = "fail" → h.retries.val = (s.failsOn rid h.gate : Int) + 1)

/-- Every handoff of the run was stored while it was still current. -/
def InOrder (rid : String) (log : List (Commit Store)) : Prop :=
  ∀ c ∈ log, ∀ h, c.after.handoffsOf rid = c.before.handoffsOf rid ++ [h] →
    StillCurrent rid c.before h

instance (rid : String) (s : Store) (h : RoleHandoff) : Decidable (StillCurrent rid s h) :=
  decidable_of_iff (∃ run ∈ s.featureRuns.find? rid,
      standing (s.handoffsOf rid) = ⟨run.phase, run.status⟩ ∧ run.status = "active" ∧
      h.role = roleForPhase run.phase ∧ h.hops.val = ((s.handoffsOf rid).length : Int) + 1 ∧
      (h.outcome = "fail" → h.retries.val = (s.failsOn rid h.gate : Int) + 1)) Iff.rfl

/-- Only a handoff that is in the history can have been added to it. -/
instance (rid : String) (log : List (Commit Store)) : Decidable (InOrder rid log) :=
  decidable_of_iff (∀ c ∈ log, ∀ h ∈ c.after.handoffsOf rid,
      c.after.handoffsOf rid = c.before.handoffsOf rid ++ [h] → StillCurrent rid c.before h)
    ⟨fun hall c hc h heq => hall c hc h (by rw [heq]; simp) heq,
      fun hord c hc h _ heq => hord c hc h heq⟩

/-- The history leads nowhere any more. -/
def Closed (rid : String) (s : Store) : Prop := (standing (s.handoffsOf rid)).status ≠ "active"

/-- What holds at every moment, as long as handoffs are stored in order. -/
structure Orderly (rid : String) (w : World Store) : Prop where
  row : ∃ run, w.now.featureRuns.find? rid = some run ∧ run.phase ∈ phases
  lawful : Lawful (w.now.handoffsOf rid)
  onTime : OnTime rid w.log
  /-- Until the history is closed the run has been active throughout. -/
  ongoing : Closed rid w.now ∨ (w.now.RunActive rid ∧ ∀ d ∈ w.log, d.before.RunActive rid)

theorem InOrder.init {rid : String} {log log' : List (Commit Store)} (h : InOrder rid log')
    (hpre : log <+: log') : InOrder rid log := fun c hc => h c (hpre.subset hc)

/-- An orderly history is within the bounds, and its hops differ. -/
theorem Orderly.breakerKept {rid : String} {w : World Store} (h : Orderly rid w) :
    BreakerKept rid w := by
  refine ⟨h.lawful.bounds.hops, ?_, h.onTime⟩
  rw [List.nodup_iff_getElem?_ne_getElem?]
  intro i j hij hj heq
  rw [List.length_map] at hj
  rw [List.getElem?_map, List.getElem?_map, List.getElem?_eq_getElem (by omega),
    List.getElem?_eq_getElem hj] at heq
  simp only [Option.map_some, Option.some.injEq] at heq
  have hi := h.lawful.numbered i _ (List.getElem?_eq_getElem (by omega))
  have hj' := h.lawful.numbered j _ (List.getElem?_eq_getElem hj)
  rw [heq] at hi
  omega

theorem onTime_snoc {rid : String} {log : List (Commit Store)} {c : Commit Store}
    (h : OnTime rid log)
    (hc : StoresHandoff rid c → ∀ d ∈ log ++ [c], d.before.RunActive rid) :
    OnTime rid (log ++ [c]) := by
  intro pre c' post heq hstores
  rcases List.eq_nil_or_concat post with rfl | ⟨post', last, rfl⟩
  · obtain ⟨rfl, hlast⟩ := List.append_inj' heq rfl
    obtain rfl : c = c' := by simpa using hlast
    exact hc hstores
  · rw [List.concat_eq_append] at heq
    have heq' : log ++ [c] = (pre ++ c' :: post') ++ [last] := by simpa using heq
    obtain ⟨rfl, -⟩ := List.append_inj' heq' rfl
    exact h pre c' post' rfl hstores

/-- What the handoff programs promise each other. -/
def handoffContract (rid : String) : Contract Store where
  inv w := InOrder rid w.log → Orderly rid w
  rely _ w w' := w.log <+: w'.log ∧
    (InOrder rid w'.log → Closed rid w.now → Closed rid w'.now)
  guar _ w w' := (w.log <+: w'.log ∧
      (InOrder rid w'.log → Closed rid w.now → Closed rid w'.now)) ∧
    (InOrder rid w'.log → Orderly rid w')
  rely_refl _ _ := ⟨List.prefix_refl _, fun _ h => h⟩
  rely_trans h₁ h₂ := ⟨h₁.1.trans h₂.1, fun hord hclosed =>
    h₂.2 hord (h₁.2 (hord.init h₂.1) hclosed)⟩
  inv_guar _ h := h.2
  rely_guar _ _ h := h.1

section Writes

variable {rid : String} {i : Nat} {w : World Store} {t : Store}

/-- A commit that stores no handoff keeps the order when the row does. -/
theorem handoff_guar_update (hinv : (handoffContract rid).inv w)
    (hhist : t.handoffsOf rid = w.now.handoffsOf rid)
    (hrow : InOrder rid w.log → ∃ run, t.featureRuns.find? rid = some run ∧ run.phase ∈ phases)
    (hopen : InOrder rid w.log → w.now.RunActive rid → Closed rid t ∨ t.RunActive rid) :
    (handoffContract rid).guar i w (w.commit i fun _ => t) := by
  have hpre : w.log <+: (w.commit i fun _ => t).log := List.prefix_append _ _
  have hclosed : Closed rid w.now → Closed rid t := by
    unfold Closed
    rw [hhist]
    exact id
  refine ⟨⟨hpre, fun _ h => hclosed h⟩, fun hord => ?_⟩
  have hold := hinv (hord.init hpre)
  refine ⟨hrow (hord.init hpre), ?_, onTime_snoc hold.onTime ?_, ?_⟩
  · show Lawful (t.handoffsOf rid)
    rw [hhist]
    exact hold.lawful
  · intro hstores
    exact absurd hhist hstores
  · rcases hold.ongoing with hc | ⟨hactive, hall⟩
    · exact Or.inl (hclosed hc)
    · rcases hopen (hord.init hpre) hactive with hc | hactive'
      · exact Or.inl hc
      · refine Or.inr ⟨hactive', ?_⟩
        intro d hd
        rcases List.mem_append.mp hd with hd | hd
        · exact hall d hd
        · obtain rfl : d = ⟨i, w.now, t⟩ := by simpa using hd
          exact hactive

/-- A commit that touches neither the row nor the history. -/
theorem handoff_guar_same (hinv : (handoffContract rid).inv w)
    (hhist : t.handoffsOf rid = w.now.handoffsOf rid)
    (hruns : t.featureRuns = w.now.featureRuns) :
    (handoffContract rid).guar i w (w.commit i fun _ => t) := by
  refine handoff_guar_update hinv hhist (fun hord => ?_) (fun _ hactive => Or.inr ?_)
  · rw [hruns]
    exact (hinv hord).row
  · unfold Store.RunActive
    rw [hruns]
    exact hactive

/-- A commit that stores a handoff which is still current. -/
theorem handoff_guar_insert (hinv : (handoffContract rid).inv w) {h : RoleHandoff}
    (hhist : t.handoffsOf rid = w.now.handoffsOf rid ++ [h])
    (hruns : t.featureRuns = w.now.featureRuns) :
    (handoffContract rid).guar i w (w.commit i fun _ => t) := by
  have hpre : w.log <+: (w.commit i fun _ => t).log := List.prefix_append _ _
  have hcurrent : InOrder rid (w.commit i fun _ => t).log → StillCurrent rid w.now h :=
    fun hord => hord ⟨i, w.now, t⟩ (by simp [World.commit]) h hhist
  have hnot : InOrder rid (w.commit i fun _ => t).log → ¬ Closed rid w.now := by
    intro hord hc
    obtain ⟨run, -, hstands, hactive, -⟩ := hcurrent hord
    unfold Closed at hc
    rw [hstands] at hc
    exact hc hactive
  refine ⟨⟨hpre, fun hord hc => absurd hc (hnot hord)⟩, fun hord => ?_⟩
  have hold := hinv (hord.init hpre)
  obtain ⟨run, hrun, hstands, hactive, hrole, hhops, hretries⟩ := hcurrent hord
  have hall : ∀ d ∈ w.log ++ [⟨i, w.now, t⟩], d.before.RunActive rid := by
    rcases hold.ongoing with hc | ⟨hnow, hall⟩
    · exact absurd hc (hnot hord)
    · intro d hd
      rcases List.mem_append.mp hd with hd | hd
      · exact hall d hd
      · obtain rfl : d = ⟨i, w.now, t⟩ := by simpa using hd
        exact hnow
  refine ⟨?_, ?_, onTime_snoc hold.onTime fun _ => hall, Or.inr ⟨⟨run, ?_, hactive⟩, hall⟩⟩
  · show ∃ run, t.featureRuns.find? rid = some run ∧ run.phase ∈ phases
    rw [hruns]
    exact hold.row
  · show Lawful (t.handoffsOf rid)
    rw [hhist]
    have hstanding : standing (w.now.handoffsOf rid) = ⟨run.phase, run.status⟩ := hstands
    refine .snoc hold.lawful ?_ ?_ hhops hretries
    · rw [hstanding]
      exact hactive
    · rw [hstanding]
      exact hrole
  · show t.featureRuns.find? rid = some run
    rw [hruns]
    exact hrun

end Writes

/-! #### One program among others -/

section Keeps

open Contract

variable {rid : String} {i : Nat} {w : World Store} {ctx : RequestCtx} {env : Ambient}
  {caller : Caller}

/-- A role belongs to one phase only. -/
theorem roleForPhase_inj {p q : String} (hp : p ∈ phases) (hq : q ∈ phases)
    (h : roleForPhase p = roleForPhase q) : p = q := by
  have hall : ∀ p ∈ phases, ∀ q ∈ phases, roleForPhase p = roleForPhase q → p = q := by decide
  exact hall p hp q hq h

theorem keepsF_countRetries_bind {C : Contract Store} {β : Type} {input : HandoffInput}
    {Q : Except AppError β → World Store → Prop} {f : Nat → Handler β}
    (h : ∀ w', C.rely i w w' → C.inv w' → ∀ n, n ≤ w'.now.failsOn rid input.gate + 1 →
      C.KeepsF i Q (f n) w') : C.KeepsF i Q (countRetries rid input >>= f) w := by
  unfold countRetries
  by_cases hout : input.outcome = "fail"
  · rw [if_pos hout]
    intro w' hr hinv
    exact h w' hr hinv _ (Nat.le_refl _)
  · rw [if_neg hout]
    refine KeepsF.of_resumed ?_
    intro w' hr hinv
    exact h w' hr hinv 0 (Nat.zero_le _)

/-- What a program knows once its handoff is stored, and needs for its update. -/
def AwaitsUpdate (rid : String) (v : Verdict) (w : World Store) : Prop :=
  InOrder rid w.log → v.phase ∈ phases ∧ (v.status ≠ "active" → Closed rid w.now)

theorem AwaitsUpdate.rely {v : Verdict} {w' : World Store} (h : AwaitsUpdate rid v w)
    (hr : (handoffContract rid).rely i w w') : AwaitsUpdate rid v w' := by
  intro hord
  obtain ⟨hphase, hclosed⟩ := h (hord.init hr.1)
  exact ⟨hphase, fun hstatus => hr.2 hord (hclosed hstatus)⟩

theorem updateFeatureRun_ok {phase status : String} {now : Timestamp} {s t : Store} {u : Unit}
    (h : updateFeatureRun rid phase status now s = .ok (u, t)) :
    t.roleHandoffs = s.roleHandoffs ∧ ∀ run, s.featureRuns.find? rid = some run →
      ∃ run', t.featureRuns.find? rid = some run' ∧ run'.phase = phase ∧ run'.status = status := by
  simp only [updateFeatureRun, Except.ok.injEq, Prod.mk.injEq, true_and] at h
  subst h
  refine ⟨rfl, ?_⟩
  intro run hrun
  refine ⟨{ run with phase := phase, status := status, updatedAt := now }, ?_, rfl, rfl⟩
  rw [Table.find?_modify, hrun, Option.map_some, if_pos (Table.find?_key hrun)]

/-- After its handoff is stored a program updates the row and is done. -/
theorem keepsF_handoffUpdate {v : Verdict} {caseId : Option String} {payload : Json}
    (hstored : AwaitsUpdate rid v w) :
    (handoffContract rid).KeepsF i (fun _ _ => True) (do
      execute (updateFeatureRun rid v.phase v.status env.now)
      recordEvent ctx caller.actorId caseId "feature_run.handoff" payload
      let updated ← loadRun rid
      pure ({ status := 200, body := some (updated.getD .null) } : Response)) w := by
  refine keepsF_execute_bind ?_ ?_
  · intro w₁ _ t hr₁ hinv₁ hupdate
    obtain ⟨hhist, hrow⟩ := updateFeatureRun_ok hupdate
    have hstored₁ := hstored.rely hr₁
    refine ⟨handoff_guar_update hinv₁ (by unfold Store.handoffsOf; rw [hhist]) ?_ ?_, ?_⟩
    · intro hord
      obtain ⟨run, hrun, -⟩ := (hinv₁ hord).row
      obtain ⟨run', hrun', hphase, -⟩ := hrow run hrun
      exact ⟨run', hrun', hphase ▸ (hstored₁ hord).1⟩
    · intro hord hactive
      obtain ⟨run, hrun, -⟩ := hactive
      obtain ⟨run', hrun', -, hstatus⟩ := hrow run hrun
      by_cases hv : v.status = "active"
      · exact Or.inr ⟨run', hrun', hstatus.trans hv⟩
      · refine Or.inl ?_
        have hclosed := (hstored₁ hord).2 hv
        unfold Closed Store.handoffsOf at hclosed ⊢
        rw [hhist]
        exact hclosed
    · refine keepsF_recordEvent_bind ?_
      intro w₂ evs hr₂ hinv₂
      refine ⟨handoff_guar_same hinv₂ rfl rfl, ?_⟩
      refine keepsF_readOnly_bind readOnly_loadRun (answers_true _) ?_ ?_
      · intro updated w₃ _ _ _
        exact keepsF_pure fun _ _ _ => trivial
      · intro e w₃ _ _
        trivial
  · intro w₁ x _ _ hupdate
    simp [updateFeatureRun] at hupdate

/-- The writes of a handoff, made from a phase and counts that are within bounds. -/
theorem keepsF_handoffWrites {phase : String} {input : HandoffInput} {caseId : Option String}
    {hops retries : Nat} (hrole : input.role = roleForPhase phase)
    (hread : InOrder rid w.log →
      phase ∈ phases ∧ hops ≤ maxHops ∧ retries ≤ maxRetriesPerGate + 1) :
    (handoffContract rid).KeepsF i (fun _ _ => True)
      (handoffWrites ctx env caller rid caseId input (handoffVerdict phase input hops retries)
        (hops + 1)) w := by
  generalize hv : handoffVerdict phase input hops retries = v
  unfold handoffWrites
  refine keepsF_execute_bind ?_ ?_
  · intro w₁ _ t hr₁ hinv₁ hinsert
    obtain ⟨-, rfl⟩ := insertHandoff_ok hinsert
    have hrow : (handoffRow rid input v (hops + 1) env.now).featureRunId = rid := rfl
    have hhist : Store.handoffsOf { w₁.now with
        roleHandoffs := w₁.now.roleHandoffs ++ [handoffRow rid input v (hops + 1) env.now] } rid =
        w₁.now.handoffsOf rid ++ [handoffRow rid input v (hops + 1) env.now] := by
      show (w₁.now.roleHandoffs ++ [_]).filter _ = _
      rw [List.filter_append, List.filter_cons_of_pos (by simpa using hrow)]
      rfl
    refine ⟨handoff_guar_insert hinv₁ hhist rfl, keepsF_handoffUpdate ?_⟩
    intro hord
    have hpre : w₁.log <+: (w₁.commit i fun _ => { w₁.now with
        roleHandoffs := w₁.now.roleHandoffs ++
          [handoffRow rid input v (hops + 1) env.now] }).log := List.prefix_append _ _
    obtain ⟨hphase, hhops, hretries⟩ := hread ((hord.init hpre).init hr₁.1)
    obtain ⟨run, hrun, hstands, -, hrole', -, -⟩ := hord ⟨i, w₁.now, _⟩
      (by simp [World.commit]) _ hhist
    -- The phase that was read is the phase of the row now: its owner is the same.
    obtain ⟨run', hrun', hrunPhase⟩ := (hinv₁ (hord.init hpre)).row
    obtain rfl : run = run' := Option.some.inj (hrun.symm.trans hrun')
    obtain rfl : phase = run.phase :=
      roleForPhase_inj hphase hrunPhase (hrole.symm.trans hrole')
    have hmax : maxHops = 8 := rfl
    have hthree : maxRetriesPerGate = 3 := rfl
    have hled := standing_row rid env.now hstands hv.symm (by omega) (by omega)
    refine ⟨?_, fun hstatus => ?_⟩
    · rw [← hv, handoffVerdict, Verdict.cap_phase]
      exact verdict_phase_mem hphase
    · have hnow := congrArg Standing.status ((congrArg standing hhist).trans hled)
      exact fun hactive => hstatus (hnow.symm.trans hactive)
  · intro w₁ x hr₁ hinv₁ _
    refine ⟨handoff_guar_same hinv₁ rfl rfl, ?_⟩
    intro w₂ _ _
    trivial

/-- **A handoff keeps its contract, whatever the others report.** -/
theorem keepsF_recordHandoff {st : AppState} {body : Except String HandoffInput} :
    (handoffContract rid).KeepsF i (fun _ _ => True)
      (recordHandoff st ctx env caller rid body) w := by
  unfold recordHandoff
  refine keepsF_readOnly_bind (readOnly_check _) (answers_true _) ?_ fun _ _ _ _ => trivial
  intro input w₁ _ _ _
  refine keepsF_readOnly_bind (readOnly_ensure _ _) (answers_true _) ?_ fun _ _ _ _ => trivial
  intro _ w₂ _ _ _
  refine keepsF_query_bind ?_
  intro w₃ _ hinv₃
  refine keepsF_readOnly_bind (readOnly_getOr _ _) (answers_getOr _ _) ?_ fun _ _ _ _ => trivial
  intro run w₄ hrun hr₄ _
  have hphase : ∀ w' : World Store, w₃.log <+: w'.log → InOrder rid w'.log → run.phase ∈ phases := by
    intro w' hpre hord
    obtain ⟨run', hrun', hmem⟩ := (hinv₃ (hord.init hpre)).row
    obtain rfl : run = run' := Option.some.inj (hrun.symm.trans hrun')
    exact hmem
  refine keepsF_readOnly_bind readOnly_requireRunAuthority (answers_true _) ?_
    fun _ _ _ _ => trivial
  intro _ w₅ _ hr₅ _
  refine keepsF_readOnly_bind (readOnly_ensure _ _) (answers_true _) ?_ fun _ _ _ _ => trivial
  intro _ w₆ _ hr₆ _
  refine keepsF_readOnly_bind (readOnly_ensure _ _) (answers_ensure _ _) ?_
    fun _ _ _ _ => trivial
  intro _ w₇ hrole hr₇ _
  refine keepsF_query_bind ?_
  intro w₈ hr₈ hinv₈
  refine keepsF_countRetries_bind ?_
  intro w₉ hr₉ hinv₉ retries hretries
  refine keepsF_handoffWrites (by simpa using hrole) ?_
  intro hord
  have hbounds₈ := (hinv₈ (hord.init hr₉.1)).lawful.bounds
  have hbounds₉ := (hinv₉ hord).lawful.bounds
  have hgate : w₉.now.failsOn rid input.gate ≤ maxRetriesPerGate := hbounds₉.fails input.gate
  have hpre : w₃.log <+: w₉.log :=
    hr₄.1.trans (hr₅.1.trans (hr₆.1.trans (hr₇.1.trans (hr₈.1.trans hr₉.1))))
  exact ⟨hphase w₉ hpre hord, hbounds₈.hops, by omega⟩

end Keeps

/--
**Handoffs that overlap keep the breaker, in every run in which each is stored while
it is still current.**
-/
theorem concurrent_handoffs_keep_breaker (st : AppState) (rid : String)
    (reqs : Nat → HandoffRequest) (hone : ∀ n, (reqs n).run = rid) (s : Store)
    (hnew : NewRun s rid) (p : Pool Store (Except AppError Response))
    (hrun : Pool.Run (fun n => ((reqs n).handle st).run) (fun _ _ => True) (Pool.start s) p)
    (hord : InOrder rid p.world.log) : BreakerKept rid p.world := by
  have hinit : (handoffContract rid).inv ⟨s, []⟩ := by
    intro _
    obtain ⟨run, hfound, hphase, hstatus⟩ := hnew.row
    refine ⟨⟨run, hfound, by rw [hphase]; decide⟩, ?_, ?_, Or.inr ⟨⟨run, hfound, hstatus⟩, ?_⟩⟩
    · show Lawful (s.handoffsOf rid)
      rw [hnew.handoffs]
      exact .nil
    · intro pre c post heq
      simp at heq
    · intro d hd
      simp at hd
  have hok := Contract.run_ok (C := handoffContract rid) (Q := fun _ _ _ => True) hinit
    (fun q _ _ => by
      show (handoffContract rid).KeepsF _ _ ((reqs q.threads.length).handle st) q.world
      unfold HandoffRequest.handle
      rw [hone]
      exact keepsF_recordHandoff) hrun
  exact (hok.inv hord).breakerKept

theorem startedStore_new : NewRun startedStore "FRN_1" :=
  startRun_new ⟨∅, ∅⟩ plainCtx { uuid := "1" } ⟨"USR_dev", true⟩ (.ok {}) seededStore (by decide)
    rfl

/-- Two architects pass the same phase. -/
def twoArchitects : Nat → HandoffRequest := fun _ => report "FRN_1" "architect" "pass"

/-- Both count before either stores. -/
def countTogether : List Pool.Move :=
  [.spawn, .spawn, .advance 0, .advance 0, .advance 1, .advance 1, .advance 0, .advance 0,
    .advance 0, .advance 0, .advance 0, .advance 1, .advance 1, .advance 1, .advance 1, .advance 1]

/-- Both handoffs are stored as the first. -/
theorem two_first_handoffs :
    NewRun startedStore "FRN_1" ∧
      ∃ p, Pool.Run (fun n => ((twoArchitects n).handle ⟨∅, ∅⟩).run) (fun _ _ => True)
          (Pool.start startedStore) p ∧
        (∃ a b, p.Finished 0 (.ok a) ∧ p.Finished 1 (.ok b)) ∧
        (p.world.now.handoffsOf "FRN_1").map RoleHandoff.hops = [1, 1] ∧
        ¬ BreakerKept "FRN_1" p.world := by
  have hhops : ((Pool.play (fun n => ((twoArchitects n).handle ⟨∅, ∅⟩).run)
      (Pool.start startedStore) countTogether).world.now.handoffsOf "FRN_1").map
        RoleHandoff.hops = [1, 1] := by decide
  refine ⟨startedStore_new, _, Pool.play_run _ countTogether _, ⟨_, _, rfl, rfl⟩, hhops, ?_⟩
  intro hkept
  have hdistinct := hkept.distinct
  rw [hhops] at hdistinct
  simp at hdistinct

/-- An architect and a tester, each passing. -/
def architectThenTester : Nat → HandoffRequest
  | 0 => report "FRN_1" "architect" "pass"
  | _ => report "FRN_1" "tester" "pass"

/-- The tester starts when the architect is done. -/
def oneAfterTheOther : List Pool.Move :=
  [.spawn, .advance 0, .advance 0, .advance 0, .advance 0, .advance 0, .advance 0, .advance 0,
    .spawn, .advance 1, .advance 1, .advance 1, .advance 1, .advance 1, .advance 1, .advance 1]

/-- Handoffs one after the other are stored in order. -/
theorem handoffs_in_turn_keep_breaker :
    ∃ p, Pool.Run (fun n => ((architectThenTester n).handle ⟨∅, ∅⟩).run) (fun _ _ => True)
        (Pool.start startedStore) p ∧
      (p.world.now.handoffsOf "FRN_1").map RoleHandoff.hops = [1, 2] ∧
      BreakerKept "FRN_1" p.world := by
  have hone : ∀ n, (architectThenTester n).run = "FRN_1" := by
    intro n
    cases n <;> rfl
  have hrun := Pool.play_run (fun n => ((architectThenTester n).handle ⟨∅, ∅⟩).run)
    oneAfterTheOther (Pool.start startedStore)
  exact ⟨_, hrun, by decide, concurrent_handoffs_keep_breaker ⟨∅, ∅⟩ "FRN_1" architectThenTester
    hone startedStore startedStore_new _ hrun (by decide)⟩

end Numu
