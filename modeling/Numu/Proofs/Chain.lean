/-
Which runs of the pipeline land with every phase passed.

A handoff is made by the owner of the current phase, so a run that only ever moves
on or back passes its phases in order.  But a fail sends it to the code phase from
wherever it is, and a contested test to the test phase, and from an early phase
that is a leap ahead.  The order itself is never broken: a run that lands has
passed whatever it passed in the order of the phases, and what can be missing is
the pass of the first or of the second phase.

`Chained` is the invariant of a lawful history, by induction on it.  It follows the
roles that have passed, and owes the later ones only from the tester's pass on,
since from there every way to the end leads through the code, review and ops phases.
-/
import Numu.Proofs.Pipeline

namespace Numu

open Fallible Handler

/-- The roles of the handoffs that passed, oldest first. -/
def passedRoles (hist : List RoleHandoff) : List String :=
  (hist.filter fun h => h.outcome = "pass").map RoleHandoff.role

/-- Among the handoffs that passed are those of the owners of all phases, in their order. -/
def ChainPassed (hist : List RoleHandoff) : Prop :=
  (phases.map roleForPhase).Sublist (passedRoles hist)

/-- The handoff sends the run ahead of a phase that was not passed. -/
def Leaps (hist : List RoleHandoff) (h : RoleHandoff) : Prop :=
  (h.role = "architect" ∧ (h.outcome = "fail" ∨ h.outcome = "test-drift")) ∨
    (h.role = "tester" ∧ h.outcome = "fail" ∧ "tester" ∉ passedRoles hist)

/-- No handoff of the history leapt ahead. -/
def StepByStep (hist : List RoleHandoff) : Prop :=
  ∀ pre h post, hist = pre ++ h :: post → ¬ Leaps pre h

theorem StepByStep.init {hist : List RoleHandoff} {h : RoleHandoff}
    (hsteps : StepByStep (hist ++ [h])) : StepByStep hist := by
  intro pre g post heq
  exact hsteps pre g (post ++ [h]) (by rw [heq, List.append_assoc, List.cons_append])

theorem StepByStep.last {hist : List RoleHandoff} {h : RoleHandoff}
    (hsteps : StepByStep (hist ++ [h])) : ¬ Leaps hist h :=
  hsteps hist h [] rfl

/-! ### One handoff -/

theorem passedRoles_pass {h : RoleHandoff} (hist : List RoleHandoff) (hpass : h.outcome = "pass") :
    passedRoles (hist ++ [h]) = passedRoles hist ++ [h.role] := by
  unfold passedRoles
  rw [List.filter_append, List.map_append, List.filter_cons_of_pos (by simp [hpass])]
  rfl

theorem passedRoles_other {h : RoleHandoff} (hist : List RoleHandoff) (hpass : h.outcome ≠ "pass") :
    passedRoles (hist ++ [h]) = passedRoles hist := by
  unfold passedRoles
  rw [List.filter_append, List.filter_cons_of_neg (by simp [hpass])]
  exact congrArg (List.map RoleHandoff.role) (List.append_nil _)

/-- A pass moves on to the next phase, or lands. -/
theorem after_pass {p : Standing} {h : RoleHandoff} (hpass : h.outcome = "pass") :
    (nextPhase p.phase = none → p.after h = ⟨p.phase, "landed"⟩) ∧
      ∀ next, nextPhase p.phase = some next →
        (p.after h).phase = next ∧ (p.after h).status ≠ "landed" := by
  unfold Standing.after
  rw [hpass]
  refine ⟨fun hnone => ?_, fun next hnext => ?_⟩
  · simp [verdict, hnone, Verdict.cap]
  · simp only [verdict, hnext]
    refine ⟨Verdict.cap_phase _ _, ?_⟩
    unfold Verdict.cap
    split <;> simp

/-- Anything else stays, or goes to the code phase for a fail and to the test phase for a drift. -/
theorem after_other {p : Standing} {h : RoleHandoff} (hpass : h.outcome ≠ "pass") :
    (p.after h).status ≠ "landed" ∧
      ((p.after h).phase = p.phase ∨ ((p.after h).phase = "code" ∧ h.outcome = "fail") ∨
        ((p.after h).phase = "test" ∧ h.outcome = "test-drift")) := by
  have hcap : ∀ (v : Verdict) (n : Nat), v.status ≠ "landed" → (v.cap n).status ≠ "landed" := by
    intro v n hv
    unfold Verdict.cap
    split
    · simp
    · exact hv
  unfold Standing.after
  simp only [Verdict.cap_phase]
  refine ⟨hcap _ _ ?_, ?_⟩
  · unfold verdict
    split
    · simp
    · exact absurd (by assumption) hpass
    · split <;> simp
    · simp
    · simp
  · unfold verdict
    split
    · exact Or.inl rfl
    · exact absurd (by assumption) hpass
    · split
      · exact Or.inl rfl
      · exact Or.inr (Or.inl ⟨rfl, by assumption⟩)
    · exact Or.inr (Or.inr ⟨rfl, by assumption⟩)
    · exact Or.inl rfl

/-! ### A lawful history -/

/-- The roles that have passed since the tester did, once the run is in the phase. -/
def passedBefore (phase : String) : List String :=
  match phase with
  | "review" => ["tester", "coder"]
  | "ops" => ["tester", "coder", "reviewer"]
  | _ => []

/-- What has passed where a history leads. -/
structure Chained (hist : List RoleHandoff) : Prop where
  /-- Nothing passes before the first phase is left. -/
  fresh : (standing hist).phase = "spec" → passedRoles hist = []
  /-- The architect passes first or never. -/
  first : "architect" ∈ passedRoles hist → (passedRoles hist).head? = some "architect"
  /-- After the tester the others pass in their order. -/
  rest : "tester" ∈ passedRoles hist →
    (passedBefore (standing hist).phase).Sublist (passedRoles hist)
  landed : (standing hist).status = "landed" → "tester" ∈ passedRoles hist →
    ["tester", "coder", "reviewer", "ops"].Sublist (passedRoles hist)

namespace Chained

variable {hist : List RoleHandoff} {h : RoleHandoff}

/-- One more pass leaves the first role where it is. -/
theorem first_snoc (ih : Chained hist) {role : String} (hrole : role ≠ "architect")
    (hmem : "architect" ∈ passedRoles hist ++ [role]) :
    (passedRoles hist ++ [role]).head? = some "architect" := by
  have hold : "architect" ∈ passedRoles hist := by
    rcases List.mem_append.mp hmem with hold | hnew
    · exact hold
    · exact absurd (List.mem_singleton.mp hnew).symm hrole
  rw [List.head?_append, ih.first hold]
  rfl

theorem tester_snoc {role : String} (hrole : role ≠ "tester")
    (hmem : "tester" ∈ passedRoles hist ++ [role]) : "tester" ∈ passedRoles hist := by
  rcases List.mem_append.mp hmem with hold | hnew
  · exact hold
  · exact absurd (List.mem_singleton.mp hnew).symm hrole

/-- A pass after the first moves the run on, and the first role stays the first. -/
theorem moved (ih : Chained hist) {role next : String}
    (hroles : passedRoles (hist ++ [h]) = passedRoles hist ++ [role]) (hrole : role ≠ "architect")
    (hwhere : (standing (hist ++ [h])).phase = next) (hnext : next ≠ "spec")
    (hstatus : (standing (hist ++ [h])).status ≠ "landed")
    (hrest : "tester" ∈ passedRoles hist ++ [role] →
      (passedBefore next).Sublist (passedRoles hist ++ [role])) : Chained (hist ++ [h]) := by
  refine ⟨fun hc => ?_, fun hmem => ?_, fun hmem => ?_, fun hc => ?_⟩
  · exact absurd (hwhere.symm.trans hc) hnext
  · rw [hroles] at hmem ⊢
    exact ih.first_snoc hrole hmem
  · rw [hroles] at hmem ⊢
    rw [hwhere]
    exact hrest hmem
  · exact absurd hc hstatus

/-- The owner of the phase passes, and the run moves on. -/
theorem snoc_pass (ih : Chained hist) (hphase : (standing hist).phase ∈ phases)
    (howns : h.role = roleForPhase (standing hist).phase) (hpass : h.outcome = "pass") :
    Chained (hist ++ [h]) := by
  obtain ⟨hlast, hnext⟩ := after_pass (p := standing hist) hpass
  rw [← standing_snoc] at hlast hnext
  have hroles := passedRoles_pass hist hpass
  rw [howns] at hroles
  have hrest := ih.rest
  simp only [phases, List.mem_cons, List.not_mem_nil, or_false] at hphase
  rcases hphase with hp | hp | hp | hp | hp
  all_goals rw [hp] at hlast hnext hroles hrest
  · -- The architect is the first to pass.
    obtain ⟨hwhere, hstatus⟩ := hnext "test" (by decide)
    rw [ih.fresh hp] at hroles
    refine ⟨fun hc => ?_, fun _ => ?_, fun _ => ?_, fun hc => ?_⟩
    · rw [hwhere] at hc
      simp at hc
    · rw [hroles]
      rfl
    · rw [hwhere]
      exact List.nil_sublist _
    · exact absurd hc hstatus
  · obtain ⟨hwhere, hstatus⟩ := hnext "code" (by decide)
    exact ih.moved hroles (by decide) hwhere (by decide) hstatus fun _ => List.nil_sublist _
  · obtain ⟨hwhere, hstatus⟩ := hnext "review" (by decide)
    refine ih.moved hroles (by decide) hwhere (by decide) hstatus fun hmem => ?_
    have htester := List.singleton_sublist.mpr (tester_snoc (by decide) hmem)
    exact htester.append (List.Sublist.refl ["coder"])
  · obtain ⟨hwhere, hstatus⟩ := hnext "ops" (by decide)
    refine ih.moved hroles (by decide) hwhere (by decide) hstatus fun hmem => ?_
    exact (hrest (tester_snoc (by decide) hmem)).append (List.Sublist.refl ["reviewer"])
  · have hlanded := hlast (by decide)
    refine ⟨fun hc => ?_, fun hmem => ?_, fun hmem => ?_, fun _ hmem => ?_⟩
    · rw [hlanded] at hc
      simp at hc
    · rw [hroles] at hmem ⊢
      exact ih.first_snoc (by decide) hmem
    · rw [hroles] at hmem ⊢
      rw [hlanded]
      exact (hrest (tester_snoc (by decide) hmem)).trans (List.sublist_append_left _ _)
    · rw [hroles] at hmem ⊢
      exact (hrest (tester_snoc (by decide) hmem)).append (List.Sublist.refl ["ops"])

/-- A handoff that is no pass changes nothing that has passed. -/
theorem snoc_other (ih : Chained hist) (hpass : h.outcome ≠ "pass") : Chained (hist ++ [h]) := by
  obtain ⟨hstatus, hwhere⟩ := after_other (p := standing hist) hpass
  have hroles := passedRoles_other hist hpass
  refine ⟨fun hc => ?_, fun hmem => ?_, fun hmem => ?_, fun hc => ?_⟩
  · rw [hroles]
    rw [standing_snoc] at hc
    rcases hwhere with hsame | ⟨hcode, -⟩ | ⟨htest, -⟩
    · exact ih.fresh (hsame.symm.trans hc)
    · simp [hcode] at hc
    · simp [htest] at hc
  · rw [hroles] at hmem ⊢
    exact ih.first hmem
  · rw [hroles] at hmem ⊢
    rw [standing_snoc]
    rcases hwhere with hsame | ⟨hcode, -⟩ | ⟨htest, -⟩
    · rw [hsame]
      exact ih.rest hmem
    · rw [hcode]
      exact List.nil_sublist _
    · rw [htest]
      exact List.nil_sublist _
  · rw [standing_snoc] at hc
    exact absurd hc hstatus

end Chained

/-- **What a lawful history has passed, it has passed in order.** -/
theorem Lawful.chained {hist : List RoleHandoff} (h : Lawful hist) : Chained hist := by
  induction h with
  | nil => exact ⟨fun _ => rfl, by simp [passedRoles], by simp [passedRoles], by simp [passedRoles]⟩
  | @snoc hist h hlawful _ howns _ _ ih =>
      by_cases hpass : h.outcome = "pass"
      · exact ih.snoc_pass hlawful.bounds.phase howns hpass
      · exact ih.snoc_other hpass

/-- Landed, the run has passed its whole chain as soon as it has passed the first two phases. -/
theorem Chained.chainPassed_iff {hist : List RoleHandoff} (h : Chained hist)
    (hlanded : (standing hist).status = "landed") :
    ChainPassed hist ↔ "architect" ∈ passedRoles hist ∧ "tester" ∈ passedRoles hist := by
  refine ⟨fun hchain => ⟨hchain.subset (by decide), hchain.subset (by decide)⟩, ?_⟩
  rintro ⟨hfirst, htester⟩
  obtain ⟨roles, hroles⟩ := List.head?_eq_some_iff.mp (h.first hfirst)
  have hrest := h.landed hlanded htester
  unfold ChainPassed
  rw [hroles] at hrest ⊢
  -- The architect's pass comes first, so the others are found after it.
  have hafter : ["tester", "coder", "reviewer", "ops"].Sublist roles := by
    rcases List.sublist_cons_iff.mp hrest with hafter | ⟨r, hr, -⟩
    · exact hafter
    · simp at hr
  exact hafter.cons_cons "architect"

/-! ### A history that does not leap -/

/-- Step by step, a run is in a phase only when the ones before it have passed. -/
theorem Lawful.passed_of_stepByStep {hist : List RoleHandoff} (h : Lawful hist)
    (hsteps : StepByStep hist) :
    ((standing hist).phase ≠ "spec" → "architect" ∈ passedRoles hist) ∧
      ((standing hist).phase ≠ "spec" → (standing hist).phase ≠ "test" →
        "tester" ∈ passedRoles hist) := by
  induction h with
  | nil => exact ⟨fun hc => absurd rfl hc, fun hc => absurd rfl hc⟩
  | @snoc hist h hlawful _ howns _ _ ih =>
      obtain ⟨harch, htest⟩ := ih hsteps.init
      have hleap := hsteps.last
      rw [standing_snoc]
      by_cases hspec : (standing hist).phase = "spec"
      · have hrole : h.role = "architect" := by
          rw [howns, hspec]
          rfl
        by_cases hpass : h.outcome = "pass"
        · obtain ⟨-, hnext⟩ := after_pass (p := standing hist) hpass
          obtain ⟨hwhere, -⟩ := hnext "test" (by rw [hspec]; decide)
          rw [passedRoles_pass hist hpass, hrole]
          exact ⟨fun _ => by simp, fun _ hc => absurd hwhere hc⟩
        · obtain ⟨-, hsame | ⟨-, hout⟩ | ⟨-, hout⟩⟩ := after_other (p := standing hist) hpass
          · exact ⟨fun hc => absurd (hsame.trans hspec) hc, fun hc => absurd (hsame.trans hspec) hc⟩
          · exact absurd (Or.inl ⟨hrole, Or.inl hout⟩) hleap
          · exact absurd (Or.inl ⟨hrole, Or.inr hout⟩) hleap
      have hkept : ∀ role, role ∈ passedRoles hist → role ∈ passedRoles (hist ++ [h]) := by
        intro role hmem
        by_cases hpass : h.outcome = "pass"
        · rw [passedRoles_pass hist hpass]
          exact List.mem_append_left _ hmem
        · rwa [passedRoles_other hist hpass]
      refine ⟨fun _ => hkept _ (harch hspec), fun _ hnottest => ?_⟩
      by_cases hphase : (standing hist).phase = "test"
      · have hrole : h.role = "tester" := by
          rw [howns, hphase]
          rfl
        by_cases hpass : h.outcome = "pass"
        · rw [passedRoles_pass hist hpass, hrole]
          exact List.mem_append_right _ (List.mem_singleton.mpr rfl)
        · obtain ⟨-, hsame | ⟨-, hout⟩ | ⟨hwhere, -⟩⟩ := after_other (p := standing hist) hpass
          · exact absurd (hsame.trans hphase) hnottest
          · -- Only a tester that has passed before may fail and be sent on to the code phase.
            by_contra hmissing
            refine hleap (Or.inr ⟨hrole, hout, fun hmem => hmissing (hkept _ hmem)⟩)
          · exact absurd hwhere hnottest
      · exact hkept _ (htest hspec hphase)

/-- A run lands from the last phase. -/
theorem Lawful.landed_phase {hist : List RoleHandoff} (h : Lawful hist)
    (hlanded : (standing hist).status = "landed") : (standing hist).phase = "ops" := by
  cases h with
  | nil => simp [standing] at hlanded
  | @snoc hist h hlawful _ _ _ _ =>
      rw [standing_snoc] at hlanded ⊢
      by_cases hpass : h.outcome = "pass"
      · obtain ⟨hlast, hnext⟩ := after_pass (p := standing hist) hpass
        cases hn : nextPhase (standing hist).phase with
        | some next => exact absurd hlanded (hnext next hn).2
        | none =>
            rw [hlast hn]
            have hphase := hlawful.bounds.phase
            simp only [phases, List.mem_cons, List.not_mem_nil, or_false] at hphase
            rcases hphase with hp | hp | hp | hp | hp
            all_goals rw [hp] at hn
            · exact absurd hn (by decide)
            · exact absurd hn (by decide)
            · exact absurd hn (by decide)
            · exact absurd hn (by decide)
            · exact hp
      · exact absurd hlanded (after_other hpass).1

/-! ### Runs -/

/--
**A run that lands has passed its whole chain exactly when the architect and the
tester have passed**, and it has whenever no handoff leapt ahead.
-/
theorem landed_chain_iff (st : AppState) (ctx : RequestCtx) (env : Ambient) (caller : Caller)
    (body : Except String StartInput) (s₀ s : Store) (resp : Response)
    (hruns : ∀ h ∈ s₀.roleHandoffs, s₀.featureRuns.has h.featureRunId = true)
    (hstart : exec (startRun st ctx env caller body) s₀ = (.ok resp, s))
    (reqs : List HandoffRequest) (run : FeatureRun)
    (hrun : (HandoffRequest.runAll st reqs s).featureRuns.find? ("FRN_" ++ env.uuid) = some run)
    (hlanded : run.status = "landed") :
    (StepByStep ((HandoffRequest.runAll st reqs s).handoffsOf ("FRN_" ++ env.uuid)) →
        ChainPassed ((HandoffRequest.runAll st reqs s).handoffsOf ("FRN_" ++ env.uuid))) ∧
      (ChainPassed ((HandoffRequest.runAll st reqs s).handoffsOf ("FRN_" ++ env.uuid)) ↔
        "architect" ∈
            passedRoles ((HandoffRequest.runAll st reqs s).handoffsOf ("FRN_" ++ env.uuid)) ∧
          "tester" ∈
            passedRoles ((HandoffRequest.runAll st reqs s).handoffsOf ("FRN_" ++ env.uuid))) := by
  obtain ⟨run₀, hnew⟩ := (startRun_new st ctx env caller body s₀ hruns hstart).inStep
  obtain ⟨run', hstep⟩ := hnew.runAll st reqs
  obtain rfl : run' = run := Option.some.inj (hstep.found.symm.trans hrun)
  have hstatus : (standing ((HandoffRequest.runAll st reqs s).handoffsOf
      ("FRN_" ++ env.uuid))).status = "landed" := by
    rw [hstep.stands]
    exact hlanded
  have hiff := hstep.lawful.chained.chainPassed_iff hstatus
  refine ⟨fun hsteps => hiff.mpr ?_, hiff⟩
  obtain ⟨harch, htest⟩ := hstep.lawful.passed_of_stepByStep hsteps
  have hphase := hstep.lawful.landed_phase hstatus
  exact ⟨harch (by simp [hphase]), htest (by simp [hphase]) (by simp [hphase])⟩

/-- The five passes, with one fail of the reviewer on the way. -/
def fivePasses : List HandoffRequest :=
  [report "FRN_1" "architect" "pass", report "FRN_1" "tester" "pass",
    report "FRN_1" "coder" "pass", report "FRN_1" "reviewer" "fail",
    report "FRN_1" "coder" "pass", report "FRN_1" "reviewer" "pass", report "FRN_1" "ops" "pass"]

/-- The architect fails, and the run goes on from the code phase. -/
def architectFails : List HandoffRequest :=
  [report "FRN_1" "architect" "fail", report "FRN_1" "coder" "pass",
    report "FRN_1" "reviewer" "pass", report "FRN_1" "ops" "pass"]

/-- The row of a run that landed. -/
def landedRun : FeatureRun where
  id := "FRN_1"
  caseId := none
  title := ""
  phase := "ops"
  status := "landed"

/-- A run that goes back once lands with its whole chain passed. -/
theorem five_passes_land :
    (HandoffRequest.runAll ⟨∅, ∅⟩ fivePasses startedStore).featureRuns.find? "FRN_1" =
        some landedRun ∧
      ChainPassed ((HandoffRequest.runAll ⟨∅, ∅⟩ fivePasses startedStore).handoffsOf "FRN_1") := by
  refine ⟨by decide, ?_⟩
  exact (landed_chain_iff ⟨∅, ∅⟩ plainCtx { uuid := "1" } ⟨"USR_dev", true⟩ (.ok {}) seededStore
    startedStore _ (by decide) rfl fivePasses landedRun (by decide) rfl).2.mpr
      ⟨by decide, by decide⟩

/-- A run whose architect failed lands without the first two phases. -/
theorem failed_architect_lands :
    ¬ ∀ (st : AppState) (ctx : RequestCtx) (env : Ambient) (caller : Caller)
      (body : Except String StartInput) (s₀ s : Store) (resp : Response),
      (∀ h ∈ s₀.roleHandoffs, s₀.featureRuns.has h.featureRunId = true) →
      exec (startRun st ctx env caller body) s₀ = (.ok resp, s) →
      ∀ (reqs : List HandoffRequest) (run : FeatureRun),
        (HandoffRequest.runAll st reqs s).featureRuns.find? ("FRN_" ++ env.uuid) = some run →
        run.status = "landed" →
        ChainPassed ((HandoffRequest.runAll st reqs s).handoffsOf ("FRN_" ++ env.uuid)) := by
  intro h
  have hchain := h ⟨∅, ∅⟩ plainCtx { uuid := "1" } ⟨"USR_dev", true⟩ (.ok {}) seededStore
    startedStore _ (by decide) rfl architectFails landedRun (by decide) rfl
  exact absurd hchain (by unfold ChainPassed; decide)

end Numu
