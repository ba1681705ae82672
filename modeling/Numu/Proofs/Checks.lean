/-
What a row is checked for before it is stored.

A create builds its data from the payload and the type alone.  An update builds it over
the row it read, and by the time it writes that row may be another one; what was
checked is what it had read.  So the row it stores is built, and checked as a whole,
over data the object had at some moment before, under the type the process knew then.

A handoff likewise moves its run as the verdict on the run it read.

The other endpoints build no data of the caller's.
-/
import Numu.Proofs.Authority

namespace Numu

open Fallible Handler

/-- A run as a handoff leaves it: the role was that of the phase, and the verdict moved it. -/
structure FeatureRun.MovedFrom (run seen : FeatureRun) (input : HandoffInput) : Prop where
  active : seen.status = "active"
  role : input.role = roleForPhase seen.phase
  outcome : outcomes.contains input.outcome = true
  moved : ∃ retries hop, run.phase = ((verdict seen.phase input.outcome retries).cap hop).phase ∧
    run.status = ((verdict seen.phase input.outcome retries).cap hop).status

/-- What the rows that a write of an endpoint stores were checked for. -/
def Endpoint.Checked (past : Store → Prop) (st : AppState) (ctx : RequestCtx) :
    Endpoint → Store → Store → Prop
  | .collCreate typeId headers body, s, t => ∀ row ∈ t.entityData, row ∉ s.entityData →
      ∃ td payload, TypeDefCache.get st.registry typeId = some td ∧ row.typeId = typeId ∧
        CreateAgreed st ctx td headers body payload ∧ row.data = buildCreateData td payload
  | .itemUpdate v typeId id headers body, s, t => ∀ row ∈ t.entityData, row ∉ s.entityData →
      ∃ td seen payload expected, TypeDefCache.get st.registry typeId = some td ∧
        row.entityId = id ∧ row.typeId = typeId ∧
        (∃ u, past u ∧ u.row? id typeId = some seen) ∧
        UpdateAgreed v st ctx td headers body seen.data payload expected ∧
        row.data = v.build td seen.data payload
  | .recordHandoff id body, s, t => ∀ run ∈ t.featureRuns, run ∉ s.featureRuns →
      ∃ input seen, body = .ok input ∧ run.id = id ∧
        (∃ u, past u ∧ u.featureRuns.find? id = some seen) ∧ run.MovedFrom seen input
  -- The others are known by their statements.
  | _, _, _ => True

theorem Endpoint.Checked.mono {past past' : Store → Prop} {st : AppState} {ctx : RequestCtx}
    {e : Endpoint} {s t : Store} (h : e.Checked past st ctx s t) (hp : ∀ s, past s → past' s) :
    e.Checked past' st ctx s t := by
  cases e with
  | itemUpdate =>
      intro row hrow hnew
      obtain ⟨td, seen, payload, expected, htd, hid, htype, ⟨u, hu, hseen⟩, hrest⟩ :=
        h row hrow hnew
      exact ⟨td, seen, payload, expected, htd, hid, htype, ⟨u, hp u hu, hseen⟩, hrest⟩
  | recordHandoff =>
      intro run hrun hnew
      obtain ⟨input, seen, hinput, hid, ⟨u, hu, hseen⟩, hmoved⟩ := h run hrun hnew
      exact ⟨input, seen, hinput, hid, ⟨u, hp u hu, hseen⟩, hmoved⟩
  | _ => exact h

section Handlers

variable {st : AppState} {ctx : RequestCtx} {env : Ambient} {caller : Caller}
  {typeId id : String} {headers : HeaderMap} {body : Body}

/-- Every row that a handler of the endpoint stores was checked. -/
abbrev ChecksRows (st : AppState) (ctx : RequestCtx) (e : Endpoint) (h : Handler Response) : Prop :=
  ∀ m, Guarded (fun m s t => e.Checked (Seen m) st ctx s t) (fun _ _ => True) h m

theorem checksRows_of_forall {e : Endpoint} {h : Handler Response}
    (he : ∀ past s t, e.Checked past st ctx s t) : ChecksRows st ctx e h :=
  fun _ => guarded_behind _ fun _ _ s t => he _ s t

theorem checksRows_collCreate :
    ChecksRows st ctx (.collCreate typeId headers body)
      (collCreate st ctx env caller typeId headers body) := by
  refine guarded_collCreate fun td payload resp m htd hagreed => ?_
  refine guarded_suffix (R := fun s t => ∀ row ∈ t.entityData, row ∉ s.entityData →
    row.typeId = typeId ∧ row.data = buildCreateData td payload) ?_ ?_
  · refine writes_bind (writes_execute ?_ ?_) fun _ => writes_bind (writes_recordEvent ?_ _ _ _ _ _)
      fun _ => (readOnly_pure _).writes
    · intro s row hrow hnew
      exact absurd hrow hnew
    · intro s u t h row hrow hnew
      obtain ⟨ents, rows, e, cases, -, hrows, -, -, -, -, -, -, -, -, rfl⟩ := createTx_ok h
      rcases (Table.mem_insert hrows).mp hrow with hold | rfl
      · exact absurd hold hnew
      · exact ⟨rfl, rfl⟩
    · intro s evs row hrow hnew
      exact absurd hrow hnew
  · intro m' _ s t hwrote row hrow hnew
    obtain ⟨htype, hdata⟩ := hwrote row hrow hnew
    exact ⟨td, payload, htd, htype, hagreed, hdata⟩

theorem checksRows_itemUpdate {v : UpdateVerb} :
    ChecksRows st ctx (.itemUpdate v typeId id headers body)
      (itemUpdate v st ctx env caller typeId id headers body) := by
  refine guarded_itemUpdate_rows ?_ ?_
  · intro m s t hsame row hrow hnew
    exact absurd (hsame ▸ hrow) hnew
  · intro td seen payload expected m s stored ver htd hseen hstored _ row hrow hnew
    obtain ⟨u, hread, hu⟩ := hseen.found
    rcases Table.mem_upsert.mp hrow with rfl | ⟨hold, -⟩
    · have hid : stored.entityId = id := Store.row?_entityId hstored
      exact ⟨td, seen, payload, expected, htd, hid, (Store.row?_eq_some.mp hstored).2,
        ⟨u, ⟨_, hread, rfl⟩, hu⟩, hseen.agreed, rfl⟩
    · exact absurd hold hnew

theorem mem_updateFeatureRun {rid phase status : String} {now : Timestamp} {s t : Store} {u : Unit}
    (h : updateFeatureRun rid phase status now s = .ok (u, t)) {run : FeatureRun}
    (hrun : run ∈ t.featureRuns) : run ∈ s.featureRuns ∨
      run.id = rid ∧ run.phase = phase ∧ run.status = status := by
  obtain ⟨-, rfl⟩ := Prod.mk.inj (Except.ok.inj h)
  obtain ⟨old, hold, rfl⟩ := List.mem_map.mp hrun
  by_cases hid : old.id = rid
  · rw [if_pos hid]
    exact Or.inr ⟨hid, rfl, rfl⟩
  · rw [if_neg hid]
    exact Or.inl hold

/-- The writes of a handoff leave every run as it was, but its own as the verdict says. -/
theorem writes_handoff {caseId : Option String} {input : HandoffInput} {v : Verdict} {hop : Nat} :
    Writes (fun s t => ∀ run ∈ t.featureRuns, run ∉ s.featureRuns →
        run.id = id ∧ run.phase = v.phase ∧ run.status = v.status)
      (handoffWrites ctx env caller id caseId input v hop) := by
  refine writes_bind (writes_execute (fun s run hrun hnew => absurd hrun hnew) ?_) fun _ => ?_
  · intro s u t h run hrun hnew
    obtain ⟨-, rfl⟩ := insertHandoff_ok h
    exact absurd hrun hnew
  refine writes_bind (writes_execute (fun s run hrun hnew => absurd hrun hnew) ?_) fun _ => ?_
  · intro s u t h run hrun hnew
    rcases mem_updateFeatureRun h hrun with hold | hmoved
    · exact absurd hold hnew
    · exact hmoved
  refine writes_bind (writes_recordEvent (fun s evs run hrun hnew => absurd hrun hnew) _ _ _ _ _)
    fun _ => ?_
  exact (readOnly_bind readOnly_loadRun fun _ => readOnly_pure _).writes

theorem checksRows_recordHandoff {input : Except String HandoffInput} :
    ChecksRows st ctx (.recordHandoff id input) (recordHandoff st ctx env caller id input) := by
  intro m
  refine guarded_check_bind fun i hi => ?_
  obtain rfl : input = .ok i := mapError_ok hi
  refine guarded_ensure_bind fun houtcome => ?_
  refine guarded_query_bind fun u => ?_
  refine guarded_getOr_bind fun seen hseen => ?_
  refine guarded_readOnly_bind readOnly_requireRunAuthority (answers_true _) fun _ m₁ _ hm₁ => ?_
  refine guarded_ensure_bind fun hactive => ?_
  refine guarded_ensure_bind fun hrole => ?_
  refine guarded_query_bind fun counted => ?_
  refine guarded_readOnly_bind readOnly_countRetries (answers_true _) fun retries m₂ _ hm₂ => ?_
  refine guarded_suffix writes_handoff fun m' hm' s t hwrote run hrun hnew => ?_
  obtain ⟨hid, hphase, hstatus⟩ := hwrote run hrun hnew
  -- The run was read before its authority was asked for.
  have hread : Seen m' u :=
    Seen.read.mono (hm₁.trans ((List.suffix_cons _ m₁).trans (hm₂.trans hm')))
  exact ⟨i, seen, rfl, hid, ⟨u, hread, hseen⟩, by simpa using hactive, by simpa using hrole,
    houtcome, retries, _, hphase, hstatus⟩

end Handlers

end Numu
