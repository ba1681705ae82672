/-
The history of a case.

Seen through its version and its data, a case is a cell that a create fills and
updates carry from version to version; as long as nothing deletes it, it has a
content for every version (`Versioned.Chronicle`).  A create starts it in the
initial state of its workflow.  An update checks the move from the status it read,
in a statement before the one that writes, so what it checks is a move of the
history only because the row it replaces is the one it read: the version it expects
was issued before it began.
-/
import Numu.Proofs.Schema

namespace Numu

open Fallible Handler Contract

/-! ### Creates and updates let the row grow -/

section Grow

variable {First : Json → Prop} {Next : Json → Json → Prop} {x : String} {i : Nat}
  {w : World Store} {st : AppState}

theorem grow_of_eq {s t : Store} (h : rowCell x t = rowCell x s) :
    Versioned.Grow First Next (rowCell x s) (rowCell x t) := by
  rw [h]
  exact .same _

theorem rowCell_upsert_other {s t : Store} {d : EntityData} (hid : d.entityId ≠ x)
    (ht : t.entityData = s.entityData.upsert d) : rowCell x t = rowCell x s := by
  unfold rowCell
  rw [ht, Table.find?_upsert, if_neg hid]

/-- What follows the write of the row leaves all rows. -/
theorem keepsF_growTail {α : Type} {p : Handler α}
    (hp : Writes (fun s t => t.entityData = s.entityData) p) :
    (Versioned.growContract (rowCell x) First Next).KeepsF i (fun _ _ => True) p w := by
  refine keepsF_of_writes (S := fun _ => True) hp (answers_true _) (fun _ _ _ _ => trivial) ?_
    (fun _ _ _ _ => trivial) w trivial
  intro w' update _ _ hdata
  exact ⟨⟨update w'.now, rfl, grow_of_eq (rowCell_congr hdata)⟩, trivial⟩

theorem guar_grow_same {t : Store} (h : rowCell x t = rowCell x w.now) :
    (Versioned.growContract (rowCell x) First Next).guar i w (w.commit i fun _ => t) :=
  ⟨t, rfl, grow_of_eq h⟩

/-- A create fills the row of a new entity. -/
theorem keepsF_growCreate {ctx : RequestCtx} {env : Ambient} {caller : Caller} {typeId : String}
    {headers : HeaderMap} {body : Body}
    (hfirst : ∀ td payload, TypeDefCache.get st.registry typeId = some td →
      CreateAgreed st ctx td headers body payload → First (buildCreateData td payload)) :
    (Versioned.growContract (rowCell x) First Next).KeepsF i (fun _ _ => True)
      (collCreate st ctx env caller typeId headers body) w := by
  refine keepsF_collCreate (fun _ _ _ _ => trivial) ?_
  intro td payload resp w₁ htd hagreed _ _
  refine keepsF_execute_bind ?_ ?_
  · intro w' u t _ _ hq
    refine ⟨?_, keepsF_growTail (writes_bind (writes_data_recordEvent _ _ _ _ _) fun _ =>
      (readOnly_pure _).writes)⟩
    by_cases hid : x = mint td env.uuid
    · obtain ⟨ents, rows, e, cases, -, hrows, -, -, -, -, -, -, -, -, rfl⟩ := createTx_ok hq
      have hempty : rowCell x w'.now = none := by
        have hfree := (Table.insert_eq_some hrows).1
        rw [Table.has_eq_false] at hfree
        unfold rowCell
        rw [hid, hfree]
        rfl
      refine ⟨_, rfl, ?_⟩
      rw [hempty]
      have hfull := Table.find?_insert hrows x
      rw [if_pos hid.symm] at hfull
      rw [rowCell_eq_some hfull]
      exact .born rfl (hfirst td payload htd hagreed)
    · exact guar_grow_same (rowCell_createTx hq hid)
  · intro w' y _ _ _
    exact ⟨guar_grow_same rfl, fun _ _ _ => trivial⟩

/-- An update puts the next version of the row it read, when the version it names was issued. -/
theorem keepsF_growUpdate {v : UpdateVerb} {ctx : RequestCtx} {env : Ambient} {caller : Caller}
    {typeId id : String} {headers : HeaderMap} {body : Body}
    (hnext : ∀ td base payload e, TypeDefCache.get st.registry typeId = some td →
      UpdateAgreed v st ctx td headers body base payload e → Next base (v.build td base payload))
    (hissued : ∀ e, (ifMatch headers).join = some e → Issued id e w) :
    (Versioned.growContract (rowCell x) First Next).KeepsF i (fun _ _ => True)
      (itemUpdate v st ctx env caller typeId id headers body) w := by
  refine keepsF_itemUpdate (fun _ _ _ _ => trivial) ?_
  intro td w₁ row payload e w₂ htd hr₁ hinv₁ hrow hagreed hr₂ _
  unfold updateWrites
  refine keepsF_execute_bind ?_ ?_
  · intro w' affected t hr hinv hq
    refine ⟨?_, keepsF_growTail ?_⟩
    · rcases updateEntityData_ok hq with ⟨-, rfl, -⟩ | ⟨-, row', ver, hrow', hver, hsucc, -, ht⟩
      · exact guar_grow_same rfl
      have hid : row'.entityId = id := Store.row?_entityId hrow'
      by_cases hx : id = x
      · subst hx
        -- The version was issued before the row was read, so what is replaced is what was read.
        obtain ⟨t₀, a, ht₀, ha, hle⟩ := hissued e (ifMatch_of_require hagreed.matched)
        have hread := rowCell_eq_some (Store.row?_eq_some.mp hrow).1
        have hnow : rowCell id w'.now = some ⟨e.val, row'.data⟩ := by
          rw [rowCell_eq_some (Store.row?_eq_some.mp hrow').1, hver]
        have hlatest := hinv₁.history.latest t₀ a _ (hr₁ t₀ ht₀) ha hread
        have heq := hinv.history.base_eq (hr _ (hr₂ _ (Or.inl rfl))) hread hnow (hle.trans hlatest)
        have hbase : row.data = row'.data := congrArg Versioned.content heq
        refine ⟨t, rfl, ?_⟩
        have hafter : rowCell id t = some ⟨ver.val, v.build td row.data payload⟩ := by
          rw [ht]
          exact rowCell_upsert (updatedRow td row' (v.build td row.data payload) ver env.now) hid
            rfl
        rw [hnow, hafter]
        refine .next (I32.succ?_eq_some.mp hsucc) ?_
        show Next row'.data (v.build td row.data payload)
        rw [← hbase]
        exact hnext td row.data payload e htd hagreed
      · rw [ht]
        refine guar_grow_same (rowCell_upsert_other (d := updatedRow td row'
          (v.build td row.data payload) ver env.now) ?_ rfl)
        intro hc
        exact hx (hid.symm.trans hc)
    · refine writes_bind (readOnly_ensure _ _).writes fun _ => ?_
      refine writes_bind (writes_onlyIf (writes_execute (fun _ => rfl) ?_)) fun _ => ?_
      · intro s u s' hs
        rw [(upsertCase_ok hs).2]
      · exact writes_bind (writes_data_recordEvent _ _ _ _ _) fun _ => (readOnly_pure _).writes
  · intro w' y _ _ _
    exact ⟨guar_grow_same rfl, fun _ _ _ => trivial⟩

end Grow

/-! ### Legal histories -/

/-- What the workflow says when it lets a status through. -/
theorem validate_ok {c : WorkflowCache} {workflowId new : String} {old : Option String}
    (h : WorkflowCache.validate c workflowId old new = .ok ()) :
    ∃ wf, WorkflowCache.get c workflowId = some wf ∧ wf.isState new = true ∧
      (old = none → new = wf.initial) ∧
      ∀ o, old = some o → o = new ∨ ∃ ts, wf.targets o = some ts ∧ new ∈ ts := by
  unfold WorkflowCache.validate at h
  cases hget : WorkflowCache.get c workflowId with
  | none => simp [hget] at h
  | some wf =>
      simp only [hget] at h
      by_cases hstate : wf.isState new = true
      rotate_left
      · simp [hstate] at h
      rw [if_neg (by simp [hstate])] at h
      refine ⟨wf, rfl, hstate, fun hold => ?_, fun o hold => ?_⟩
      · by_contra hne
        simp [hold, hne] at h
      · by_cases hsame : o = new
        · exact Or.inl hsame
        right
        by_contra hnone
        have hbad : ¬ ((wf.targets o).any fun ts => ts.contains new) = true := by
          rw [Option.any_eq_true]
          rintro ⟨ts, hts, hmem⟩
          exact hnone ⟨ts, hts, List.contains_iff_mem.mp hmem⟩
        simp only [hold] at h
        rw [if_pos ⟨hsame, hbad⟩] at h
        simp at h

/-- The data of a new case. -/
def FirstStatus (st : AppState) (c : Json) : Prop :=
  c.str? "workflow_id" = some "default" ∧ ∃ state, c.str? "status" = some state ∧
    WorkflowCache.validate st.workflows "default" none state = .ok ()

/-- The data that an update makes of the data of a case. -/
def NextStatus (st : AppState) (c d : Json) : Prop :=
  d.str? "workflow_id" = c.str? "workflow_id" ∧ ∃ state, d.str? "status" = some state ∧
    WorkflowCache.validate st.workflows ((d.str? "workflow_id").getD "default") (c.str? "status")
      state = .ok ()

/-- An update may begin when the version it names was issued for the case it names. -/
def CaseIssued (reqs : Nat → CaseWrite) (n : Nat) (p : Pool Store (Except AppError Response)) :
    Prop :=
  match reqs n with
  | .create _ _ _ _ _ => True
  | .update _ _ _ _ id headers _ => ∀ e, (ifMatch headers).join = some e → Issued id e p.world

theorem CaseWrite.grows {st : AppState} (hcase : TypeDefCache.get st.registry "case" = some caseType)
    (reqs : Nat → CaseWrite) {x : String} {p : Pool Store (Except AppError Response)}
    (h : CaseIssued reqs p.threads.length p) :
    (Versioned.growContract (rowCell x) (FirstStatus st) (NextStatus st)).KeepsF p.threads.length
      (fun _ _ => True) ((reqs p.threads.length).handle st) p.world := by
  unfold CaseIssued at h
  cases hreq : reqs p.threads.length with
  | create ctx env caller headers body =>
      refine keepsF_growCreate ?_
      intro td payload htd hagreed
      obtain rfl := Option.some.inj (hcase.symm.trans htd)
      obtain ⟨state, -, hstate⟩ := caseStatus_of_final hagreed.wellFormed
      have hinitial := hagreed.initial
      rw [validateNewCase, if_pos (show caseType.typeId = "case" from rfl), workflow_created,
        hstate] at hinitial
      exact ⟨workflow_created payload, state, hstate, mapError_ok hinitial⟩
  | update v ctx env caller id headers body =>
      rw [hreq] at h
      refine keepsF_growUpdate ?_ h
      intro td base payload e htd hagreed
      obtain rfl := Option.some.inj (hcase.symm.trans htd)
      obtain ⟨state, -, hstate⟩ := caseStatus_of_final hagreed.wellFormed
      have hlegal := hagreed.legal rfl
      rw [hstate] at hlegal
      refine ⟨?_, state, hstate, hlegal⟩
      obtain ⟨pm, hobj, -⟩ := readJson_ok hagreed.parsed
      have hfield : workflowField ∈ caseType.fields := by decide
      exact congrArg (Option.bind · Json.asStr?)
        (build_frozen ⟨pm, hobj⟩ hagreed.editable hfield (by decide))

/-- The statuses of a case, in the order of its versions, are a path of the workflow. -/
structure LegalHistory (wf : Workflow) (x : String) (w : World Store) : Prop where
  /-- Every version has one content, and there is one for every version from the first to the
  present. -/
  determined : ∀ t u a b, w.Visited t → w.Visited u → rowCell x t = some a → rowCell x u = some b →
    a.version = b.version → a = b
  complete : ∀ t a, w.Visited t → rowCell x t = some a → 1 ≤ a.version ∧ (1 < a.version →
    ∃ u b, w.Visited u ∧ rowCell x u = some b ∧ a.version = b.version + 1)
  named : ∀ t a, w.Visited t → rowCell x t = some a → a.content.str? "workflow_id" = some "default"
  initial : ∀ t a, w.Visited t → rowCell x t = some a → a.version = 1 →
    a.content.str? "status" = some wf.initial
  states : ∀ t a, w.Visited t → rowCell x t = some a → ∃ state,
    a.content.str? "status" = some state ∧ wf.isState state = true
  moves : ∀ t u a b, w.Visited t → w.Visited u → rowCell x t = some a → rowCell x u = some b →
    b.version = a.version + 1 → ∃ old new, a.content.str? "status" = some old ∧
      b.content.str? "status" = some new ∧ (old ≠ new → ∃ ts, wf.targets old = some ts ∧ new ∈ ts)

/-- A chronicle of statuses that were let through is a path of the workflow. -/
theorem LegalHistory.of_chronicle {st : AppState} {wf : Workflow} {x : String} {w : World Store}
    (hget : WorkflowCache.get st.workflows "default" = some wf)
    (h : Versioned.Chronicle (FirstStatus st) (NextStatus st) (rowCell x) w) :
    LegalHistory wf x w := by
  have hvalid : ∀ {old : Option String} {new : String},
      WorkflowCache.validate st.workflows "default" old new = .ok () →
      wf.isState new = true ∧ (old = none → new = wf.initial) ∧
        ∀ o, old = some o → o = new ∨ ∃ ts, wf.targets o = some ts ∧ new ∈ ts := by
    intro old new hok
    obtain ⟨wf', hwf', hrest⟩ := validate_ok hok
    obtain rfl := Option.some.inj (hget.symm.trans hwf')
    exact hrest
  -- Every content names the workflow and a status of it, from the first one on.
  have hcontent : ∀ t a, w.Visited t → rowCell x t = some a →
      a.content.str? "workflow_id" = some "default" ∧
        ∃ state, a.content.str? "status" = some state ∧ wf.isState state = true := by
    refine h.forall_content (P := fun c => c.str? "workflow_id" = some "default" ∧
      ∃ state, c.str? "status" = some state ∧ wf.isState state = true) ?_ ?_
    · rintro c ⟨hname, state, hstate, hok⟩
      exact ⟨hname, state, hstate, (hvalid hok).1⟩
    · rintro c d ⟨hdefault, -⟩ ⟨hname, state, hstate, hok⟩
      rw [hname, hdefault] at hok
      exact ⟨hname.trans hdefault, state, hstate, (hvalid hok).1⟩
  refine
    { determined := h.determined
      complete := fun t a ht ha => ⟨(h.first t a ht ha).1, h.complete t a ht ha⟩
      named := fun t a ht ha => (hcontent t a ht ha).1
      initial := ?_
      states := fun t a ht ha => (hcontent t a ht ha).2
      moves := ?_ }
  · intro t a ht ha hone
    obtain ⟨-, state, hstate, hok⟩ := (h.first t a ht ha).2 hone
    rw [hstate, (hvalid hok).2.1 rfl]
  · intro t u a b ht hu ha hb hver
    obtain ⟨hname, new, hnew, hok⟩ := h.step t u a b ht hu ha hb hver
    obtain ⟨hdefault, old, hold, -⟩ := hcontent t a ht ha
    rw [hname, hdefault] at hok
    refine ⟨old, new, hold, hnew, fun hne => ?_⟩
    rcases (hvalid hok).2.2 old hold with heq | hmove
    · exact absurd heq hne
    · exact hmove

/-- Without the workflow no case is ever made. -/
theorem never_made {st : AppState} {x : String} {w : World Store}
    (hget : WorkflowCache.get st.workflows "default" = none)
    (h : Versioned.Chronicle (FirstStatus st) (NextStatus st) (rowCell x) w) :
    ∀ t, w.Visited t → rowCell x t = none := by
  intro t ht
  cases hcell : rowCell x t with
  | none => rfl
  | some a =>
      refine (h.forall_content (P := fun _ => False) ?_ (fun _ _ h _ => h) t a ht hcell).elim
      rintro c ⟨-, state, -, hvalid⟩
      obtain ⟨wf, hwf, -⟩ := validate_ok hvalid
      rw [hget] at hwf
      simp at hwf

/--
**In every interleaving of requests on cases, each of which names a version that
was issued before it began, the statuses of every case that is created are a path
of the workflow from its initial state.**
-/
theorem case_histories_legal (st : AppState)
    (hcase : TypeDefCache.get st.registry "case" = some caseType) (reqs : Nat → CaseWrite)
    (s : Store) (x : String) (hnew : s.entityData.find? x = none)
    (p : Pool Store (Except AppError Response))
    (hrun : Pool.Run (fun n => ((reqs n).handle st).run) (CaseIssued reqs) (Pool.start s) p) :
    (∀ t, p.world.Visited t → rowCell x t = none) ∨
      ∃ wf, WorkflowCache.get st.workflows "default" = some wf ∧ LegalHistory wf x p.world := by
  have hstart : rowCell x s = none := by
    unfold rowCell
    rw [hnew]
    rfl
  have hpool : PoolOk (Versioned.growContract (rowCell x) (FirstStatus st) (NextStatus st))
      (fun _ _ _ => True) p := by
    refine run_ok (Versioned.Chronicle.start hstart) ?_ hrun
    intro q _ hallow
    exact CaseWrite.grows hcase reqs hallow
  cases hget : WorkflowCache.get st.workflows "default" with
  | none => exact Or.inl (never_made hget hpool.inv)
  | some wf => exact Or.inr ⟨wf, rfl, .of_chronicle hget hpool.inv⟩

/-- A case is made, moved on, and replaced without naming a status. -/
def caseLife : Nat → CaseWrite
  | 0 => .create plainCtx { uuid := "2" } ⟨"USR_alice", true⟩ versionOne
      (.ok ⟨.obj [("project_id", .str "PRJ_1"), ("title", .str "Slow")], by simp [JsonMap.keys]⟩)
  | 1 => .update .patch plainCtx {} ⟨"USR_alice", true⟩ "CAS_2" versionOne
      (.ok ⟨.obj [("status", .str "todo")], by simp [JsonMap.keys]⟩)
  | _ => .update .put plainCtx {} ⟨"USR_alice", true⟩ "CAS_2"
      { contentType := some (some "application/json"), ifMatch := some (some "W/\"2\"") }
      (.ok ⟨.obj [("title", .str "Slow start")], by simp [JsonMap.keys]⟩)

/-- Each request is started when the one before it has been answered. -/
def caseLifePool (n : Nat) : Pool Store (Except AppError Response) :=
  n.repeat (fun p => Pool.play (fun n => ((caseLife n).handle caseState).run) p
    (.spawn :: (List.replicate 7 p.threads.length).map .advance)) (Pool.start caseStore)

theorem caseLife_run :
    Pool.Run (fun n => ((caseLife n).handle caseState).run) (CaseIssued caseLife)
      (Pool.start caseStore) (caseLifePool 3) := by
  have hmade : CaseIssued caseLife 1 (caseLifePool 1) := by
    intro e he
    obtain rfl : 1 = e := Option.some.inj he
    exact ⟨(caseLifePool 1).world.now, _, Or.inl rfl, rfl, by decide⟩
  have hmoved : CaseIssued caseLife 2 (caseLifePool 2) := by
    intro e he
    obtain rfl : 2 = e := Option.some.inj he
    exact ⟨(caseLifePool 2).world.now, _, Or.inl rfl, rfl, by decide⟩
  have hfirst : Pool.Run (fun n => ((caseLife n).handle caseState).run) (CaseIssued caseLife)
      (Pool.start caseStore) (caseLifePool 1) := Pool.spawn_run trivial _
  exact (hfirst.trans (Pool.spawn_run hmade _)).trans (Pool.spawn_run hmoved _)

/-- The case went from backlog to todo, and back when its status was reset. -/
theorem case_life_legal :
    ((caseLifePool 3).world.now.entityData.find? "CAS_2").map
        (fun d => (d.version, d.data.str? "status")) = some (3, some "backlog") ∧
      ∃ wf, WorkflowCache.get caseState.workflows "default" = some wf ∧
        LegalHistory wf "CAS_2" (caseLifePool 3).world := by
  refine ⟨by decide, ?_⟩
  rcases case_histories_legal caseState rfl caseLife caseStore "CAS_2" (by decide) _ caseLife_run with
    hnone | hlegal
  · have hcell := hnone _ (Or.inl rfl)
    exact absurd hcell (by decide)
  · exact hlegal

end Numu
