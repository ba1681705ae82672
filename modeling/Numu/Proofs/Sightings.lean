/-
What a create or an update has seen by the time it writes.

An update checks what it read one statement at a time, so by the time it writes
each check speaks of its own state: one in which it read the row, one in which it
read its caller's rank, one for every floor and one for every close check.  All of
them are in its memory, and that is everything that can be said of an update that
runs among others.
-/
import Numu.Lib.Watch
import Numu.Proofs.Steps

namespace Numu

open Fallible Handler

variable {W : List (Glance Store) → Store → Store → Prop} {st : AppState} {ctx : RequestCtx}
  {env : Ambient} {caller : Caller} {td : TypeDef} {typeId id : String} {headers : HeaderMap}
  {body : Body}

/-! ### The write gate -/

/-- The caller's rank on the object, as it was seen at some moment, reached the write floor of the
field, as it was seen at some moment. -/
def FloorSeen (m : List (Glance Store)) (caller : Caller) (td : TypeDef) (id : String)
    (f : FieldDef) : Prop :=
  ∃ g ∈ m, ∃ h ∈ m,
    (h.state.fieldFloors td.typeId f.field f.permClass).2 ≤ g.state.callerRank caller id

instance (m : List (Glance Store)) (caller : Caller) (td : TypeDef) (id : String) (f : FieldDef) :
    Decidable (FloorSeen m caller td id f) :=
  inferInstanceAs (Decidable (∃ g ∈ m, ∃ h ∈ m,
    (h.state.fieldFloors td.typeId f.field f.permClass).2 ≤ g.state.callerRank caller id))

theorem FloorSeen.mono {m m' : List (Glance Store)} {f : FieldDef} (hm : m <:+ m')
    (h : FloorSeen m caller td id f) : FloorSeen m' caller td id f := by
  obtain ⟨g, hg, k, hk, hle⟩ := h
  exact ⟨g, hm.mem hg, k, hm.mem hk, hle⟩

theorem guarded_rankOn {m : List (Glance Store)} (hm : m ≠ []) :
    Guarded W (fun rank m' => m <:+ m' ∧ ∃ g ∈ m', rank = g.state.callerRank caller id)
      (rankOn caller id) m := by
  unfold rankOn
  by_cases hadmin : caller.isPlatformAdmin = true
  · rw [if_pos hadmin]
    obtain ⟨g, hg⟩ := List.exists_mem_of_ne_nil m hm
    refine guarded_pure ⟨List.suffix_refl m, g, hg, ?_⟩
    rw [Store.callerRank, if_pos hadmin]
  · rw [if_neg hadmin]
    refine guarded_query_bind fun s => ?_
    refine guarded_pure ⟨List.suffix_cons _ m, _, List.mem_cons_self, ?_⟩
    rw [Store.callerRank, if_neg hadmin]
    rfl

theorem guarded_requireWriteEach {rank : I32} (written : List String) :
    ∀ m, Guarded W (fun _ m' => m <:+ m' ∧ ∀ k ∈ written, ∀ f, td.field k = some f →
        ∃ h ∈ m', (h.state.fieldFloors td.typeId f.field f.permClass).2 ≤ rank)
      (requireWriteEach td rank ctx written) m := by
  induction written with
  | nil => intro m; exact guarded_pure ⟨List.suffix_refl m, by simp⟩
  | cons k rest ih =>
      intro m
      rw [requireWriteEach]
      cases hk : td.field k with
      | none =>
          refine guarded_weaken (ih m) fun _ m' hkept => ?_
          obtain ⟨hm, hrest⟩ := hkept
          refine ⟨hm, fun l hl f hf => ?_⟩
          rcases List.mem_cons.mp hl with rfl | hl
          · rw [hk] at hf
            simp at hf
          · exact hrest l hl f hf
      | some f =>
          obtain ⟨-, hname⟩ := TypeDef.field_eq_some.mp hk
          refine guarded_query_bind fun s => guarded_ensure_bind fun hfloor => ?_
          refine guarded_weaken (ih _) fun _ m' hkept => ?_
          obtain ⟨hm, hrest⟩ := hkept
          refine ⟨(List.suffix_cons _ m).trans hm, fun l hl g hg => ?_⟩
          rcases List.mem_cons.mp hl with rfl | hl
          · obtain rfl : f = g := Option.some.inj (hk.symm.trans hg)
            refine ⟨.read s, hm.mem List.mem_cons_self, ?_⟩
            have hle := of_decide_eq_true hfloor
            rw [hname]
            exact hle
          · exact hrest l hl g hg

/-- The write gate lets a field through only if its floor was seen reached. -/
theorem guarded_requireWrite {written : List String} {m : List (Glance Store)} (hm : m ≠ []) :
    Guarded W (fun _ m' => m <:+ m' ∧ ∀ k ∈ written, ∀ f, td.field k = some f →
        FloorSeen m' caller td id f)
      (requireWrite caller td id written ctx) m := by
  unfold requireWrite
  refine guarded_bind (guarded_weaken (guarded_rankOn hm) fun rank m₁ hrank => ?_)
  obtain ⟨hm₁, g, hg, rfl⟩ := hrank
  by_cases hmax : g.state.callerRank caller id = I32.max
  · rw [if_pos hmax]
    refine guarded_pure ⟨hm₁, fun k _ f _ => ⟨g, hg, g, hg, ?_⟩⟩
    rw [hmax]
    exact I32.le_max _
  · rw [if_neg hmax]
    refine guarded_weaken (guarded_requireWriteEach written m₁) fun _ m₂ ⟨hm₂, hfloors⟩ => ?_
    refine ⟨hm₁.trans hm₂, fun k hk f hf => ?_⟩
    obtain ⟨h, hh, hle⟩ := hfloors k hk f hf
    exact ⟨g, hm₂.mem hg, h, hh, hle⟩

/-! ### The close gate -/

theorem guarded_unmetCloseChecks (names : List String) :
    ∀ m, Guarded W (fun unmet m' => m <:+ m' ∧
        ∀ name ∈ names, name ∈ unmet ∨ ∃ g ∈ m', g.state.checkPassed id name = true)
      (unmetCloseChecks id names) m := by
  induction names with
  | nil => intro m; exact guarded_pure ⟨List.suffix_refl m, by simp⟩
  | cons name rest ih =>
      intro m
      rw [unmetCloseChecks]
      refine guarded_query_bind fun s => ?_
      refine guarded_bind (guarded_weaken (ih _) fun unmet m' ⟨hm, hrest⟩ => ?_)
      refine guarded_pure ⟨(List.suffix_cons _ m).trans hm, fun l hl => ?_⟩
      rcases List.mem_cons.mp hl with rfl | hl
      · by_cases hpassed : s.checkPassed id l = true
        · exact Or.inr ⟨.read s, hm.mem List.mem_cons_self, hpassed⟩
        · rw [if_neg hpassed]
          exact Or.inl List.mem_cons_self
      · rcases hrest l hl with hunmet | hseen
        · split
          · exact Or.inl hunmet
          · exact Or.inl (List.mem_cons_of_mem _ hunmet)
        · exact Or.inr hseen

/-- The workflow closes with this status, and every close check was seen passed. -/
def ClosedOnSight (st : AppState) (m : List (Glance Store)) (id : String) (data : Json)
    (old : Option String) : Prop :=
  ∀ wf, WorkflowCache.get st.workflows ((data.str? "workflow_id").getD "default") = some wf →
    wf.isTerminal ((data.str? "status").getD "") = true →
    old ≠ some ((data.str? "status").getD "") →
    ∀ name ∈ wf.closeChecks, ∃ g ∈ m, g.state.checkPassed id name = true

/-- A status change goes through only if it is legal and the checks it needs were seen passed. -/
theorem guarded_validateCaseChange {data : Json} {old : Option String} (m : List (Glance Store)) :
    Guarded W (fun _ m' => m <:+ m' ∧
        WorkflowCache.validate st.workflows ((data.str? "workflow_id").getD "default") old
          ((data.str? "status").getD "") = .ok () ∧ ClosedOnSight st m' id data old)
      (validateCaseChange st id data old ctx) m := by
  unfold validateCaseChange
  refine guarded_check_bind fun _ hlegal => ?_
  have hvalid := mapError_ok hlegal
  cases hget : WorkflowCache.get st.workflows ((data.str? "workflow_id").getD "default") with
  | none =>
      refine guarded_pure ⟨List.suffix_refl m, hvalid, fun wf hwf => ?_⟩
      rw [hget] at hwf
      simp at hwf
  | some wf =>
      have hsame : ∀ {wf' : Workflow}, WorkflowCache.get st.workflows
          ((data.str? "workflow_id").getD "default") = some wf' → wf = wf' :=
        fun h => Option.some.inj (hget.symm.trans h)
      show Guarded W _ (ite _ _ _) m
      split
      · refine guarded_bind (guarded_weaken (guarded_unmetCloseChecks _ m)
          fun unmet m' ⟨hm, hseen⟩ => ?_)
        refine guarded_ensure fun hempty => ⟨hm, hvalid, fun wf' hwf _ _ => ?_⟩
        obtain rfl := hsame hwf
        intro name hname
        rcases hseen name hname with hunmet | hpassed
        · rw [List.isEmpty_iff.mp hempty] at hunmet
          simp at hunmet
        · exact hpassed
      · rename_i hopen
        refine guarded_pure ⟨List.suffix_refl m, hvalid, fun wf' hwf hterminal hold => ?_⟩
        obtain rfl := hsame hwf
        exact absurd (by simp [hterminal, hold]) hopen

/-! ### An update -/

/-- What an update that passed its checks has seen. -/
structure UpdateSeen (v : UpdateVerb) (st : AppState) (ctx : RequestCtx) (caller : Caller)
    (td : TypeDef) (typeId id : String) (headers : HeaderMap) (body : Body) (row : EntityData)
    (payload : Json) (expected : I32) (m : List (Glance Store)) : Prop where
  agreed : UpdateAgreed v st ctx td headers body row.data payload expected
  found : ∃ s, .read s ∈ m ∧ s.row? id typeId = some row
  permitted : ∀ k ∈ JsonMap.keys payload.asMap, ∀ f, td.field k = some f →
    FloorSeen m caller td id f
  closed : td.typeId = "case" →
    ClosedOnSight st m id (v.build td row.data payload) (row.data.str? "status")

/-- An update keeps its promise when its writes do, whatever happens while it is checked. -/
theorem guarded_itemUpdate {v : UpdateVerb} {Q : Response → List (Glance Store) → Prop}
    (hwrites : ∀ td row payload expected m, TypeDefCache.get st.registry typeId = some td →
      UpdateSeen v st ctx caller td typeId id headers body row payload expected m →
      Guarded W Q (updateWrites v ctx env caller td typeId id (v.build td row.data payload)
        expected) m)
    (m : List (Glance Store)) :
    Guarded W Q (itemUpdate v st ctx env caller typeId id headers body) m := by
  refine guarded_getOr_bind fun td htd => ?_
  refine guarded_readOnly_bind readOnly_requireAction (answers_true _) fun ok m₁ _ _ => ?_
  refine guarded_ensure_bind fun _ => ?_
  refine guarded_query_bind fun s => ?_
  refine guarded_getOr_bind fun row hrow => ?_
  refine guarded_bind ?_
  unfold updateChecks
  refine guarded_check_bind fun expected hmatched => ?_
  refine guarded_check_bind fun payload hparsed => ?_
  refine guarded_check_bind fun _ heditable => ?_
  refine guarded_check_bind fun _ hfinal => ?_
  refine guarded_bind (guarded_weaken (guarded_requireWrite (List.cons_ne_nil _ _))
    fun _ m₂ hgate => ?_)
  obtain ⟨hm₂, hpermitted⟩ := hgate
  have hfound : ∀ {m' : List (Glance Store)}, m₂ <:+ m' →
      ∃ u, .read u ∈ m' ∧ u.row? id typeId = some row :=
    fun hm' => ⟨s, (hm₂.trans hm').mem List.mem_cons_self, hrow⟩
  by_cases hcase : td.typeId = "case"
  · rw [onlyIf, if_pos hcase]
    refine guarded_bind (guarded_weaken (guarded_validateCaseChange m₂) fun _ m₃ hgate => ?_)
    obtain ⟨hm₃, hlegal, hclosed⟩ := hgate
    refine guarded_pure (hwrites td row payload expected m₃ htd ?_)
    exact ⟨⟨hmatched, hparsed, heditable, hfinal, fun _ => hlegal⟩, hfound hm₃,
      fun k hk f hf => (hpermitted k hk f hf).mono hm₃, fun _ => hclosed⟩
  · rw [onlyIf, if_neg hcase]
    refine guarded_bind (guarded_pure ?_)
    refine guarded_pure (hwrites td row payload expected m₂ htd ?_)
    exact ⟨⟨hmatched, hparsed, heditable, hfinal, fun hc => absurd hc hcase⟩,
      hfound (List.suffix_refl _), hpermitted, fun hc => absurd hc hcase⟩

/-! ### A create -/

/-- A create keeps its promise when its transaction and what follows it do. -/
theorem guarded_collCreate {Q : Response → List (Glance Store) → Prop}
    (hwrites : ∀ td payload resp m, TypeDefCache.get st.registry typeId = some td →
      CreateAgreed st ctx td headers body payload →
      Guarded W Q (do
        execute (createTx td typeId (mint td env.uuid) caller.actorId (buildCreateData td payload)
          (scopeParent td (buildCreateData td payload)) env.now)
        recordEvent ctx caller.actorId (some (mint td env.uuid)) (typeId ++ ".created")
          (buildCreateData td payload)
        pure resp) m)
    (m : List (Glance Store)) :
    Guarded W Q (collCreate st ctx env caller typeId headers body) m := by
  simp only [collCreate]
  refine guarded_getOr_bind fun td htd => ?_
  refine guarded_check_bind fun payload hparsed => ?_
  refine guarded_check_bind fun _ hsettable => ?_
  refine guarded_check_bind fun _ hfinal => ?_
  refine guarded_check_bind fun _ hinitial => ?_
  refine guarded_check_bind fun _ hparented => ?_
  refine guarded_readOnly_bind readOnly_requireAction (answers_true _) fun ok m₁ _ _ => ?_
  refine guarded_ensure_bind fun _ => ?_
  exact hwrites td payload _ m₁ htd ⟨hparsed, hsettable, hfinal, hinitial, hparented⟩

/-! ### Writes -/

/-- A statement is justified where it succeeds, when doing nothing is justified everywhere. -/
theorem guarded_execute_bind {α β : Type} {q : Stmt α} {f : α → Handler β}
    {Q : β → List (Glance Store) → Prop} {m : List (Glance Store)} (hidle : ∀ s, W m s s)
    (hok : ∀ s a t, q s = .ok (a, t) → W m s t ∧ Guarded W Q (f a) (.write s t :: m)) :
    Guarded W Q (execute q >>= f) m := by
  refine guarded_attempt_bind ?_ (fun s _ _ => hidle s)
  intro s a t hq
  cases hqs : q s with
  | error e =>
      rw [hqs] at hq
      simp [Except.mapError] at hq
  | ok r =>
      rw [hqs] at hq
      obtain rfl : r = (a, t) := Except.ok.inj hq
      exact hok s a t hqs

/--
An update keeps its promise when the one statement that stores its data does: at the version it
names, over a row that it may not have seen.
-/
theorem guarded_itemUpdate_rows {v : UpdateVerb}
    (hother : ∀ m s t, t.entityData = s.entityData → W m s t)
    (hstore : ∀ td row payload expected m s stored ver,
      TypeDefCache.get st.registry typeId = some td →
      UpdateSeen v st ctx caller td typeId id headers body row payload expected m →
      s.row? id typeId = some stored → stored.version = expected →
      W m s { s with
        entityData := s.entityData.upsert
          (updatedRow td stored (v.build td row.data payload) ver env.now) })
    (m : List (Glance Store)) :
    Guarded W (fun _ _ => True) (itemUpdate v st ctx env caller typeId id headers body) m := by
  refine guarded_itemUpdate (fun td row payload expected m htd hseen => ?_) m
  unfold updateWrites
  refine guarded_execute_bind (fun s => hother m s s rfl) fun s n t hq =>
    ⟨?_, guarded_of_writes (R := fun s t => t.entityData = s.entityData) ?_ hother _⟩
  · rcases updateEntityData_ok hq with ⟨-, rfl, -⟩ | ⟨-, stored, ver, hstored, hver, -, -, rfl⟩
    · exact hother m _ _ rfl
    · exact hstore td row payload expected m s stored ver htd hseen hstored hver
  · refine writes_bind (readOnly_ensure _ _).writes fun _ => ?_
    refine writes_bind (writes_onlyIf (writes_execute (fun _ => rfl) ?_)) fun _ => ?_
    · intro s u s' hs
      rw [(upsertCase_ok hs).2]
    · exact writes_bind (writes_recordEvent (fun _ _ => rfl) _ _ _ _ _) fun _ =>
        (readOnly_pure _).writes

end Numu
