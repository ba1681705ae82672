/-
Who may write.

Every handler asks its gates before its first statement.  A gate speaks of the
moment it read the database in, and by the time the statement runs that moment is
past: the caller may have lost the rank in between.  So authority over a run is
authority at some moment before the write, and `Endpoint.Authorized` says for every
endpoint which: the rank on the object it is addressed to, on both ends of an edge,
on the case of a run, the floors of the fields a body names, or platform admin.

Each handler is walked once more, up to its last gate.  Behind it every write is
authorized, whatever the others did.
-/
import Numu.Lib.Recall
import Numu.Proofs.Sightings
import Numu.Proofs.Statements

namespace Numu

open Fallible Handler

/-! ### Authority -/

section Authority

variable (past : Store → Prop) (caller : Caller)

/-- The caller reached the object at this rank at one of the moments, or is a platform admin. -/
def Held (id : String) (rank : I32) : Prop :=
  caller.isPlatformAdmin = true ∨
    ∃ s, past s ∧ ∃ r, s.effectiveRank caller.actorId id = some r ∧ rank ≤ r

/-- Authority over the runs of a case is the edit rank on it; a run without one is for admins. -/
def HeldCase : Option String → Prop
  | some id => Held past caller id 2
  | none => caller.isPlatformAdmin = true

/-- The caller's rank at one moment reached the write floor of the field at another. -/
def FloorHeld (td : TypeDef) (id : String) (f : FieldDef) : Prop :=
  ∃ s u, past s ∧ past u ∧
    (u.fieldFloors td.typeId f.field f.permClass).2 ≤ s.callerRank caller id

/-- What the caller of an endpoint was seen to be allowed by the time of a write. -/
def Endpoint.Authorized (st : AppState) : Endpoint → Store → Store → Prop
  | .collCreate _ _ _, s, t => ∀ row ∈ t.entityData.rows, row ∉ s.entityData.rows →
      ∀ parent, row.scopeParentId = some parent → Held past caller parent 2
  | .itemUpdate v typeId id headers body, _, _ => ∃ td payload,
      TypeDefCache.get st.registry typeId = some td ∧
      readJson headers body v.allowMerge = .ok payload ∧ Held past caller id 2 ∧
      ∀ k ∈ JsonMap.keys payload.asMap, ∀ f, td.field k = some f → FloorHeld past caller td id f
  | .itemDelete typeId id _, _, _ => ∃ td, TypeDefCache.get st.registry typeId = some td ∧
      Held past caller id (Action.minRank td .delete)
  | .addMember _ id _ _, _, _ => Held past caller id manageRank
  | .setMember _ id _ _ _, _, _ => Held past caller id manageRank
  | .removeMember _ id memberId, _, _ =>
      memberId = caller.actorId ∨ Held past caller id manageRank
  | .recordCheck _ id _ _ _, _, _ => Held past caller id manageRank
  | .createRelation (.ok input), _, _ =>
      Held past caller input.subjectId 2 ∧ Held past caller input.objectId 1
  | .deleteRelation id, _, _ => ∃ s subject, past s ∧
      (s.relations.find? id).map RelationRow.subjectId = some subject ∧
      Held past caller subject 2
  | .startRun (.ok input), _, _ => HeldCase past caller input.caseId
  | .recordHandoff id _, _, _ => ∃ s run, past s ∧ s.featureRuns.find? id = some run ∧
      HeldCase past caller run.caseId
  | .runConnector id, _, _ => Held past caller id 2
  | .createType _, _, _ => caller.isPlatformAdmin = true
  | .setLogLevel _, _, _ => caller.isPlatformAdmin = true
  -- The others write nothing.
  | _, s, t => s = t

end Authority

section Mono

variable {past past' : Store → Prop} {caller : Caller}

theorem Held.mono {id : String} {rank : I32} (h : Held past caller id rank)
    (hp : ∀ s, past s → past' s) : Held past' caller id rank := by
  rcases h with hadmin | ⟨s, hs, hr⟩
  · exact Or.inl hadmin
  · exact Or.inr ⟨s, hp s hs, hr⟩

theorem HeldCase.mono {caseId : Option String} (h : HeldCase past caller caseId)
    (hp : ∀ s, past s → past' s) : HeldCase past' caller caseId := by
  cases caseId with
  | some id => exact Held.mono h hp
  | none => exact h

theorem FloorHeld.mono {td : TypeDef} {id : String} {f : FieldDef}
    (h : FloorHeld past caller td id f) (hp : ∀ s, past s → past' s) :
    FloorHeld past' caller td id f := by
  obtain ⟨s, u, hs, hu, hle⟩ := h
  exact ⟨s, u, hp s hs, hp u hu, hle⟩

/-- Authority stays when more moments are looked at. -/
theorem Endpoint.Authorized.mono {st : AppState} {e : Endpoint} {s t : Store}
    (h : e.Authorized past caller st s t) (hp : ∀ s, past s → past' s) :
    e.Authorized past' caller st s t := by
  cases e with
  | collCreate => exact fun row hrow hnew p hparent => (h row hrow hnew p hparent).mono hp
  | itemUpdate =>
      obtain ⟨td, payload, htd, hread, hheld, hfloors⟩ := h
      exact ⟨td, payload, htd, hread, hheld.mono hp,
        fun k hk f hf => (hfloors k hk f hf).mono hp⟩
  | itemDelete =>
      obtain ⟨td, htd, hheld⟩ := h
      exact ⟨td, htd, hheld.mono hp⟩
  | addMember | setMember | recordCheck | runConnector => exact Held.mono h hp
  | removeMember => exact Or.imp id (fun hheld => hheld.mono hp) h
  | createRelation body =>
      cases body with
      | ok input => exact ⟨h.1.mono hp, h.2.mono hp⟩
      | error x => exact h
  | deleteRelation =>
      obtain ⟨u, subject, hu, hsubject, hheld⟩ := h
      exact ⟨u, subject, hp u hu, hsubject, hheld.mono hp⟩
  | startRun body =>
      cases body with
      | ok input => exact HeldCase.mono h hp
      | error x => exact h
  | recordHandoff =>
      obtain ⟨u, run, hu, hrun, hheld⟩ := h
      exact ⟨u, run, hp u hu, hrun, hheld.mono hp⟩
  | _ => exact h

end Mono

/-! ### The gates -/

section Gates

variable {W : List (Glance Store) → Store → Store → Prop} {st : AppState} {ctx : RequestCtx}
  {caller : Caller} {td : TypeDef} {typeId id : String} {m : List (Glance Store)}

theorem Held.suffix {rank : I32} {m' : List (Glance Store)} (h : Held (Seen m) caller id rank)
    (hm : m <:+ m') : Held (Seen m') caller id rank :=
  h.mono fun _ hs => hs.mono hm

theorem guarded_requireAction {objectId : Option String} {action : Action} :
    Guarded W (fun ok m' => m <:+ m' ∧ (ok = true → ∀ id, objectId = some id →
        Held (Seen m') caller id (action.minRank td)))
      (requireAction caller td objectId action) m := by
  unfold requireAction
  by_cases hadmin : caller.isPlatformAdmin = true
  · rw [if_pos hadmin]
    exact guarded_pure ⟨List.suffix_refl m, fun _ _ _ => Or.inl hadmin⟩
  rw [if_neg hadmin]
  cases objectId with
  | none =>
      refine guarded_pure ⟨List.suffix_refl m, fun _ x hx => ?_⟩
      cases hx
  | some x =>
      refine guarded_query_bind fun s => guarded_pure ⟨List.suffix_cons _ m, fun hok y hy => ?_⟩
      obtain rfl := Option.some.inj hy
      obtain ⟨r, hr, hle⟩ : ∃ r, s.effectiveRank caller.actorId x = some r ∧
          Action.minRank td action ≤ r := by simpa [Option.any_eq_true] using hok
      exact Or.inr ⟨s, .read, r, hr, hle⟩

theorem guarded_reachAction {action : Action} :
    Guarded W (fun ok m' => m <:+ m' ∧ (ok = true →
        ∃ td, Held (Seen m') caller id (Action.minRank td action)))
      (reachAction st caller id action) m := by
  refine guarded_query_bind fun s => ?_
  cases htd : (s.typeOf id).bind (TypeDefCache.get st.registry) with
  | none =>
      refine guarded_pure ⟨List.suffix_cons _ m, fun hok => ?_⟩
      cases hok
  | some td =>
      refine guarded_weaken guarded_requireAction fun ok m' hgate => ?_
      exact ⟨(List.suffix_cons _ m).trans hgate.1, fun hok => ⟨td, hgate.2 hok _ rfl⟩⟩

theorem guarded_requireRank {minRank : I32} :
    Guarded W (fun _ m' => m <:+ m' ∧ Held (Seen m') caller id minRank)
      (requireRank caller id minRank ctx) m := by
  unfold requireRank
  by_cases hadmin : caller.isPlatformAdmin = true
  · rw [if_pos hadmin]
    exact guarded_pure ⟨List.suffix_refl m, Or.inl hadmin⟩
  rw [if_neg hadmin]
  refine guarded_query_bind fun s => ?_
  cases hrank : s.effectiveRank caller.actorId id with
  | none => exact guarded_throw _
  | some r =>
      by_cases hlow : r < minRank
      · simp only [if_pos hlow]
        exact guarded_throw _
      · simp only [if_neg hlow]
        exact guarded_pure ⟨List.suffix_cons _ m,
          Or.inr ⟨s, .read, r, hrank, not_lt.mp hlow⟩⟩

/-- The gate of a run: an action on its case, or platform admin where it has none. -/
theorem guarded_requireRunAuthority {caseId : Option String} {action : Action}
    {P : List (Glance Store) → Option String → Prop}
    (hcase : ∀ m' x td, Held (Seen m') caller x (action.minRank td) → P m' (some x))
    (hnone : ∀ m', caller.isPlatformAdmin = true → P m' none) :
    Guarded W (fun _ m' => m <:+ m' ∧ P m' caseId)
      (requireRunAuthority st caller caseId action ctx) m := by
  unfold requireRunAuthority
  cases caseId with
  | none =>
      refine guarded_bind (guarded_pure (guarded_ensure fun hadmin => ?_))
      exact ⟨List.suffix_refl m, hnone m hadmin⟩
  | some x =>
      refine guarded_bind (guarded_weaken guarded_reachAction fun ok m' hgate => ?_)
      refine guarded_ensure fun hok => ⟨hgate.1, ?_⟩
      obtain ⟨td, hheld⟩ := hgate.2 hok
      exact hcase m' x td hheld

theorem guarded_editRun {caseId : Option String} :
    Guarded W (fun _ m' => m <:+ m' ∧ HeldCase (Seen m') caller caseId)
      (requireRunAuthority st caller caseId .edit ctx) m :=
  guarded_requireRunAuthority (fun _ _ _ hheld => hheld) fun _ hadmin => hadmin

/-- The gate of an edge: its subject for editing, its object for viewing. -/
theorem guarded_reachesBoth {subjectId objectId : String} :
    Guarded W (fun ok m' => m <:+ m' ∧ (ok = true →
        Held (Seen m') caller subjectId 2 ∧ Held (Seen m') caller objectId 1))
      (reachesBoth st caller subjectId objectId) m := by
  unfold reachesBoth
  refine guarded_bind (guarded_weaken guarded_reachAction fun edit m₁ hedit => ?_)
  cases edit with
  | false => exact guarded_pure ⟨hedit.1, fun hok => nomatch hok⟩
  | true =>
      obtain ⟨td, hsubject⟩ := hedit.2 rfl
      refine guarded_weaken guarded_reachAction fun view m₂ hview => ?_
      refine ⟨hedit.1.trans hview.1, fun hok => ?_⟩
      obtain ⟨td', hobject⟩ := hview.2 hok
      exact ⟨hsubject.suffix hview.1, hobject⟩

/-- An item that is there, behind its gate. -/
theorem guarded_item {Q : Response → List (Glance Store) → Prop} {action : Action}
    {p : TypeDef → Handler Response}
    (hp : ∀ td m', TypeDefCache.get st.registry typeId = some td →
      Held (Seen m') caller id (action.minRank td) → Guarded W Q (p td) m') :
    Guarded W Q (do
      let td ← resolve st typeId ctx
      let ok ← requireAction caller td (some id) action
      ensure ok (deny404 ctx)
      p td) m := by
  refine guarded_getOr_bind fun td htd => ?_
  refine guarded_bind (guarded_weaken guarded_requireAction fun ok m' hgate => ?_)
  exact guarded_ensure_bind fun hok => hp td m' htd (hgate.2 hok id rfl)

theorem FloorSeen.held {f : FieldDef} (h : FloorSeen m caller td id f) :
    FloorHeld (Seen m) caller td id f := by
  have hshows : ∀ g : Glance Store, g.Shows g.state := by
    intro g
    cases g with
    | read s => rfl
    | write s t => exact Or.inl rfl
  obtain ⟨g, hg, k, hk, hle⟩ := h
  exact ⟨g.state, k.state, ⟨g, hg, hshows g⟩, ⟨k, hk, hshows k⟩, hle⟩

end Gates

/-! ### The handlers -/

section Handlers

variable {st : AppState} {ctx : RequestCtx} {env : Ambient} {caller : Caller}
  {typeId id : String} {headers : HeaderMap} {body : Body} {m : List (Glance Store)}

/-- Every write of an endpoint's handler is authorized by what it has seen. -/
abbrev GuardedBy (st : AppState) (caller : Caller) (e : Endpoint) (h : Handler Response) : Prop :=
  ∀ m, Guarded (fun m s t => e.Authorized (Seen m) caller st s t) (fun _ _ => True) h m

/-- What `G` says was seen before every write of the handler, and before its answer. -/
def Gated (G : (Store → Prop) → Prop) (h : Handler Response) : Prop :=
  ∀ m, Guarded (fun m _ _ => G (Seen m)) (fun _ m => G (Seen m)) h m

/-- Behind the gate. -/
theorem guarded_gated {K : List (Glance Store) → Prop} {p : Handler Response}
    (hK : ∀ m', m <:+ m' → K m') : Guarded (fun m _ _ => K m) (fun _ m => K m) p m :=
  guarded_beyond p (fun m' hm _ _ => hK m' hm) fun _ m' hm => hK m' hm

theorem Gated.guardedBy {G : (Store → Prop) → Prop} {e : Endpoint} {h : Handler Response}
    (hG : Gated G h) (he : ∀ past s t, G past → e.Authorized past caller st s t) :
    GuardedBy st caller e h :=
  fun m => guarded_justify (guarded_weaken (hG m) fun _ _ _ => trivial) fun _ _ s t => he _ s t

theorem guarded_readOnly {e : Endpoint} {h : Handler Response} (hr : ReadOnly h) :
    GuardedBy st caller e h := by
  intro m
  refine guarded_justify (W := fun _ _ _ => False) ?_ fun _ _ _ _ hno => hno.elim
  exact guarded_weaken (guarded_of_writes (R := fun _ _ => False) hr.writes
    (fun _ _ _ hno => hno) m) fun _ _ _ => trivial

theorem authorized_collCreate {draws : Draws} :
    GuardedBy st caller (.collCreate typeId headers body)
      (collCreate st ctx draws.ambient caller typeId headers body) := by
  intro m
  refine guarded_getOr_bind fun td htd => ?_
  refine guarded_check_bind fun payload _ => ?_
  refine guarded_check_bind fun _ _ => ?_
  refine guarded_check_bind fun _ _ => ?_
  refine guarded_check_bind fun _ _ => ?_
  refine guarded_check_bind fun _ _ => ?_
  refine guarded_bind (guarded_weaken guarded_requireAction fun ok m₁ hgate => ?_)
  refine guarded_ensure_bind fun hok => ?_
  have hheld := hgate.2 hok
  -- The transaction puts in one row, under the parent that the gate was asked about.
  refine guarded_suffix (R := fun s t => ∀ row ∈ t.entityData, row ∉ s.entityData →
    row.scopeParentId = scopeParent td (buildCreateData td payload)) ?_ ?_
  · refine writes_bind (writes_execute ?_ ?_) fun _ => writes_bind (writes_recordEvent ?_ _ _ _ _ _)
      fun _ => (readOnly_pure _).writes
    · intro s row hrow hnew
      exact absurd hrow hnew
    · intro s u t h row hrow hnew
      obtain ⟨ents, rows, e, cases, -, hrows, -, -, -, -, -, -, -, -, rfl⟩ := createTx_ok h
      rcases (Table.mem_insert hrows).mp hrow with hold | rfl
      · exact absurd hold hnew
      · rfl
    · intro s evs row hrow hnew
      exact absurd hrow hnew
  · intro m' hm s t hwrote row hrow hnew parent hparent
    rw [hwrote row hrow hnew] at hparent
    exact (hheld parent hparent).suffix hm

theorem authorized_itemUpdate {v : UpdateVerb} {draws : Draws} :
    GuardedBy st caller (.itemUpdate v typeId id headers body)
      (itemUpdate v st ctx draws.ambient caller typeId id headers body) := by
  intro m
  refine guarded_item fun td m₁ htd hheld => ?_
  refine guarded_query_bind fun s => ?_
  refine guarded_getOr_bind fun row hrow => ?_
  unfold updateChecks
  refine guarded_bind ?_
  refine guarded_check_bind fun expected _ => ?_
  refine guarded_check_bind fun payload hparsed => ?_
  refine guarded_check_bind fun _ _ => ?_
  refine guarded_check_bind fun _ _ => ?_
  refine guarded_bind (guarded_weaken (guarded_requireWrite (List.cons_ne_nil _ _))
    fun _ m₂ hfloors => ?_)
  have hm : m₁ <:+ m₂ := (List.suffix_cons _ _).trans hfloors.1
  refine guarded_readOnly_bind (readOnly_onlyIf readOnly_validateCaseChange) (answers_true _)
    fun _ m₃ _ hm₃ => ?_
  refine guarded_pure (guarded_behind _ fun m' hm' s t => ⟨td, payload, htd, hparsed, ?_, ?_⟩)
  · exact hheld.suffix (hm.trans (hm₃.trans hm'))
  · intro k hk f hf
    exact ((hfloors.2 k hk f hf).mono (hm₃.trans hm')).held

theorem gated_itemDelete :
    Gated (fun past => ∃ td, TypeDefCache.get st.registry typeId = some td ∧
        Held past caller id (Action.minRank td .delete))
      (itemDelete st ctx caller typeId id headers) :=
  fun _ => guarded_item fun td _ htd hheld => guarded_gated fun _ hm => ⟨td, htd, hheld.suffix hm⟩

/-- The roster and the close checks: the object is there, and its roster may be managed. -/
theorem gated_managed {p : I32 → Handler Response} :
    Gated (fun past => Held past caller id manageRank) (do
      ensureObject id typeId ctx
      let rank ← requireRank caller id manageRank ctx
      p rank) := by
  intro m
  refine guarded_readOnly_bind readOnly_ensureObject (answers_true _) fun _ m₁ _ _ => ?_
  refine guarded_bind (guarded_weaken guarded_requireRank fun rank m₂ hgate => ?_)
  exact guarded_gated fun _ hm => hgate.2.suffix hm

theorem gated_recordCheck {name : String} :
    Gated (fun past => Held past caller id manageRank)
      (recordCheck ctx caller typeId id name headers body) :=
  fun m => guarded_ensure_bind fun _ => gated_managed m

theorem gated_removeMember {memberId : String} :
    Gated (fun past => memberId = caller.actorId ∨ Held past caller id manageRank)
      (removeMember ctx caller typeId id memberId) := by
  intro m
  refine guarded_readOnly_bind readOnly_ensureObject (answers_true _) fun _ m₁ _ _ => ?_
  refine guarded_query_bind fun s => ?_
  refine guarded_getOr_bind fun current _ => ?_
  unfold onlyIf
  -- Leaving takes no rank.
  by_cases hself : memberId = caller.actorId
  · rw [if_neg (not_not.mpr hself)]
    exact guarded_gated fun _ _ => Or.inl hself
  · rw [if_pos hself]
    refine guarded_bind (guarded_bind (guarded_weaken guarded_requireRank fun rank m₂ hgate => ?_))
    exact guarded_pure (guarded_gated fun _ hm => Or.inr (hgate.2.suffix hm))

theorem gated_createRelation {rel : Except String RelInput} :
    Gated (fun past => ∃ input, rel = .ok input ∧ Held past caller input.subjectId 2 ∧
        Held past caller input.objectId 1) (createRelation st ctx env caller rel) := by
  intro m
  refine guarded_check_bind fun input hinput => ?_
  refine guarded_ensure_bind fun _ => ?_
  refine guarded_ensure_bind fun _ => ?_
  refine guarded_bind (guarded_weaken guarded_reachesBoth fun ok m₁ hgate => ?_)
  refine guarded_ensure_bind fun hok => ?_
  obtain ⟨hsubject, hobject⟩ := hgate.2 hok
  exact guarded_gated fun _ hm =>
    ⟨input, mapError_ok hinput, hsubject.suffix hm, hobject.suffix hm⟩

theorem gated_deleteRelation :
    Gated (fun past => ∃ s subject, past s ∧
        (s.relations.find? id).map RelationRow.subjectId = some subject ∧
        Held past caller subject 2) (deleteRelation st ctx caller id) := by
  intro m
  refine guarded_query_bind fun s => ?_
  refine guarded_getOr_bind fun subject hsubject => ?_
  refine guarded_bind (guarded_weaken guarded_reachAction fun ok m₁ hgate => ?_)
  refine guarded_ensure_bind fun hok => ?_
  obtain ⟨td, hheld⟩ := hgate.2 hok
  exact guarded_gated fun _ hm =>
    ⟨s, subject, Seen.read.mono (hgate.1.trans hm), hsubject, hheld.suffix hm⟩

theorem gated_startRun {run : Except String StartInput} :
    Gated (fun past => ∃ input, run = .ok input ∧ HeldCase past caller input.caseId)
      (startRun st ctx env caller run) := by
  intro m
  refine guarded_check_bind fun input hinput => ?_
  refine guarded_bind (guarded_weaken guarded_editRun fun _ m₁ hgate => ?_)
  exact guarded_gated fun _ hm =>
    ⟨input, mapError_ok hinput, hgate.2.mono fun _ hs => hs.mono hm⟩

theorem gated_recordHandoff {input : Except String HandoffInput} :
    Gated (fun past => ∃ s run, past s ∧ s.featureRuns.find? id = some run ∧
        HeldCase past caller run.caseId) (recordHandoff st ctx env caller id input) := by
  intro m
  refine guarded_check_bind fun i _ => ?_
  refine guarded_ensure_bind fun _ => ?_
  refine guarded_query_bind fun s => ?_
  refine guarded_getOr_bind fun run hrun => ?_
  refine guarded_bind (guarded_weaken guarded_editRun fun _ m₁ hgate => ?_)
  exact guarded_gated fun _ hm => ⟨s, run, Seen.read.mono (hgate.1.trans hm), hrun,
    hgate.2.mono fun _ hs => hs.mono hm⟩

theorem gated_runConnector {fetch : String → Except AppError Json} :
    Gated (fun past => Held past caller id 2) (runConnector st ctx env caller fetch id) := by
  intro m
  refine guarded_query_bind fun s => ?_
  refine guarded_getOr_bind fun row hrow => ?_
  refine guarded_bind (guarded_weaken guarded_reachAction fun ok m₁ hgate => ?_)
  refine guarded_ensure_bind fun hok => ?_
  obtain ⟨td, hheld⟩ := hgate.2 hok
  exact guarded_gated fun _ hm => hheld.suffix hm

theorem gated_setLogLevel {reload : Option (String → Bool)} {level : Except String String} :
    Gated (fun _ => caller.isPlatformAdmin = true) (setLogLevel reload ctx caller level) :=
  fun _ => guarded_ensure_bind fun hadmin => guarded_gated fun _ _ => hadmin

theorem authorized_itemDelete :
    GuardedBy st caller (.itemDelete typeId id headers)
      (itemDelete st ctx caller typeId id headers) :=
  gated_itemDelete.guardedBy fun _ _ _ h => h

theorem authorized_addMember :
    GuardedBy st caller (.addMember typeId id headers body)
      (addMember ctx caller typeId id headers body) :=
  gated_managed.guardedBy fun _ _ _ h => h

theorem authorized_setMember {memberId : String} :
    GuardedBy st caller (.setMember typeId id memberId headers body)
      (setMember ctx caller typeId id memberId headers body) :=
  gated_managed.guardedBy fun _ _ _ h => h

theorem authorized_recordCheck {name : String} :
    GuardedBy st caller (.recordCheck typeId id name headers body)
      (recordCheck ctx caller typeId id name headers body) :=
  gated_recordCheck.guardedBy fun _ _ _ h => h

theorem authorized_removeMember {memberId : String} :
    GuardedBy st caller (.removeMember typeId id memberId)
      (removeMember ctx caller typeId id memberId) :=
  gated_removeMember.guardedBy fun _ _ _ h => h

theorem authorized_createRelation {rel : Except String RelInput} :
    GuardedBy st caller (.createRelation rel) (createRelation st ctx env caller rel) := by
  refine gated_createRelation.guardedBy ?_
  rintro past s t ⟨input, rfl, hends⟩
  exact hends

theorem authorized_deleteRelation :
    GuardedBy st caller (.deleteRelation id) (deleteRelation st ctx caller id) :=
  gated_deleteRelation.guardedBy fun _ _ _ h => h

theorem authorized_startRun {run : Except String StartInput} :
    GuardedBy st caller (.startRun run) (startRun st ctx env caller run) := by
  refine gated_startRun.guardedBy ?_
  rintro past s t ⟨input, rfl, hcase⟩
  exact hcase

theorem authorized_recordHandoff {input : Except String HandoffInput} :
    GuardedBy st caller (.recordHandoff id input) (recordHandoff st ctx env caller id input) :=
  gated_recordHandoff.guardedBy fun _ _ _ h => h

theorem authorized_runConnector {fetch : String → Except AppError Json} :
    GuardedBy st caller (.runConnector id) (runConnector st ctx env caller fetch id) :=
  gated_runConnector.guardedBy fun _ _ _ h => h

theorem authorized_setLogLevel {reload : Option (String → Bool)} {level : Except String String} :
    GuardedBy st caller (.setLogLevel level) (setLogLevel reload ctx caller level) :=
  gated_setLogLevel.guardedBy fun _ _ _ h => h

end Handlers

end Numu
