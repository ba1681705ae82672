/-
What a deletion leaves.

An entity goes with its data, its memberships and its edges, and what referred to
it refers to nothing afterwards (`cascadeDelete`).  No dangling reference is left,
nobody has a rank on the entity any more, and an actor that had none on it before
keeps the rank it has everywhere else: nothing it reaches rests on an entity out
of its reach.
-/
import Numu.Proofs.Reach
import Numu.Proofs.Steps

namespace Numu

open WorkingTable

/-! ### Rows that name the entity -/

/-- What is left of a row when its scope parent goes. -/
def EntityData.orphaned (d : EntityData) (x : String) : EntityData :=
  if d.scopeParentId = some x then { d with scopeParentId := none } else d

theorem EntityData.orphaned_data (d : EntityData) (x : String) : (d.orphaned x).data = d.data := by
  unfold EntityData.orphaned
  split <;> rfl

theorem EntityData.orphaned_entityId (d : EntityData) (x : String) :
    (d.orphaned x).entityId = d.entityId := by
  unfold EntityData.orphaned
  split <;> rfl

theorem EntityData.orphaned_version (d : EntityData) (x : String) :
    (d.orphaned x).version = d.version := by
  unfold EntityData.orphaned
  split <;> rfl

theorem EntityData.orphaned_scopeParentId (d : EntityData) (x : String) :
    (d.orphaned x).scopeParentId = d.scopeParentId.filter fun p => decide (p ≠ x) := by
  unfold EntityData.orphaned
  cases hparent : d.scopeParentId with
  | none => simp [hparent]
  | some p =>
      by_cases hp : p = x
      · rw [hp, if_pos rfl, Option.filter_some_neg (by simp)]
      · rw [if_neg (by simpa using hp), hparent, Option.filter_some_pos (by simpa using hp)]

theorem EntityData.orphaned_typeId (d : EntityData) (x : String) :
    (d.orphaned x).typeId = d.typeId := by
  unfold EntityData.orphaned
  split <;> rfl

/-- What is left of a mirror when its assignee or its project goes. -/
def CaseRow.unlinked (c : CaseRow) (x : String) : CaseRow :=
  { c with
    assigneeId := if c.assigneeId = some x then none else c.assigneeId
    projectId := if c.projectId = some x then none else c.projectId }

section Deletion

variable {s : Store} {a x : String}

/-! ### What is left -/

theorem Store.mem_entityData_deleted {d : EntityData} :
    d ∈ (cascadeDelete s x).entityData ↔
      ∃ q ∈ s.entityData, q.entityId ≠ x ∧ q.orphaned x = d := by
  unfold cascadeDelete EntityData.orphaned
  rw [Table.mem_modify]
  simp only [Table.mem_filter, decide_eq_true_eq, and_assoc]

theorem Store.mem_cases_deleted {c : CaseRow} :
    c ∈ (cascadeDelete s x).cases ↔ ∃ q ∈ s.cases, q.entityId ≠ x ∧ q.unlinked x = c := by
  unfold cascadeDelete CaseRow.unlinked
  rw [Table.mem_modify]
  simp only [Table.mem_filter, decide_eq_true_eq, and_assoc]

theorem Store.typeOf_deleted {o : String} (h : o ≠ x) :
    (cascadeDelete s x).typeOf o = s.typeOf o := by
  unfold Store.typeOf
  show ((s.entities.filter _).find? o).map _ = _
  rw [Table.find?_filter]
  cases hfind : s.entities.find? o with
  | none => rfl
  | some e =>
      have hid : e.id = o := Table.find?_key hfind
      rw [Option.filter_some_pos (by simpa [hid] using h)]

theorem Store.has_deleted {o : String} :
    (cascadeDelete s x).entities.has o = true ↔ s.entities.has o = true ∧ o ≠ x := by
  rw [Table.has_iff, Table.has_iff]
  refine ⟨fun h => ?_, fun h => ?_⟩
  · obtain ⟨e, he, hid⟩ := h
    obtain ⟨hmem, hne⟩ := Table.mem_filter.mp he
    exact ⟨⟨e, hmem, hid⟩, by simpa [hid] using hne⟩
  · obtain ⟨⟨e, he, hid⟩, hne⟩ := h
    exact ⟨e, Table.mem_filter.mpr ⟨he, by simpa [hid] using hne⟩, hid⟩

theorem Store.parentOf_deleted (s : Store) (x : String) : (cascadeDelete s x).parentOf x = none := by
  unfold Store.parentOf cascadeDelete
  rw [Table.find?_modify, Table.find?_filter]
  cases hrow : s.entityData.find? x with
  | none => rfl
  | some d =>
      have hid : d.entityId = x := Table.find?_key hrow
      rw [Option.filter_some_neg (by simpa using hid)]
      rfl

theorem Store.mem_memberships_deleted {s : Store} {x : String} {m : MemberEdge} :
    m ∈ (cascadeDelete s x).memberships ↔
      m ∈ s.memberships ∧ m.objectId ≠ x ∧ m.memberId ≠ x := by
  show m ∈ s.memberships.filter _ ↔ _
  rw [Table.mem_filter]
  simp

theorem Store.row?_deleted {s : Store} {x id : String} (hid : id ≠ x) (typeId : String) :
    (cascadeDelete s x).row? id typeId = (s.row? id typeId).map (·.orphaned x) := by
  unfold Store.row? cascadeDelete
  rw [Table.find?_modify, Table.find?_filter]
  cases hrow : s.entityData.find? id with
  | none => rfl
  | some d =>
      have hkey : d.entityId = id := Table.find?_key hrow
      rw [Option.filter_some_pos (by simpa [hkey] using hid), Option.map_some]
      show Option.filter _ (some (d.orphaned x)) = _
      by_cases htype : d.typeId = typeId
      · rw [Option.filter_some_pos (by simpa [EntityData.orphaned_typeId] using htype),
          Option.filter_some_pos (by simpa using htype)]
        rfl
      · rw [Option.filter_some_neg (by simpa [EntityData.orphaned_typeId] using htype),
          Option.filter_some_neg (by simpa using htype)]
        rfl

/-- The checks of another case stay. -/
theorem Store.checkPassed_deleted {o : String} (ho : o ≠ x) (name : String) :
    (cascadeDelete s x).checkPassed o name = s.checkPassed o name := by
  unfold Store.checkPassed
  show ((s.closeChecks.filter _).find? (o, name)).any CloseCheck.passed = _
  rw [Table.find?_filter]
  cases hfind : s.closeChecks.find? (o, name) with
  | none => rfl
  | some c =>
      have hcase : c.caseId = o := congrArg Prod.fst (Table.find?_key hfind)
      rw [Option.filter_some_pos (by simpa [hcase] using ho)]

/-- The trigger looks at the status, the workflow and the case's own checks. -/
theorem casesGuard_deleted {c : CaseRow} (hid : c.entityId ≠ x) (old : CaseRow) :
    casesGuard (cascadeDelete s x) (old.unlinked x) c = casesGuard s old c := by
  have hworkflows : (cascadeDelete s x).workflows = s.workflows := rfl
  have hstatus : (old.unlinked x).status = old.status := rfl
  unfold casesGuard
  rw [hstatus, hworkflows]
  simp only [Store.checkPassed_deleted hid]

/-- The row of another case is there as before, less its references to `x`. -/
theorem Store.findCase_deleted {o : String} (ho : o ≠ x) :
    (cascadeDelete s x).cases.find? o = (s.cases.find? o).map (·.unlinked x) := by
  unfold cascadeDelete
  rw [Table.find?_modify, Table.find?_filter]
  cases hfind : s.cases.find? o with
  | none => rfl
  | some c =>
      have hkey : c.entityId = o := Table.find?_key hfind
      rw [Option.filter_some_pos (by simpa [hkey] using ho)]
      rfl

/-! ### References -/

theorem Store.refOk_deleted {r : Option String} :
    (cascadeDelete s x).refOk r = true ↔ s.refOk r = true ∧ r ≠ some x := by
  unfold Store.refOk
  cases r with
  | none => simp
  | some id =>
      rw [Store.has_deleted]
      simp

/-- The mirror names `x` in one of its columns. -/
def CaseRow.Names (c : CaseRow) (x : String) : Prop :=
  c.assigneeId = some x ∨ c.projectId = some x

theorem caseRefsOk_deleted {c : CaseRow} (hid : c.entityId ≠ x) :
    caseRefsOk (cascadeDelete s x) c = true ↔ caseRefsOk s c = true ∧ ¬ c.Names x := by
  have hworkflows : (cascadeDelete s x).workflows = s.workflows := rfl
  unfold caseRefsOk CaseRow.Names
  simp only [Bool.and_eq_true, Store.has_deleted, Store.refOk_deleted, hworkflows, not_or]
  refine ⟨fun h => ?_, fun h => ?_⟩
  · obtain ⟨⟨⟨hentity, hworkflow⟩, hassignee⟩, hproject⟩ := h
    exact ⟨⟨⟨⟨hentity.1, hworkflow⟩, hassignee.1⟩, hproject.1⟩, hassignee.2, hproject.2⟩
  · obtain ⟨⟨⟨⟨hentity, hworkflow⟩, hassignee⟩, hproject⟩, ha, hp⟩ := h
    exact ⟨⟨⟨⟨hentity, hid⟩, hworkflow⟩, hassignee, ha⟩, hproject, hp⟩

/-- **A deletion leaves no dangling reference.** -/
theorem Store.Valid.deleted (hs : s.Valid) (x : String) : (cascadeDelete s x).Valid where
  entityType := by
    intro e he
    exact hs.entityType e (Table.mem_filter.mp he).1
  dataEntity := by
    intro d hd
    obtain ⟨q, hq, hne, rfl⟩ := Store.mem_entityData_deleted.mp hd
    rw [EntityData.orphaned_entityId]
    exact Store.has_deleted.mpr ⟨hs.dataEntity q hq, hne⟩
  dataParent := by
    intro d hd
    obtain ⟨q, hq, -, rfl⟩ := Store.mem_entityData_deleted.mp hd
    unfold EntityData.orphaned
    split
    · rfl
    · rename_i hne
      exact Store.refOk_deleted.mpr ⟨hs.dataParent q hq, hne⟩
  edgeRefs := by
    intro m hm
    obtain ⟨hmem, hobject, hmember⟩ := Store.mem_memberships_deleted.mp hm
    have hedge := hs.edgeRefs m hmem
    simp only [memberEdgeOk, Bool.and_eq_true] at hedge ⊢
    exact ⟨⟨Store.has_deleted.mpr ⟨hedge.1.1, hobject⟩, Store.has_deleted.mpr ⟨hedge.1.2, hmember⟩⟩,
      hedge.2⟩
  caseRefs := by
    intro c hc
    obtain ⟨q, hq, hne, rfl⟩ := Store.mem_cases_deleted.mp hc
    have hrefs := hs.caseRefs q hq
    simp only [caseRefsOk, Bool.and_eq_true] at hrefs ⊢
    have hkept : ∀ r, s.refOk r = true →
        (cascadeDelete s x).refOk (if r = some x then none else r) = true := by
      intro r hr
      split
      · rfl
      · rename_i hne
        exact Store.refOk_deleted.mpr ⟨hr, hne⟩
    exact ⟨⟨⟨Store.has_deleted.mpr ⟨hrefs.1.1.1, hne⟩, hrefs.1.1.2⟩,
      hkept _ hrefs.1.2⟩, hkept _ hrefs.2⟩

/-! ### Ranks -/

/-- Nobody has a rank on an entity that is gone: no parent is above it and no edge on it. -/
theorem Store.effectiveRank_deleted (s : Store) (a x : String) :
    (cascadeDelete s x).effectiveRank a x = none := by
  cases hrank : (cascadeDelete s x).effectiveRank a x with
  | none => rfl
  | some r =>
      obtain ⟨m, hmem, -, hscope, -⟩ := Store.effectiveRank_eq_some hrank
      obtain ⟨n, -, hhops⟩ := Store.mem_scopes.mp hscope
      cases n with
      | zero => exact absurd hhops.symm (Store.mem_memberships_deleted.mp hmem).2.1
      | succ n =>
          obtain ⟨p, hp, -⟩ := hhops
          rw [Store.ScopeEdge, Store.parentOf_deleted] at hp
          simp at hp

/-- The scope edges that remain: those of the others, except to the entity. -/
theorem Store.scopeEdge_deleted {o p : String} (ho : o ≠ x) :
    (cascadeDelete s x).ScopeEdge o p ↔ s.ScopeEdge o p ∧ p ≠ x := by
  unfold Store.ScopeEdge Store.parentOf cascadeDelete
  rw [Table.find?_modify, Table.find?_filter]
  cases hrow : s.entityData.find? o with
  | none => simp
  | some d =>
      have hid : d.entityId = o := Table.find?_key hrow
      rw [Option.filter_some_pos (by simpa [hid] using ho)]
      simp only [Option.map_some, Option.bind_some]
      by_cases hparent : d.scopeParentId = some x
      · rw [if_pos hparent, hparent]
        simp [eq_comm]
      · rw [if_neg hparent]
        refine ⟨fun h => ⟨h, ?_⟩, fun h => h.1⟩
        rintro rfl
        exact hparent h

/-- Climbing from another entity, the store without `x` sees the same up to `x`. -/
theorem Store.hops_deleted {y : String} :
    ∀ {n : Nat} {o : String}, o ≠ x →
      Hops (cascadeDelete s x).ScopeEdge n o y → Hops s.ScopeEdge n o y := by
  intro n
  induction n with
  | zero => intro o _ h; exact h
  | succ n ih =>
      intro o ho h
      obtain ⟨p, hp, hrest⟩ := h
      obtain ⟨hedge, hne⟩ := (Store.scopeEdge_deleted ho).mp hp
      exact ⟨p, hedge, ih hne hrest⟩

/-- A climb of the old store passes `x`, or is one of the new. -/
theorem Store.hops_deleted_or {y : String} :
    ∀ {n : Nat} {o : String}, o ≠ x → Hops s.ScopeEdge n o y →
      (∃ k ≤ n, Hops s.ScopeEdge k x y) ∨ Hops (cascadeDelete s x).ScopeEdge n o y := by
  intro n
  induction n with
  | zero => intro o _ h; exact Or.inr h
  | succ n ih =>
      intro o ho h
      obtain ⟨p, hp, hrest⟩ := h
      by_cases hpx : p = x
      · exact Or.inl ⟨n, by omega, hpx ▸ hrest⟩
      · rcases ih hpx hrest with ⟨k, hk, hhops⟩ | hhops
        · exact Or.inl ⟨k, by omega, hhops⟩
        · exact Or.inr ⟨p, (Store.scopeEdge_deleted ho).mpr ⟨hp, hpx⟩, hhops⟩

/-- Nobody speaks for an actor through an entity the actor has no rank on. -/
theorem Store.not_anchor_of_no_rank (hs : s.Valid) (h : s.effectiveRank a x = none) :
    ∀ n ≤ 8, ¬ s.AnchorAt a x n := by
  intro n hn hanchor
  obtain ⟨r, hr⟩ := (Store.effectiveRank_isSome hs).mpr ⟨n, hn, hanchor⟩
  rw [h] at hr
  simp at hr

/-- Nor does the actor speak for the entity: whoever does is a member of it. -/
theorem Store.not_principal_of_no_rank (hs : s.Valid) (hne : a ≠ x)
    (h : s.effectiveRank a x = none) : ¬ s.Principal a x := by
  intro hp
  rcases Relation.ReflTransGen.cases_tail hp with heq | ⟨q, hq, d, hd, hmember, hobject, -⟩
  · exact hne heq.symm
  · exact Store.not_anchor_of_no_rank hs h 0 (by omega) ⟨x, rfl, d, hd, hobject, hmember ▸ hq⟩

/-- The principals of an actor without rank on `x` are the same without `x`. -/
theorem Store.principal_deleted (hs : s.Valid) (hne : a ≠ x)
    (h : s.effectiveRank a x = none) {p : String} :
    (cascadeDelete s x).Principal a p ↔ s.Principal a p ∧ p ≠ x := by
  refine ⟨fun hp => ?_, fun hp => ?_⟩
  · induction hp with
    | refl => exact ⟨.refl, hne⟩
    | tail _ hedge ih =>
        obtain ⟨e, he, hm, ho, hteam⟩ := hedge
        obtain ⟨hmem, hobj, -⟩ := Store.mem_memberships_deleted.mp he
        have hx : e.objectId ≠ x := hobj
        rw [← ho] at hteam ⊢
        rw [Store.typeOf_deleted hx] at hteam
        exact ⟨ih.1.tail ⟨e, hmem, hm, rfl, hteam⟩, hx⟩
  · obtain ⟨hp, hpx⟩ := hp
    induction hp with
    | refl => exact .refl
    | tail hpath hedge ih =>
        obtain ⟨e, he, hm, ho, hteam⟩ := hedge
        rename_i q o
        have hqx : q ≠ x := by
          rintro rfl
          exact Store.not_principal_of_no_rank hs hne h hpath
        refine (ih hqx).tail ⟨e, ?_, hm, ho, ?_⟩
        · exact Store.mem_memberships_deleted.mpr ⟨he, ho ▸ hpx, hm ▸ hqx⟩
        · rw [Store.typeOf_deleted hpx]
          exact hteam

theorem Store.rankOf_deleted {role : String} : (cascadeDelete s x).rankOf role = s.rankOf role :=
  rfl

/-- **An actor's rank on another entity does not rest on an entity out of its reach.** -/
theorem Store.effectiveRank_deleted_other (hs : s.Valid) (hne : a ≠ x)
    (h : s.effectiveRank a x = none) {o : String} (ho : o ≠ x) :
    (cascadeDelete s x).effectiveRank a o = s.effectiveRank a o := by
  have hrows : (cascadeDelete s x).memberships.rows =
      s.memberships.rows.filter fun m => m.objectId ≠ x && m.memberId ≠ x := rfl
  unfold Store.effectiveRank
  rw [hrows, List.filter_filter]
  refine congrArg (fun rows : List MemberEdge => (rows.filterMap fun m => s.rankOf m.role).max?) ?_
  refine List.filter_congr fun m hm => ?_
  rw [Bool.eq_iff_iff]
  simp only [Bool.and_eq_true, decide_eq_true_eq, Store.mem_principals, Store.mem_scopes]
  refine ⟨fun hleft => ?_, fun hright => ?_⟩
  · obtain ⟨⟨hp, n, hn, hhops⟩, -⟩ := hleft
    exact ⟨((Store.principal_deleted hs hne h).mp hp).1, n, hn, Store.hops_deleted ho hhops⟩
  · obtain ⟨hp, n, hn, hhops⟩ := hright
    have hanchor : ∀ k ≤ 8, ¬ Hops s.ScopeEdge k x m.objectId := by
      intro k hk hhops'
      exact Store.not_anchor_of_no_rank hs h k hk ⟨m.objectId, hhops', m, hm, rfl, hp⟩
    have hobj : m.objectId ≠ x := fun hc => hanchor 0 (by omega) hc.symm
    have hmem : m.memberId ≠ x := fun hc => Store.not_principal_of_no_rank hs hne h (hc ▸ hp)
    rcases Store.hops_deleted_or ho hhops with ⟨k, hk, hhops'⟩ | hhops'
    · exact absurd hhops' (hanchor k (by omega))
    · exact ⟨⟨(Store.principal_deleted hs hne h).mpr ⟨hp, hmem⟩, n, hn, hhops'⟩, hobj, hmem⟩

end Deletion

end Numu
