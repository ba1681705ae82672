/-
What the reach resolver computes, and where its two directions part.

The resolver answers two questions about one relation.  An actor *reaches* an
entity when one of its principals holds a membership on the entity or on one of
its scope ancestors.  `effectiveRank` looks for that membership climbing up from
the entity; `reach` starts at the memberships and cascades down.  Both are
recursive queries, and `Numu/Lib/WorkingTable.lean` says what each evaluates to.

Stated over the relation the two are the same walk taken in opposite directions,
with one difference: the climb stops after eight hops and the cascade does not.
`AnchorAt` counts the hops, and everything below is a statement about it.
-/
import Numu.Api.Rbac
import Numu.Api.Catalog

namespace Numu

open WorkingTable

namespace Store

/-- The foreign keys the migrations declare. -/
structure Valid (s : Store) : Prop where
  entityType : ∀ e ∈ s.entities, s.typeDefinitions.has e.type = true
  dataEntity : ∀ d ∈ s.entityData, s.entities.has d.entityId = true
  dataParent : ∀ d ∈ s.entityData, s.refOk d.scopeParentId = true
  edgeRefs : ∀ m ∈ s.memberships, memberEdgeOk s m = true
  caseRefs : ∀ c ∈ s.cases, caseRefsOk s c = true

/-- A membership of `m` on the team `o`. -/
def TeamEdge (s : Store) (m o : String) : Prop :=
  ∃ e ∈ s.memberships, e.memberId = m ∧ e.objectId = o ∧ s.typeOf o = some "team"

/-- `p` is the actor or a team it transitively belongs to. -/
def Principal (s : Store) (a p : String) : Prop := Relation.ReflTransGen s.TeamEdge a p

/-- `p` is the scope parent of `x`. -/
def ScopeEdge (s : Store) (x p : String) : Prop := s.parentOf x = some p

/-- A principal of `a` holds a membership on `y`. -/
def Anchor (s : Store) (a y : String) : Prop :=
  ∃ m ∈ s.memberships, m.objectId = y ∧ s.Principal a m.memberId

/-- A principal of `a` holds a membership on the entity `n` scope hops above `x`. -/
def AnchorAt (s : Store) (a x : String) (n : Nat) : Prop :=
  ∃ y, Hops s.ScopeEdge n x y ∧ s.Anchor a y

/-! ### The three closures -/

theorem mem_teamsOf {s : Store} {m o : String} : o ∈ s.teamsOf m ↔ s.TeamEdge m o := by
  unfold teamsOf TeamEdge
  rw [List.mem_map]
  refine ⟨fun h => ?_, fun h => ?_⟩
  · obtain ⟨e, he, ho⟩ := h
    rw [List.mem_filter] at he
    obtain ⟨hmem, hcond⟩ := he
    simp only [Bool.and_eq_true, decide_eq_true_eq] at hcond
    exact ⟨e, hmem, hcond.1, ho, ho ▸ hcond.2⟩
  · obtain ⟨e, hmem, hm, ho, hteam⟩ := h
    refine ⟨e, List.mem_filter.mpr ⟨hmem, ?_⟩, ho⟩
    simp only [Bool.and_eq_true, decide_eq_true_eq]
    exact ⟨hm, ho.symm ▸ hteam⟩

theorem teamsOf_subset (s : Store) :
    ∀ x, ∀ y ∈ s.teamsOf x, y ∈ s.memberships.rows.map MemberEdge.objectId := by
  intro x y hy
  obtain ⟨e, he, -, ho, -⟩ := mem_teamsOf.mp hy
  exact List.mem_map.mpr ⟨e, he, ho⟩

/-- The loop of `principals` ends with the closure of the actor under membership on a team. -/
theorem computes_principals (s : Store) (a : String) :
    Computes (yieldNew s.teamsOf) [a] (Relation.ReflTransGen s.TeamEdge a) := by
  have hedge : (fun y z => z ∈ s.teamsOf y) = s.TeamEdge := by
    funext y z
    exact propext mem_teamsOf
  refine (computes_closure (applies_yieldNew _) (stops_yieldNew s.teamsOf_subset)).congr fun p => ?_
  rw [hedge]
  simp

theorem leaves_principals (s : Store) (a : String) :
    Leaves (yieldNew s.teamsOf) [a] (s.principals a) := by
  have honce : List.dedup [a] = [a] := rfl
  rw [← honce]
  exact leaves_union s.teamsOf_subset (by simp)

/-- `principals` is the closure of the actor under membership on a team. -/
theorem mem_principals {s : Store} {a p : String} : p ∈ s.principals a ↔ s.Principal a p :=
  (computes_principals s a).mem_iff (leaves_principals s a) p

theorem mem_childrenOf {s : Store} {x y : String} : y ∈ s.childrenOf x ↔ s.ScopeEdge y x := by
  unfold childrenOf ScopeEdge parentOf
  rw [List.mem_map, Option.bind_eq_some_iff]
  refine ⟨fun h => ?_, fun h => ?_⟩
  · obtain ⟨d, hd, hy⟩ := h
    rw [List.mem_filter] at hd
    exact ⟨d, Table.find?_eq_some.mpr ⟨hd.1, hy⟩, by simpa using hd.2⟩
  · obtain ⟨d, hd, hp⟩ := h
    obtain ⟨hmem, hkey⟩ := Table.find?_eq_some.mp hd
    exact ⟨d, List.mem_filter.mpr ⟨hmem, by simpa using hp⟩, hkey⟩

theorem mem_anchors {s : Store} {a y : String} : y ∈ s.anchors a ↔ s.Anchor a y := by
  unfold anchors Anchor
  rw [List.mem_dedup, List.mem_map]
  refine ⟨fun h => ?_, fun h => ?_⟩
  · obtain ⟨m, hm, ho⟩ := h
    rw [List.mem_filter] at hm
    exact ⟨m, hm.1, ho, mem_principals.mp (by simpa using hm.2)⟩
  · obtain ⟨m, hm, ho, hp⟩ := h
    exact ⟨m, List.mem_filter.mpr ⟨hm, by simpa using mem_principals.mpr hp⟩, ho⟩

theorem childrenOf_subset (s : Store) :
    ∀ p, ∀ y ∈ s.childrenOf p, y ∈ s.entityData.rows.map EntityData.entityId := by
  intro p y hy
  unfold childrenOf at hy
  obtain ⟨d, hd, hkey⟩ := List.mem_map.mp hy
  exact List.mem_map.mpr ⟨d, (List.mem_filter.mp hd).1, hkey⟩

/-- The loop of `reach` ends with the anchors and their scope descendants. -/
theorem computes_reach (s : Store) (a : String) :
    Computes (yieldNew s.childrenOf) (s.anchors a) fun x =>
      ∃ y, s.Anchor a y ∧ Relation.ReflTransGen (fun p c => s.ScopeEdge c p) y x := by
  have hedge : (fun p y => y ∈ s.childrenOf p) = fun p y => s.ScopeEdge y p := by
    funext p y
    exact propext mem_childrenOf
  refine (computes_closure (applies_yieldNew _)
    (stops_yieldNew s.childrenOf_subset)).congr fun x => ?_
  rw [hedge]
  simp only [mem_anchors]

theorem leaves_reach (s : Store) (a : String) :
    Leaves (yieldNew s.childrenOf) (s.anchors a) (s.reach a) := by
  have honce : (s.anchors a).dedup = s.anchors a := List.dedup_idem
  rw [← honce]
  exact leaves_union s.childrenOf_subset (by simp)

/-- The cascade reaches what has an anchor at some distance above it. -/
theorem mem_reach {s : Store} {a x : String} : x ∈ s.reach a ↔ ∃ n, s.AnchorAt a x n := by
  rw [(computes_reach s a).mem_iff (leaves_reach s a)]
  refine ⟨fun h => ?_, fun h => ?_⟩
  · obtain ⟨y, hy, hyx⟩ := h
    obtain ⟨n, hn⟩ := reflTransGen_iff_hops.mp hyx
    exact ⟨n, y, hn.reverse, hy⟩
  · obtain ⟨n, y, hn, hy⟩ := h
    exact ⟨y, hy, reflTransGen_iff_hops.mpr ⟨n, hn.reverse⟩⟩

/-- One climb of a depth-counting row is one scope hop, taken below depth eight. -/
theorem mem_climb {s : Store} {r q : String × Nat} :
    q ∈ s.climb r ↔ r.2 < 8 ∧ s.ScopeEdge r.1 q.1 ∧ q.2 = r.2 + 1 := by
  unfold climb ScopeEdge
  by_cases hlt : r.2 < 8
  · rw [if_pos hlt]
    cases hp : s.parentOf r.1 with
    | none => simp
    | some p =>
        simp only [Option.map_some, Option.toList_some, List.mem_singleton, Option.some.injEq,
          Prod.ext_iff]
        exact ⟨fun h => ⟨hlt, h.1.symm, h.2⟩, fun h => ⟨h.2.1.symm, h.2.2⟩⟩
  · rw [if_neg hlt]
    simp [hlt]

theorem hops_climb {s : Store} {q : String × Nat} :
    ∀ (k : Nat) (r : String × Nat), Hops (fun y z => z ∈ s.climb y) k r q ↔
      Hops s.ScopeEdge k r.1 q.1 ∧ q.2 = r.2 + k ∧ (k = 0 ∨ r.2 + k ≤ 8) := by
  intro k
  induction k with
  | zero =>
      intro r
      show r = q ↔ r.1 = q.1 ∧ q.2 = r.2 + 0 ∧ (0 = 0 ∨ r.2 + 0 ≤ 8)
      rw [Prod.ext_iff]
      exact ⟨fun h => ⟨h.1, h.2.symm, Or.inl rfl⟩, fun h => ⟨h.1, h.2.1.symm⟩⟩
  | succ k ih =>
      intro r
      refine ⟨fun h => ?_, fun h => ?_⟩
      · obtain ⟨c, hc, hrest⟩ := h
        obtain ⟨hlt, hedge, hdepth⟩ := mem_climb.mp hc
        obtain ⟨hhops, hq, hk⟩ := (ih c).mp hrest
        exact ⟨⟨c.1, hedge, hhops⟩, by omega, by omega⟩
      · obtain ⟨⟨p, hedge, hhops⟩, hq, hk⟩ := h
        refine ⟨(p, r.2 + 1), mem_climb.mpr ⟨by omega, hedge, rfl⟩, ?_⟩
        exact (ih (p, r.2 + 1)).mpr ⟨hhops, by omega, by omega⟩

/-- A row of depth `d` leaves `8 - d` climbs to the row above it. -/
theorem climb_left (s : Store) : ∀ r, ∀ q ∈ s.climb r, 8 - q.2 < 8 - r.2 := by
  intro r q hq
  obtain ⟨hlt, -, hdepth⟩ := mem_climb.mp hq
  omega

/-- The loop of `scopes` ends with the object and its ancestors, each with its distance. -/
theorem computes_scopes (s : Store) (x : String) :
    Computes (yieldAll s.climb) [(x, 0)] fun r => r.2 ≤ 8 ∧ Hops s.ScopeEdge r.2 x r.1 := by
  refine (computes_closure (applies_yieldAll _) (stops_yieldAll s.climb_left)).congr fun r => ?_
  constructor
  · rintro ⟨q, hq, hqr⟩
    obtain rfl : q = (x, 0) := by simpa using hq
    obtain ⟨k, hk⟩ := reflTransGen_iff_hops.mp hqr
    obtain ⟨hhops, hdepth, hcap⟩ := (hops_climb k _).mp hk
    obtain rfl : k = r.2 := by omega
    exact ⟨by omega, hhops⟩
  · rintro ⟨hle, hhops⟩
    refine ⟨(x, 0), by simp, reflTransGen_iff_hops.mpr ⟨r.2, (hops_climb r.2 _).mpr ?_⟩⟩
    exact ⟨hhops, by omega, Or.inr (by omega)⟩

theorem leaves_scopes (s : Store) (x : String) :
    Leaves (yieldAll s.climb) [(x, 0)] (unionAll s.climb 9 [(x, 0)]) :=
  leaves_unionAll s.climb_left (by simp)

/-- `scopes` is the object and its ancestors at most eight hops up. -/
theorem mem_scopes {s : Store} {x y : String} :
    y ∈ s.scopes x ↔ ∃ n ≤ 8, Hops s.ScopeEdge n x y := by
  have hrow := (computes_scopes s x).mem_iff (leaves_scopes s x)
  unfold scopes
  rw [List.mem_map]
  refine ⟨fun h => ?_, fun h => ?_⟩
  · obtain ⟨r, hr, rfl⟩ := h
    exact ⟨r.2, (hrow r).mp hr⟩
  · obtain ⟨n, hn, hhops⟩ := h
    exact ⟨(y, n), (hrow (y, n)).mpr ⟨hn, hhops⟩, rfl⟩

/--
**The three recursive queries end and are exact, whatever the graph.**  Nothing is asked of
the store, and memberships or scope parents may run in circles: the first and the last loop
run out of rows that are not there yet, the second out of depth.
-/
theorem closures_end_exact (s : Store) (a x : String) :
    (Computes (yieldNew s.teamsOf) [a] (Relation.ReflTransGen s.TeamEdge a) ∧
      Leaves (yieldNew s.teamsOf) [a] (s.principals a) ∧
      ∀ p, p ∈ s.principals a ↔ Relation.ReflTransGen s.TeamEdge a p) ∧
    (Computes (yieldAll s.climb) [(x, 0)]
        (fun r => r.2 ≤ 8 ∧ Hops s.ScopeEdge r.2 x r.1) ∧
      (∃ rows, Leaves (yieldAll s.climb) [(x, 0)] rows ∧ s.scopes x = rows.map Prod.fst) ∧
      ∀ y, y ∈ s.scopes x ↔ ∃ n ≤ 8, Hops s.ScopeEdge n x y) ∧
    (Computes (yieldNew s.childrenOf) (s.anchors a)
        (fun y => ∃ z, s.Anchor a z ∧ Relation.ReflTransGen (fun p c => s.ScopeEdge c p) z y) ∧
      Leaves (yieldNew s.childrenOf) (s.anchors a) (s.reach a) ∧
      ∀ y, y ∈ s.reach a ↔
        ∃ z, s.Anchor a z ∧ Relation.ReflTransGen (fun p c => s.ScopeEdge c p) z y) := by
  refine ⟨⟨computes_principals s a, leaves_principals s a, fun p => mem_principals⟩,
    ⟨computes_scopes s x, ⟨_, leaves_scopes s x, rfl⟩, fun y => mem_scopes⟩,
    ⟨computes_reach s a, leaves_reach s a, fun y => ?_⟩⟩
  exact (computes_reach s a).mem_iff (leaves_reach s a) y

/-! ### The climb and the cascade -/

theorem mem_rankedEdges {s : Store} {a x : String} {r : I32} :
    r ∈ (s.memberships.rows.filter fun m =>
        m.memberId ∈ s.principals a && m.objectId ∈ s.scopes x).filterMap
          (fun m => s.rankOf m.role) ↔
      ∃ m ∈ s.memberships, s.Principal a m.memberId ∧ m.objectId ∈ s.scopes x ∧
        s.rankOf m.role = some r := by
  rw [List.mem_filterMap]
  refine ⟨fun h => ?_, fun h => ?_⟩
  · obtain ⟨m, hm, hrank⟩ := h
    rw [List.mem_filter] at hm
    obtain ⟨hmem, hcond⟩ := hm
    simp only [Bool.and_eq_true, decide_eq_true_eq] at hcond
    exact ⟨m, hmem, mem_principals.mp hcond.1, hcond.2, hrank⟩
  · obtain ⟨m, hmem, hp, hscope, hrank⟩ := h
    refine ⟨m, List.mem_filter.mpr ⟨hmem, ?_⟩, hrank⟩
    simp only [Bool.and_eq_true, decide_eq_true_eq]
    exact ⟨mem_principals.mpr hp, hscope⟩

/-- An effective rank is the rank of an edge the caller's principals hold in the scope chain. -/
theorem effectiveRank_eq_some {s : Store} {a x : String} {r : I32}
    (h : s.effectiveRank a x = some r) :
    ∃ m ∈ s.memberships, s.Principal a m.memberId ∧ m.objectId ∈ s.scopes x ∧
      s.rankOf m.role = some r := by
  unfold effectiveRank at h
  exact mem_rankedEdges.mp (List.max?_mem h)

/-- The climb finds a rank exactly when there is an anchor at most eight hops up. -/
theorem effectiveRank_isSome {s : Store} (hs : s.Valid) {a x : String} :
    (∃ r, s.effectiveRank a x = some r) ↔ ∃ n ≤ 8, s.AnchorAt a x n := by
  refine ⟨fun h => ?_, fun h => ?_⟩
  · obtain ⟨r, hr⟩ := h
    obtain ⟨m, hmem, hp, hscope, -⟩ := effectiveRank_eq_some hr
    obtain ⟨n, hn, hhops⟩ := mem_scopes.mp hscope
    exact ⟨n, hn, m.objectId, hhops, m, hmem, rfl, hp⟩
  · obtain ⟨n, hn, y, hhops, m, hmem, hobj, hp⟩ := h
    have hrole : s.roles.has m.role = true := by
      have hedge := hs.edgeRefs m hmem
      simp only [memberEdgeOk, Bool.and_eq_true] at hedge
      exact hedge.2
    obtain ⟨role, hrole'⟩ := Option.isSome_iff_exists.mp hrole
    have hrank : s.rankOf m.role = some role.rank := by
      unfold rankOf
      rw [hrole']
      rfl
    have hscope : m.objectId ∈ s.scopes x := mem_scopes.mpr ⟨n, hn, hobj ▸ hhops⟩
    have hmemRank := mem_rankedEdges.mpr ⟨m, hmem, hp, hscope, hrank⟩
    refine Option.isSome_iff_exists.mp ?_
    unfold effectiveRank
    rw [List.isSome_max?_iff]
    exact List.ne_nil_of_mem hmemRank

/-- Ranks of registered roles carry over to effective ranks. -/
theorem effectiveRank_pos {s : Store} (hranks : ∀ r ∈ s.roles, (1 : I32) ≤ r.rank)
    {a x : String} {r : I32} (h : s.effectiveRank a x = some r) : (1 : I32) ≤ r := by
  obtain ⟨m, -, -, -, hrank⟩ := effectiveRank_eq_some h
  unfold rankOf at hrank
  obtain ⟨role, hrole, rfl⟩ := Option.map_eq_some_iff.mp hrank
  exact hranks role (Table.mem_of_find? hrole)

/-- The listing of a type and the cross-type listing show `x` exactly when the gate admits it. -/
def ReachAgrees (s : Store) (a t x : String) : Prop :=
  (x ∈ s.reachableEntityIds a t ↔ ∃ r, s.effectiveRank a x = some r ∧ (1 : I32) ≤ r) ∧
    (x ∈ s.reachableEntityIdsAny a ↔ ∃ r, s.effectiveRank a x = some r ∧ (1 : I32) ≤ r)

theorem mem_reachableEntityIds {s : Store} {a t x : String} {d : EntityData}
    (hd : s.row? x t = some d) : x ∈ s.reachableEntityIds a t ↔ x ∈ s.reach a := by
  unfold reachableEntityIds
  rw [List.mem_filter, hd]
  simp

/--
**The cascade and the climb agree on an entity exactly when the nearest anchor
above it, if there is one, is at most eight scope hops away.**
-/
theorem reachAgrees_iff_anchor_within_eight (s : Store) (hs : s.Valid)
    (hranks : ∀ r ∈ s.roles, (1 : I32) ≤ r.rank) (a t x : String) (d : EntityData)
    (hd : s.row? x t = some d) :
    s.ReachAgrees a t x ↔ ((∃ n, s.AnchorAt a x n) → ∃ n ≤ 8, s.AnchorAt a x n) := by
  have hgate : (∃ r, s.effectiveRank a x = some r ∧ (1 : I32) ≤ r) ↔
      ∃ n ≤ 8, s.AnchorAt a x n := by
    rw [← effectiveRank_isSome hs]
    refine ⟨fun h => ?_, fun h => ?_⟩
    · obtain ⟨r, hr, -⟩ := h
      exact ⟨r, hr⟩
    · obtain ⟨r, hr⟩ := h
      exact ⟨r, hr, effectiveRank_pos hranks hr⟩
  have hfar : (∃ n ≤ 8, s.AnchorAt a x n) → ∃ n, s.AnchorAt a x n := by
    intro h
    obtain ⟨n, -, hn⟩ := h
    exact ⟨n, hn⟩
  unfold ReachAgrees
  rw [mem_reachableEntityIds hd, reachableEntityIdsAny, mem_reach, hgate]
  exact ⟨fun h => h.1.mp, fun h => ⟨⟨h, hfar⟩, h, hfar⟩⟩

end Store

/-! ### A thread of comments nine deep -/

/-- A type without fields, for stores where only the graph matters. -/
def plainType (typeId idPrefix : String) : TypeDef where
  typeId := typeId
  idPrefix := idPrefix
  scopeParents := []
  methodPolicy := .obj []
  fields := []
  nodup := by decide

/-- A project and nine comments, each on the one before; its owner is not their author. -/
def commentThread : List EntityData :=
  ({ entityId := "PRJ_1", typeId := "project", data := .obj [] } : EntityData) ::
    ([("CMT_1", "PRJ_1"), ("CMT_2", "CMT_1"), ("CMT_3", "CMT_2"), ("CMT_4", "CMT_3"),
      ("CMT_5", "CMT_4"), ("CMT_6", "CMT_5"), ("CMT_7", "CMT_6"), ("CMT_8", "CMT_7"),
      ("CMT_9", "CMT_8")].map fun c =>
        { entityId := c.1, typeId := "comment", data := .obj [("subject_id", .str c.2)],
          scopeParentId := some c.2 })

/-- The store of that thread. -/
def threadStore : Store where
  typeDefinitions :=
    ⟨[plainType "actor" "USR", plainType "project" "PRJ", plainType "comment" "CMT"], by decide⟩
  entities := ⟨⟨"USR_alice", "actor", none⟩ ::
    commentThread.map fun d => ⟨d.entityId, d.typeId, none⟩, by decide⟩
  entityData := ⟨commentThread, by decide⟩
  memberships := ⟨[{ objectId := "PRJ_1", memberId := "USR_alice", role := "owner" }], by decide⟩
  roles := seededRoles

theorem threadStore_valid : threadStore.Valid where
  entityType := by decide
  dataEntity := by decide
  dataParent := by decide
  edgeRefs := by decide
  caseRefs := by decide

/-- The ninth comment is listed for the project's owner and answers 404 to a GET. -/
theorem ninth_comment_listed_but_denied :
    threadStore.Valid ∧ (∀ r ∈ threadStore.roles, (1 : I32) ≤ r.rank) ∧
      threadStore.row? "CMT_9" "comment" ≠ none ∧
      "CMT_9" ∈ threadStore.reachableEntityIds "USR_alice" "comment" ∧
      threadStore.effectiveRank "USR_alice" "CMT_9" = none ∧
      ¬ threadStore.ReachAgrees "USR_alice" "comment" "CMT_9" := by
  have hlisted : "CMT_9" ∈ threadStore.reachableEntityIds "USR_alice" "comment" := by decide
  have hdenied : threadStore.effectiveRank "USR_alice" "CMT_9" = none := by decide
  refine ⟨threadStore_valid, by decide, by decide, hlisted, hdenied, ?_⟩
  intro h
  obtain ⟨r, hr, -⟩ := h.1.mp hlisted
  rw [hdenied] at hr
  simp at hr

/-- The eighth comment is still within the cap, and the two directions agree on it. -/
theorem eighth_comment_agrees : threadStore.ReachAgrees "USR_alice" "comment" "CMT_8" := by
  obtain ⟨d, hd⟩ := Option.isSome_iff_exists.mp
    (by decide : (threadStore.row? "CMT_8" "comment").isSome = true)
  refine (Store.reachAgrees_iff_anchor_within_eight threadStore threadStore_valid (by decide)
    "USR_alice" "comment" "CMT_8" d hd).mpr fun _ => ?_
  exact (Store.effectiveRank_isSome threadStore_valid).mp ⟨4, by decide⟩

end Numu
