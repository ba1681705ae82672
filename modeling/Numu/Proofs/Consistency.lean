/-
What holds of the tables at every moment, whoever writes and in whatever order.

The foreign keys of every table are kept: a statement checks the ones it writes, and a
deletion follows them.  Beyond what the migrations declare, every entity has one row of
its own type, every case is mirrored, an edge is of a known type between two entities
apart, and there is no second of its type between them.  The roles, the workflows and
the overrides of fields never change, and a type stays as it was registered.

All of it is a case analysis over `Store.Change`, so it holds in every interleaving of
any requests and not only between them.
-/
import Numu.Proofs.Changes

namespace Numu

open Fallible

/-! ### Nothing is lost but by a deletion -/

/-- Nothing a key can name has gone, and what never changes has not. -/
structure Store.Extends (s t : Store) : Prop extends s.Grows t where
  cases : ∀ k, s.cases.has k = true → t.cases.has k = true
  runs : ∀ k, s.featureRuns.has k = true → t.featureRuns.has k = true

section Extends

variable {s t : Store} {P : EventRow → Prop} {E : AuthIdentity → Prop}

theorem Store.Extends.of_eq (htypes : t.typeDefinitions = s.typeDefinitions)
    (hents : t.entities = s.entities) (hroles : t.roles = s.roles)
    (hworkflows : t.workflows = s.workflows) (hcases : t.cases = s.cases)
    (hruns : t.featureRuns = s.featureRuns) : s.Extends t :=
  ⟨.of_eq htypes hents hroles hworkflows, fun _ h => hcases ▸ h, fun _ h => hruns ▸ h⟩

theorem Table.has_modify {κ ρ : Type} [DecidableEq κ] {key : ρ → κ} {t : Table key} {f : ρ → ρ}
    {hf : ∀ r, key (f r) = key r} {k : κ} : (t.modify f hf).has k = t.has k := by
  unfold Table.has
  rw [Table.find?_modify, Option.isSome_map]

/-- A change that is not a deletion only adds to what a key can name. -/
theorem Store.Change.extends (h : s.Change P E t) :
    (∃ id, t = cascadeDelete s id) ∨ s.Extends t := by
  cases h with
  | created entity _ _ _ _ _ _ mirror =>
      refine Or.inr ⟨⟨fun _ h => h, fun k hk => ?_, rfl, rfl⟩, fun k hk => ?_, fun _ h => h⟩
      · exact (Table.has_insert entity).mpr (Or.inl hk)
      · rcases mirror with ⟨rfl, -⟩ | ⟨c, rfl, -, -⟩
        · exact hk
        · exact Table.has_upsert.mpr (Or.inl hk)
  | enrolled entity =>
      refine Or.inr ⟨⟨fun _ h => h, fun k hk => ?_, rfl, rfl⟩, fun _ h => h, fun _ h => h⟩
      exact (Table.has_insert entity).mpr (Or.inl hk)
  | mirrored =>
      refine Or.inr ⟨⟨fun _ h => h, fun _ h => h, rfl, rfl⟩, fun k hk => ?_, fun _ h => h⟩
      exact Table.has_upsert.mpr (Or.inl hk)
  | removed => exact Or.inl ⟨_, rfl⟩
  | started row =>
      refine Or.inr ⟨⟨fun _ h => h, fun _ h => h, rfl, rfl⟩, fun _ h => h, fun k hk => ?_⟩
      exact (Table.has_insert row).mpr (Or.inl hk)
  | moved =>
      refine Or.inr ⟨⟨fun _ h => h, fun _ h => h, rfl, rfl⟩, fun _ h => h, fun k hk => ?_⟩
      rw [Table.has_modify]
      exact hk
  | registered row =>
      refine Or.inr ⟨⟨fun k hk => ?_, fun _ h => h, rfl, rfl⟩, fun _ h => h, fun _ h => h⟩
      exact (Table.has_insert row).mpr (Or.inl hk)
  | _ => exact Or.inr (.of_eq rfl rfl rfl rfl rfl rfl)

end Extends

/-! ### The foreign keys -/

section Valid

variable {s t : Store} {P : EventRow → Prop} {E : AuthIdentity → Prop}

theorem Store.Valid.changed (hs : s.Valid) (h : s.Change P E t) : t.Valid := by
  rcases h.extends with ⟨id, rfl⟩ | hg
  · exact hs.deleted id
  cases h with
  | created entity data own kind type parent edge mirror =>
      refine hs.grows hg.toGrows ?_ ?_ ?_ ?_
      · exact Table.insert_or entity type
      · refine Table.insert_or data ⟨?_, parent⟩
        rw [own]
        exact (Table.has_insert entity).mpr (Or.inr rfl)
      · exact Table.upsert_or edge
      · rcases mirror with ⟨rfl, -⟩ | ⟨c, rfl, -, hrefs⟩
        · exact fun _ => Or.inl
        · exact Table.upsert_or hrefs
  | enrolled entity data identity own of linked kind actor type parent =>
      refine hs.grows hg.toGrows (Table.insert_or entity type) ?_ (fun _ => Or.inl) fun _ => Or.inl
      refine Table.insert_or data ⟨?_, by rw [parent]; rfl⟩
      rw [own]
      exact (Table.has_insert entity).mpr (Or.inr rfl)
  | @stored row d found own type parent =>
      refine hs.rowUpdated found rfl own ?_ hg.toGrows rfl rfl fun _ => Or.inl
      rcases parent with hsame | hparent
      · rw [hsame]
        exact hs.dataParent row found
      · exact hparent
  | mirrored refs =>
      exact hs.grows hg.toGrows (fun _ => Or.inl) (fun _ => Or.inl) (fun _ => Or.inl)
        (Table.upsert_or refs)
  | removed => exact hs.deleted _
  | granted edge =>
      exact hs.grows hg.toGrows (fun _ => Or.inl) (fun _ => Or.inl) (Table.upsert_or edge)
        fun _ => Or.inl
  | @regraded old m found own role =>
      refine hs.grows hg.toGrows (fun _ => Or.inl) (fun _ => Or.inl) (Table.upsert_or ?_)
        fun _ => Or.inl
      have hedge := hs.edgeRefs old found
      obtain ⟨hobject, hmember⟩ := Prod.mk.inj own
      simp only [memberEdgeOk, Bool.and_eq_true] at hedge ⊢
      rw [hobject, hmember]
      exact ⟨hedge.1, role⟩
  | revoked =>
      refine hs.grows hg.toGrows (fun _ => Or.inl) (fun _ => Or.inl) (fun m hm => ?_)
        fun _ => Or.inl
      exact Or.inl (Table.mem_filter.mp hm).1
  | registered =>
      exact hs.grows hg.toGrows (fun _ => Or.inl) (fun _ => Or.inl) (fun _ => Or.inl)
        fun _ => Or.inl
  | _ =>
      exact hs.grows hg.toGrows (fun _ => Or.inl) (fun _ => Or.inl) (fun _ => Or.inl)
        fun _ => Or.inl

/-- The foreign keys of the tables around the objects. -/
structure Store.Referenced (s : Store) : Prop where
  checks : ∀ c ∈ s.closeChecks, s.cases.has c.caseId = true
  identities : ∀ a ∈ s.authIdentities, s.entities.has a.actorId = true
  runs : ∀ r ∈ s.featureRuns, ∀ id, r.caseId = some id → s.cases.has id = true
  handoffs : ∀ h ∈ s.roleHandoffs, s.featureRuns.has h.featureRunId = true
  events : ∀ ev ∈ s.events, s.refOk ev.entityId = true

theorem Store.case_deleted {x k : String} :
    (cascadeDelete s x).cases.has k = true ↔ s.cases.has k = true ∧ k ≠ x := by
  unfold cascadeDelete
  rw [Table.has_modify, Table.has_iff, Table.has_iff]
  constructor
  · rintro ⟨c, hc, rfl⟩
    obtain ⟨hmem, hne⟩ := Table.mem_filter.mp hc
    exact ⟨⟨c, hmem, rfl⟩, by simpa using hne⟩
  · rintro ⟨⟨c, hc, rfl⟩, hne⟩
    exact ⟨c, Table.mem_filter.mpr ⟨hc, by simpa using hne⟩, rfl⟩

theorem Store.mem_featureRuns_deleted {x : String} {r : FeatureRun} :
    r ∈ (cascadeDelete s x).featureRuns ↔ ∃ q ∈ s.featureRuns,
      { q with caseId := if q.caseId = some x then none else q.caseId } = r := by
  unfold cascadeDelete
  rw [Table.mem_modify]

theorem Store.Referenced.deleted (hs : s.Referenced) (x : String) :
    (cascadeDelete s x).Referenced where
  checks := by
    intro c hc
    obtain ⟨hmem, hne⟩ := Table.mem_filter.mp hc
    exact Store.case_deleted.mpr ⟨hs.checks c hmem, by simpa using hne⟩
  identities := by
    intro a ha
    obtain ⟨hmem, hne⟩ := Table.mem_filter.mp ha
    exact Store.has_deleted.mpr ⟨hs.identities a hmem, by simpa using hne⟩
  runs := by
    intro r hr id hid
    obtain ⟨q, hq, rfl⟩ := Store.mem_featureRuns_deleted.mp hr
    by_cases hcase : q.caseId = some x
    · simp [hcase] at hid
    · have hsame : q.caseId = some id := by simpa [hcase] using hid
      exact Store.case_deleted.mpr ⟨hs.runs q hq id hsame, fun heq => hcase (heq ▸ hsame)⟩
  handoffs := by
    intro h hh
    unfold cascadeDelete
    rw [Table.has_modify]
    exact hs.handoffs h hh
  events := by
    intro ev hev
    obtain ⟨q, hq, rfl⟩ := List.mem_map.mp hev
    by_cases hentity : q.entityId = some x
    · rw [if_pos hentity]
      rfl
    · rw [if_neg hentity]
      exact Store.refOk_deleted.mpr ⟨hs.events q hq, hentity⟩

/-- A store that extends another keeps these keys, when the rows that are new have theirs. -/
theorem Store.Referenced.extends (hs : s.Referenced) (hg : s.Extends t)
    (hchecks : ∀ c ∈ t.closeChecks, c ∈ s.closeChecks ∨ t.cases.has c.caseId = true)
    (hidentities : ∀ a ∈ t.authIdentities,
      a ∈ s.authIdentities ∨ t.entities.has a.actorId = true)
    (hruns : ∀ r ∈ t.featureRuns, (∃ q ∈ s.featureRuns, r.caseId = q.caseId) ∨
      ∀ id, r.caseId = some id → t.cases.has id = true)
    (hhandoffs : ∀ h ∈ t.roleHandoffs,
      h ∈ s.roleHandoffs ∨ t.featureRuns.has h.featureRunId = true)
    (hevents : ∀ ev ∈ t.events, ev ∈ s.events ∨ t.refOk ev.entityId = true) : t.Referenced where
  checks := fun c hc => (hchecks c hc).elim (fun h => hg.cases _ (hs.checks c h)) id
  identities := fun a ha => (hidentities a ha).elim (fun h => hg.entities _ (hs.identities a h)) id
  runs := by
    intro r hr
    rcases hruns r hr with ⟨q, hq, hsame⟩ | hnew
    · intro k hk
      exact hg.cases k (hs.runs q hq k (hsame ▸ hk))
    · exact hnew
  handoffs := fun h hh => (hhandoffs h hh).elim (fun h' => hg.runs _ (hs.handoffs h h')) id
  events := fun ev hev => (hevents ev hev).elim (fun h => hg.refOk (hs.events ev h)) id

theorem Store.Referenced.changed (hs : s.Referenced) (h : s.Change P E t) : t.Referenced := by
  rcases h.extends with ⟨id, rfl⟩ | hg
  · exact hs.deleted id
  have hrun : ∀ r ∈ s.featureRuns, (∃ q ∈ s.featureRuns, r.caseId = q.caseId) ∨
      ∀ id, r.caseId = some id → t.cases.has id = true := fun r hr => Or.inl ⟨r, hr, rfl⟩
  cases h with
  | logged _ ref =>
      refine hs.extends hg (fun _ => Or.inl) (fun _ => Or.inl) hrun (fun _ => Or.inl) ?_
      intro ev hev
      rcases List.mem_append.mp hev with hev | hev
      · exact Or.inl hev
      · obtain rfl := List.mem_singleton.mp hev
        exact Or.inr ref
  | enrolled entity _ identity _ _ linked =>
      refine hs.extends hg (fun _ => Or.inl) (Table.insert_or identity ?_) hrun (fun _ => Or.inl)
        fun _ => Or.inl
      rw [linked]
      exact (Table.has_insert entity).mpr (Or.inr rfl)
  | removed => exact hs.deleted _
  | checked case =>
      exact hs.extends hg (Table.upsert_or case) (fun _ => Or.inl) hrun (fun _ => Or.inl)
        fun _ => Or.inl
  | started row case =>
      refine hs.extends hg (fun _ => Or.inl) (fun _ => Or.inl) ?_ (fun _ => Or.inl)
        fun _ => Or.inl
      intro r hr
      rcases (Table.mem_insert row).mp hr with hr | rfl
      · exact Or.inl ⟨r, hr, rfl⟩
      · exact Or.inr case
  | handed run =>
      refine hs.extends hg (fun _ => Or.inl) (fun _ => Or.inl) hrun ?_ fun _ => Or.inl
      intro h hh
      rcases List.mem_append.mp hh with hh | hh
      · exact Or.inl hh
      · obtain rfl := List.mem_singleton.mp hh
        exact Or.inr run
  | @moved f hf case =>
      refine hs.extends hg (fun _ => Or.inl) (fun _ => Or.inl) ?_ (fun _ => Or.inl)
        fun _ => Or.inl
      intro r hr
      have hr : r ∈ s.featureRuns.modify f hf := hr
      obtain ⟨q, hq, rfl⟩ := Table.mem_modify.mp hr
      exact Or.inl ⟨q, hq, case q⟩
  | _ =>
      exact hs.extends hg (fun _ => Or.inl) (fun _ => Or.inl) hrun (fun _ => Or.inl)
        fun _ => Or.inl

end Valid

/-! ### What the handlers keep -/

section Kept

variable {s t : Store} {P : EventRow → Prop} {E : AuthIdentity → Prop}

/-- Every entity has its row, under its type, and every case has its mirror. -/
structure Store.Paired (s : Store) : Prop where
  rows : ∀ e ∈ s.entities, ∃ d ∈ s.entityData, d.entityId = e.id ∧ d.typeId = e.type
  cases : ∀ e ∈ s.entities, e.type = "case" → s.cases.has e.id = true

theorem Store.Paired.deleted (hs : s.Paired) (x : String) : (cascadeDelete s x).Paired where
  rows := by
    intro e he
    obtain ⟨hmem, hne⟩ := Table.mem_filter.mp he
    obtain ⟨d, hd, hid, htype⟩ := hs.rows e hmem
    refine ⟨d.orphaned x, Store.mem_entityData_deleted.mpr ⟨d, hd, ?_, rfl⟩, ?_, ?_⟩
    · rw [hid]
      simpa using hne
    · rw [EntityData.orphaned_entityId]
      exact hid
    · unfold EntityData.orphaned
      split
      · exact htype
      · exact htype
  cases := by
    intro e he hcase
    obtain ⟨hmem, hne⟩ := Table.mem_filter.mp he
    exact Store.case_deleted.mpr ⟨hs.cases e hmem hcase, by simpa using hne⟩

/-- A row that is put anew stays the row of its entity. -/
theorem Store.Paired.stored (hs : s.Paired) {row d : EntityData} (found : row ∈ s.entityData)
    (own : d.entityId = row.entityId) (type : d.typeId = row.typeId) :
    { s with entityData := s.entityData.upsert d }.Paired where
  rows := by
    intro e he
    obtain ⟨q, hq, hid, htype⟩ := hs.rows e he
    by_cases hsame : q.entityId = d.entityId
    · obtain rfl : q = row := List.inj_on_of_nodup_map s.entityData.nodup hq found
        (hsame.trans own)
      exact ⟨d, Table.mem_upsert.mpr (Or.inl rfl), own.trans hid, type.trans htype⟩
    · exact ⟨q, Table.mem_upsert.mpr (Or.inr ⟨hq, hsame⟩), hid, htype⟩
  cases := hs.cases

/-- A new entity comes with its row, and with its mirror where it is a case. -/
theorem Store.Paired.added (hs : s.Paired) {e : Entity} {d : EntityData}
    (hents : s.entities.insert e = some t.entities)
    (hrows : s.entityData.insert d = some t.entityData) (own : d.entityId = e.id)
    (kind : d.typeId = e.type) (hg : s.Extends t)
    (hcase : e.type = "case" → t.cases.has e.id = true) : t.Paired where
  rows := by
    intro q hq
    rcases (Table.mem_insert hents).mp hq with hold | rfl
    · obtain ⟨r, hr, hid⟩ := hs.rows q hold
      exact ⟨r, (Table.mem_insert hrows).mpr (Or.inl hr), hid⟩
    · exact ⟨d, (Table.mem_insert hrows).mpr (Or.inr rfl), own, kind⟩
  cases := by
    intro q hq htype
    rcases (Table.mem_insert hents).mp hq with hold | rfl
    · exact hg.cases _ (hs.cases q hold htype)
    · exact hcase htype

theorem Store.Paired.changed (hs : s.Paired) (h : s.Change P E t) : t.Paired := by
  rcases h.extends with ⟨id, rfl⟩ | hg
  · exact hs.deleted id
  cases h with
  | created entity data own kind type parent edge mirror =>
      refine hs.added entity data own kind hg fun hcase => ?_
      rcases mirror with ⟨-, hother⟩ | ⟨c, rfl, hid, -⟩
      · exact absurd hcase hother
      · exact Table.has_upsert.mpr (Or.inr hid)
  | enrolled entity data identity own of linked kind actor type parent =>
      refine hs.added entity data own kind hg fun hcase => ?_
      rw [actor] at hcase
      exact absurd hcase (by decide)
  | stored found own type parent => exact hs.stored found own type
  | removed => exact hs.deleted _
  | mirrored => exact ⟨hs.rows, fun e he hcase => hg.cases _ (hs.cases e he hcase)⟩
  | _ => exact ⟨hs.rows, hs.cases⟩

/-- An edge is of a known type between two entities apart, its creator is there or forgotten, and
no other is of its type between the same two. -/
structure Store.Edged (s : Store) : Prop where
  known : ∀ r ∈ s.relations, r.relationType ∈ relationTypes
  apart : ∀ r ∈ s.relations, r.subjectId ≠ r.objectId
  ends : ∀ r ∈ s.relations,
    s.entities.has r.subjectId = true ∧ s.entities.has r.objectId = true
  creators : ∀ r ∈ s.relations, s.refOk r.createdBy = true
  single : ∀ r ∈ s.relations, ∀ q ∈ s.relations, q.subjectId = r.subjectId →
    q.objectId = r.objectId → q.relationType = r.relationType → q = r

theorem Store.hasEdge_eq_false {r : RelationRow} : s.hasEdge r = false ↔ ∀ q ∈ s.relations,
    ¬ (q.subjectId = r.subjectId ∧ q.objectId = r.objectId ∧
      q.relationType = r.relationType) := by
  unfold Store.hasEdge
  rw [List.any_eq_false]
  simp only [Bool.and_eq_true, decide_eq_true_eq, and_assoc, Table.mem_def]

/-- Edges that were there keep what they had. -/
theorem Store.Edged.extends (hs : s.Edged) (hg : s.Extends t)
    (hrows : ∀ r ∈ t.relations, r ∈ s.relations) : t.Edged where
  known := fun r hr => hs.known r (hrows r hr)
  apart := fun r hr => hs.apart r (hrows r hr)
  ends := fun r hr => ⟨hg.entities _ (hs.ends r (hrows r hr)).1,
    hg.entities _ (hs.ends r (hrows r hr)).2⟩
  creators := fun r hr => hg.refOk (hs.creators r (hrows r hr))
  single := fun r hr q hq => hs.single r (hrows r hr) q (hrows q hq)

/-- An edge that is left was there, with the same ends, and may have lost its creator. -/
theorem Store.mem_relations_deleted {x : String} {r : RelationRow} :
    r ∈ (cascadeDelete s x).relations ↔
      ∃ q, (q ∈ s.relations ∧ q.subjectId ≠ x ∧ q.objectId ≠ x) ∧
        { q with createdBy := if q.createdBy = some x then none else q.createdBy } = r := by
  unfold cascadeDelete
  rw [Table.mem_modify]
  simp only [Table.mem_filter, Bool.and_eq_true, decide_eq_true_eq]

theorem Store.Edged.deleted (hs : s.Edged) (x : String) : (cascadeDelete s x).Edged := by
  constructor
  · intro r hr
    obtain ⟨q, ⟨hq, -, -⟩, rfl⟩ := Store.mem_relations_deleted.mp hr
    exact hs.known q hq
  · intro r hr
    obtain ⟨q, ⟨hq, -, -⟩, rfl⟩ := Store.mem_relations_deleted.mp hr
    exact hs.apart q hq
  · intro r hr
    obtain ⟨q, ⟨hq, hsubject, hobject⟩, rfl⟩ := Store.mem_relations_deleted.mp hr
    have hends := hs.ends q hq
    exact ⟨Store.has_deleted.mpr ⟨hends.1, hsubject⟩, Store.has_deleted.mpr ⟨hends.2, hobject⟩⟩
  · intro r hr
    obtain ⟨q, ⟨hq, -, -⟩, rfl⟩ := Store.mem_relations_deleted.mp hr
    by_cases hcreator : q.createdBy = some x
    · simp only [if_pos hcreator]
      rfl
    · simp only [if_neg hcreator]
      exact Store.refOk_deleted.mpr ⟨hs.creators q hq, hcreator⟩
  · intro r hr r' hr' hsubject hobject htype
    obtain ⟨q, ⟨hq, -, -⟩, rfl⟩ := Store.mem_relations_deleted.mp hr
    obtain ⟨q', ⟨hq', -, -⟩, rfl⟩ := Store.mem_relations_deleted.mp hr'
    rw [hs.single q hq q' hq' hsubject hobject htype]

theorem Store.Edged.changed (hs : s.Edged) (h : s.Change P E t) : t.Edged := by
  rcases h.extends with ⟨id, rfl⟩ | hg
  · exact hs.deleted id
  cases h with
  | removed => exact hs.deleted _
  | related row single known apart subject object creator =>
      have hnone := Store.hasEdge_eq_false.mp single
      constructor
      · intro r hr
        rcases (Table.mem_insert row).mp hr with hr | rfl
        · exact hs.known r hr
        · exact known
      · intro r hr
        rcases (Table.mem_insert row).mp hr with hr | rfl
        · exact hs.apart r hr
        · exact apart
      · intro r hr
        rcases (Table.mem_insert row).mp hr with hr | rfl
        · exact hs.ends r hr
        · exact ⟨subject, object⟩
      · intro r hr
        rcases (Table.mem_insert row).mp hr with hr | rfl
        · exact hs.creators r hr
        · exact creator
      · intro r hr q hq hsubject hobject htype
        rcases (Table.mem_insert row).mp hr with hr | rfl
        · rcases (Table.mem_insert row).mp hq with hq | rfl
          · exact hs.single r hr q hq hsubject hobject htype
          · exact absurd ⟨hsubject.symm, hobject.symm, htype.symm⟩ (hnone r hr)
        · rcases (Table.mem_insert row).mp hq with hq | rfl
          · exact absurd ⟨hsubject, hobject, htype⟩ (hnone q hq)
          · rfl
  | unrelated => exact hs.extends hg fun r hr => (Table.mem_filter.mp hr).1
  | _ => exact hs.extends hg fun r hr => hr

/-- What the migrations put in and no request changes. -/
structure Store.Seeded (s : Store) : Prop where
  roles : s.roles = seededRoles
  workflows : s.workflows = seededStore.workflows
  overrides : s.fieldPermissions = ∅
  types : ∀ td ∈ seededTypes, td ∈ s.typeDefinitions

theorem Store.Change.types_kept (h : s.Change P E t) {td : TypeDef}
    (htd : td ∈ s.typeDefinitions) : td ∈ t.typeDefinitions := by
  cases h with
  | registered row => exact (Table.mem_insert row).mpr (Or.inl htd)
  | _ => exact htd

theorem Store.Seeded.changed (hs : s.Seeded) (h : s.Change P E t) : t.Seeded where
  roles := by
    rcases h.extends with ⟨id, rfl⟩ | hg
    · exact hs.roles
    · exact hg.roles.trans hs.roles
  workflows := by
    rcases h.extends with ⟨id, rfl⟩ | hg
    · exact hs.workflows
    · exact hg.workflows.trans hs.workflows
  overrides := by
    have hsame : t.fieldPermissions = s.fieldPermissions := by
      cases h with
      | _ => rfl
    exact hsame.trans hs.overrides
  types := fun td htd => h.types_kept (hs.types td htd)

end Kept

/-! ### Every run -/

/-- All of it. -/
structure Store.Consistent (s : Store) : Prop where
  valid : s.Valid
  referenced : s.Referenced
  paired : s.Paired
  edged : s.Edged
  seeded : s.Seeded

theorem Store.Consistent.changed {s t : Store} {P : EventRow → Prop} {E : AuthIdentity → Prop}
    (hs : s.Consistent) (h : s.Change P E t) : t.Consistent where
  valid := hs.valid.changed h
  referenced := hs.referenced.changed h
  paired := hs.paired.changed h
  edged := hs.edged.changed h
  seeded := hs.seeded.changed h

/-- The database after the migrations is consistent. -/
theorem seededStore_consistent : seededStore.Consistent where
  valid := Service.Sound.seeded.valid
  referenced := by
    constructor
    all_goals
      intro x hx
      exact absurd hx List.not_mem_nil
  paired := by
    constructor
    · intro e he
      obtain rfl := List.mem_singleton.mp he
      exact ⟨devActor, List.mem_singleton.mpr rfl, rfl, rfl⟩
    · intro e he hcase
      obtain rfl := List.mem_singleton.mp he
      exact absurd hcase (by decide)
  edged := by
    constructor
    all_goals
      intro r hr
      exact absurd hr List.not_mem_nil
  seeded := ⟨rfl, rfl, rfl, fun _ h => h⟩

namespace Server

variable {ρ : Type} [LinearOrder ρ] {D : Deployment ρ} {reqs : Nat → Incoming}
  {p : Pool Server (Option HttpReply)}

theorem Runs.consistent (hrun : Runs D reqs p) : ∀ π, p.world.Visited π → π.store.Consistent := by
  refine hrun.always (P := fun π => π.store.Consistent) seededStore_consistent ?_
  intro req past π π' h hs
  exact hs.changed h.change

/--
**The tables are consistent at every moment.**  In every interleaving of any requests, at every
moment between two statements: all foreign keys of the database hold, those of the sessions
included; every entity has its row under its own type, and every case its mirror; every edge is of
a known type, joins two different entities and is the only one of its type between them; and the
roles, the workflows, the overrides and the seeded types are those of the migrations.
-/
theorem consistent_always (hrun : Runs D reqs p) {π : Server} (hπ : p.world.Visited π) :
    π.store.Consistent ∧ SessionsOk π :=
  ⟨hrun.consistent π hπ, hrun.sessionsOk π hπ⟩

/-- In the evening of Ada's day there is an edge, and all is consistent. -/
theorem adas_tables_consistent : adasRun.world.now.store.memberships.rows.length = 1 ∧
    adasRun.world.now.store.Consistent ∧ SessionsOk adasRun.world.now :=
  ⟨adasRun_facts.2.2.2.1, consistent_always adasRun_runs (Or.inl rfl)⟩

end Server

end Numu
