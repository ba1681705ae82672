/-
What a request learns by naming an id in its body.

A body may name any id.  Most references are text in the data and nothing looks
them up, but two end in a column with a foreign key: the assignee and the project
of a case, through its mirror, and the member of a grant.  A reference to an
entity that is not there then fails where one to an entity out of reach goes
through, and the two statuses tell them apart.

The entity a body names is taken away and the rest of what the request looks at
stays: the caller has no rank on the entity, so nothing the caller reaches rests
on it.  The two runs are followed side by side (`AgreesOn`) up to the first write,
and there the one difference shows.
-/
import Numu.Proofs.Addressing
import Numu.Proofs.Sharing
import Numu.Proofs.Mirror

namespace Numu

open Fallible Handler

/-- An entity that is there, out of the caller's reach, and not the caller. -/
structure HiddenFrom (caller : Caller) (x : String) (s : Store) : Prop where
  valid : s.Valid
  admin : caller.isPlatformAdmin = false
  other : caller.actorId ≠ x
  rank : s.effectiveRank caller.actorId x = none
  present : s.entities.has x = true

/-! ### The gates, on both stores -/

namespace HiddenFrom

variable {caller : Caller} {x : String} {s : Store} {ctx : RequestCtx} {td : TypeDef}

theorem rank_eq (h : HiddenFrom caller x s) (o : String) :
    s.effectiveRank caller.actorId o = (cascadeDelete s x).effectiveRank caller.actorId o := by
  by_cases ho : o = x
  · rw [ho, h.rank, Store.effectiveRank_deleted]
  · exact (Store.effectiveRank_deleted_other h.valid h.other h.rank ho).symm

theorem agrees_requireAction (h : HiddenFrom caller x s) (objectId : Option String)
    (action : Action) :
    AgreesOn s (cascadeDelete s x) (requireAction caller td objectId action) := by
  unfold requireAction
  refine agreesOn_ite (agreesOn_pure _) ?_
  cases objectId with
  | none => exact agreesOn_pure _
  | some id => exact agreesOn_bind (agreesOn_query (h.rank_eq id)) fun _ => agreesOn_pure _

theorem agrees_requireRank (h : HiddenFrom caller x s) (o : String) (minRank : I32) :
    AgreesOn s (cascadeDelete s x) (requireRank caller o minRank ctx) := by
  unfold requireRank
  refine agreesOn_ite (agreesOn_pure _) (agreesOn_bind (agreesOn_query (h.rank_eq o)) ?_)
  intro rank
  cases rank with
  | none => exact agreesOn_throw _
  | some r => exact agreesOn_ite (agreesOn_throw _) (agreesOn_pure _)

theorem agrees_requireGrantable (role : String) (rank : I32) :
    AgreesOn s (cascadeDelete s x) (requireGrantable role rank ctx) :=
  agreesOn_bind (agreesOn_query Store.rankOf_deleted.symm) fun _ =>
    agreesOn_bind (agreesOn_getOr _ _) fun _ => agreesOn_ensure _ _

theorem agrees_requireWriteEach (rank : I32) (written : List String) :
    AgreesOn s (cascadeDelete s x) (requireWriteEach td rank ctx written) := by
  induction written with
  | nil => exact agreesOn_pure _
  | cons field rest ih =>
      rw [requireWriteEach]
      cases td.field field with
      | none => exact ih
      | some f =>
          exact agreesOn_bind (agreesOn_query rfl) fun _ =>
            agreesOn_bind (agreesOn_ensure _ _) fun _ => ih

theorem agrees_requireWrite (h : HiddenFrom caller x s) (o : String) (written : List String) :
    AgreesOn s (cascadeDelete s x) (requireWrite caller td o written ctx) := by
  unfold requireWrite rankOn
  refine agreesOn_bind (agreesOn_ite (agreesOn_pure _) ?_) fun _ =>
    agreesOn_ite (agreesOn_pure _) (agrees_requireWriteEach _ written)
  exact agreesOn_bind (agreesOn_query (h.rank_eq o)) fun _ => agreesOn_pure _

theorem agrees_unmetCloseChecks {o : String} (ho : o ≠ x) (names : List String) :
    AgreesOn s (cascadeDelete s x) (unmetCloseChecks o names) := by
  induction names with
  | nil => exact agreesOn_pure _
  | cons name rest ih =>
      exact agreesOn_bind (agreesOn_query (Store.checkPassed_deleted ho name).symm) fun _ =>
        agreesOn_bind ih fun _ => agreesOn_pure _

theorem agrees_validateCaseChange {st : AppState} {o : String} (ho : o ≠ x) (data : Json)
    (old : Option String) :
    AgreesOn s (cascadeDelete s x) (validateCaseChange st o data old ctx) := by
  unfold validateCaseChange
  refine agreesOn_bind (agreesOn_check _) fun _ => ?_
  cases WorkflowCache.get st.workflows ((data.str? "workflow_id").getD "default") with
  | none => exact agreesOn_pure _
  | some wf =>
      exact agreesOn_ite
        (agreesOn_bind (agrees_unmetCloseChecks ho _) fun _ => agreesOn_ensure _ _)
        (agreesOn_pure _)

end HiddenFrom

/-! ### An update, on both stores -/

section Update

variable {v : UpdateVerb} {st : AppState} {ctx : RequestCtx} {env : Ambient} {caller : Caller}
  {typeId id x : String} {headers : HeaderMap} {body : Body} {s : Store}

theorem HiddenFrom.agrees_updateChecks (h : HiddenFrom caller x s) (td : TypeDef) (hid : id ≠ x)
    (existing : Json) : AgreesOn s (cascadeDelete s x)
      (updateChecks v st ctx caller td id headers body existing) := by
  unfold updateChecks
  refine agreesOn_bind (agreesOn_check _) fun _ => agreesOn_bind (agreesOn_check _) fun payload => ?_
  refine agreesOn_bind (agreesOn_check _) fun _ => agreesOn_bind (agreesOn_check _) fun _ => ?_
  refine agreesOn_bind (h.agrees_requireWrite id _) fun _ => agreesOn_bind ?_ fun _ =>
    agreesOn_pure _
  unfold onlyIf
  exact agreesOn_ite (HiddenFrom.agrees_validateCaseChange hid _ _) (agreesOn_pure _)

/-- An update fails its checks alike on both stores, or passes them on both. -/
theorem HiddenFrom.itemUpdate_both (h : HiddenFrom caller x s) (hid : id ≠ x) :
    (∃ e, exec (itemUpdate v st ctx env caller typeId id headers body) s = (.error e, s) ∧
        exec (itemUpdate v st ctx env caller typeId id headers body) (cascadeDelete s x) =
          (.error e, cascadeDelete s x)) ∨
      ∃ td row payload expected,
        UpdateChecked v st ctx caller typeId id headers body s td row payload expected ∧
        UpdateChecked v st ctx caller typeId id headers body (cascadeDelete s x) td
          (row.orphaned x) payload expected := by
  unfold itemUpdate resolve
  rcases (agreesOn_getOr _ _).bind_cases _ with hfail | ⟨td, htd, -, hs₁, ht₁⟩
  · exact Or.inl hfail
  rw [hs₁, ht₁]
  rcases (h.agrees_requireAction (some id) .edit).bind_cases _ with
    hfail | ⟨ok, hok, hok', hs₂, ht₂⟩
  · exact Or.inl hfail
  rw [hs₂, ht₂]
  rcases (agreesOn_ensure _ _).bind_cases _ with hfail | ⟨_, hensure, -, hs₃, ht₃⟩
  · exact Or.inl hfail
  rw [hs₃, ht₃]
  obtain ⟨rfl, -⟩ := exec_ensure_ok.mp hensure
  rw [exec_bind, exec_bind, exec_query, exec_query, Store.row?_deleted hid typeId]
  cases hrow : s.row? id typeId with
  | none => exact Or.inl ⟨_, rfl, rfl⟩
  | some row =>
      simp only [Option.map_some, exec_getOr_some_bind, EntityData.orphaned_data]
      rcases (h.agrees_updateChecks td hid row.data).bind_cases _ with
        hfail | ⟨checked, hchecked, hchecked', -⟩
      · exact Or.inl hfail
      obtain ⟨expected, payload, hmatched, hparsed, heditable, hfinal, hpermitted, hlegal, heq⟩ :=
        updateChecks_ok hchecked
      obtain ⟨expected', payload', hmatched', hparsed', -, -, hpermitted', hlegal', -⟩ :=
        updateChecks_ok hchecked'
      obtain rfl : expected = expected' := Except.ok.inj (hmatched.symm.trans hmatched')
      obtain rfl : payload = payload' := Except.ok.inj (hparsed.symm.trans hparsed')
      have htyped := (exec_getOr_ok.mp htd).1
      refine Or.inr ⟨td, row, payload, expected, ⟨htyped, hok, hrow, hmatched, hparsed, heditable,
        hfinal, hpermitted, hlegal⟩, ⟨htyped, hok', ?_, hmatched, hparsed, heditable, ?_,
        hpermitted', ?_⟩⟩
      · rw [Store.row?_deleted hid typeId, hrow]
        rfl
      · rw [EntityData.orphaned_data]
        exact hfinal
      · rw [EntityData.orphaned_data]
        exact hlegal'

/-! #### The constraints the writes meet -/

/-- Without `x` a mirror is refused for the old reasons, or because it names `x`. -/
theorem caseRefused_deleted {c : CaseRow} (hid : c.entityId ≠ x) :
    CaseRefused (cascadeDelete s x) c ↔ CaseRefused s c ∨ c.Names x := by
  have hrefs : caseRefsOk (cascadeDelete s x) c = false ↔ caseRefsOk s c = false ∨ c.Names x := by
    rw [← Bool.not_eq_true, caseRefsOk_deleted hid, not_and_or, not_not, Bool.not_eq_true]
  have hguard : (∃ old e, (cascadeDelete s x).cases.find? c.entityId = some old ∧
        casesGuard (cascadeDelete s x) old c = .error e) ↔
      ∃ old e, s.cases.find? c.entityId = some old ∧ casesGuard s old c = .error e := by
    rw [Store.findCase_deleted hid]
    refine ⟨fun h => ?_, fun h => ?_⟩
    · obtain ⟨old, e, hold, herr⟩ := h
      obtain ⟨q, hq, rfl⟩ := Option.map_eq_some_iff.mp hold
      exact ⟨q, e, hq, by rw [← casesGuard_deleted hid q, herr]⟩
    · obtain ⟨old, e, hold, herr⟩ := h
      exact ⟨old.unlinked x, e, by rw [hold, Option.map_some],
        by rw [casesGuard_deleted hid old, herr]⟩
  unfold CaseRefused
  rw [hrefs, hguard, or_right_comm]

/-- The columns an update writes can be written: its scope parent is there, and its mirror is
not refused. -/
def ColumnsOk (s : Store) (td : TypeDef) (id : String) (data : Json) (version : I32) : Prop :=
  s.refOk (scopeParent td data) = true ∧
    (td.typeId = "case" → ¬ CaseRefused s (caseMirror id data version))

/-- One of the columns an update writes names `x`. -/
def ColumnNames (td : TypeDef) (id : String) (data : Json) (version : I32) (x : String) : Prop :=
  scopeParent td data = some x ∨ (td.typeId = "case" ∧ (caseMirror id data version).Names x)

theorem columnsOk_deleted (s : Store) (td : TypeDef) (data : Json) (version : I32)
    (hid : id ≠ x) :
    ColumnsOk (cascadeDelete s x) td id data version ↔
      ColumnsOk s td id data version ∧ ¬ ColumnNames td id data version x := by
  unfold ColumnsOk ColumnNames
  rw [Store.refOk_deleted, caseRefused_deleted hid]
  by_cases hcase : td.typeId = "case"
  · simp only [hcase, true_and, forall_const, not_or]
    exact ⟨fun h => ⟨⟨h.1.1, h.2.1⟩, h.1.2, h.2.2⟩, fun h => ⟨⟨h.1.1, h.2.1⟩, h.1.2, h.2.2⟩⟩
  · simp only [hcase, false_and, IsEmpty.forall_iff, and_true, or_false]

/-- The status of an answer. -/
def statusOf : Except AppError Response → Nat
  | .ok resp => resp.status
  | .error e => e.status

/-- A refused mirror is a 422, whether a key or the trigger refuses it. -/
theorem upsertCase_error_status {c : CaseRow} {e : SqlxError} (h : upsertCase c s = .error e) :
    (AppError.ofSqlx e).status = 422 := by
  have hguard : ∀ old f, casesGuard s old c = .error f → (AppError.ofSqlx f).status = 422 := by
    intro old f hf
    unfold casesGuard at hf
    split at hf
    · split at hf
      · rw [← Except.error.inj hf]
        rfl
      · split at hf
        · rw [← Except.error.inj hf]
          rfl
        · simp at hf
    · simp at hf
  unfold upsertCase at h
  split at h
  · rename_i f hf
    rw [← Except.error.inj h]
    split at hf
    · exact hguard _ _ hf
    · simp at hf
  · split at h
    · simp at h
    · rw [← Except.error.inj h]
      rfl

section Writes

variable {td : TypeDef} {row : EntityData} {data : Json} {expected : I32}

/-- A statement that fails is the end of the update. -/
theorem updateWrites_failed {e : SqlxError}
    (h : updateEntityData data (scopeParent td data) id typeId expected env.now s = .error e) :
    statusOf (exec (updateWrites v ctx env caller td typeId id data expected) s).1 =
      (AppError.ofSqlx e).status := by
  have hfail := exec_execute_error.mpr ⟨⟨e, h, rfl⟩, rfl⟩
  unfold updateWrites
  rw [exec_bind, hfail]
  rfl

theorem updateWrites_stale (hrow : s.row? id typeId = some row) (hver : row.version ≠ expected) :
    statusOf (exec (updateWrites v ctx env caller td typeId id data expected) s).1 = 412 := by
  have hnone : exec (execute (updateEntityData data (scopeParent td data) id typeId expected
      env.now)) s = (.ok 0, s) :=
    exec_execute_ok.mpr (by simp only [updateEntityData, hrow, if_neg hver])
  unfold updateWrites
  rw [exec_bind, hnone]
  rfl

theorem updateWrites_full (hrow : s.row? id typeId = some row) (hver : row.version = expected)
    (hsucc : expected.succ? = none) :
    statusOf (exec (updateWrites v ctx env caller td typeId id data expected) s).1 = 500 := by
  refine updateWrites_failed (e := .numericOutOfRange) ?_
  simp only [updateEntityData, hrow, hver, if_true, hsucc]

/-- At the stored version, with room for the next, the columns decide. -/
theorem updateWrites_columns (hrow : s.row? id typeId = some row) (hver : row.version = expected)
    (hsucc : expected.succ? = some expected.succ) :
    (ColumnsOk s td id data expected.succ ∧
        statusOf (exec (updateWrites v ctx env caller td typeId id data expected) s).1 = 200) ∨
      (¬ ColumnsOk s td id data expected.succ ∧
        statusOf (exec (updateWrites v ctx env caller td typeId id data expected) s).1 = 422) := by
  by_cases href : s.refOk (scopeParent td data) = true
  · by_cases hrefused : td.typeId = "case" ∧ CaseRefused s (caseMirror id data expected.succ)
    · obtain ⟨hcase, hrefused⟩ := hrefused
      obtain ⟨x, hx, hexec⟩ :=
        updateWrites_refused v ctx env caller hrow hver hsucc href hcase hrefused
      refine Or.inr ⟨fun hok => hok.2 hcase hrefused, ?_⟩
      rw [hexec]
      exact upsertCase_error_status hx
    · have hmirror : td.typeId = "case" → ¬ CaseRefused s (caseMirror id data expected.succ) :=
        fun hcase hc => hrefused ⟨hcase, hc⟩
      obtain ⟨s', hexec⟩ := updateWrites_accepted v ctx env caller hrow hver hsucc href hmirror
      exact Or.inl ⟨⟨href, hmirror⟩, by rw [hexec]; rfl⟩
  · refine Or.inr ⟨fun hok => href hok.1, updateWrites_failed (e := .foreignKeyViolation) ?_⟩
    simp only [updateEntityData, hrow, hver, if_true, hsucc, if_neg href]

end Writes

/-- The update passes its checks, its columns can be written, and one of them names `x`. -/
def UpdateTells (v : UpdateVerb) (st : AppState) (ctx : RequestCtx) (caller : Caller)
    (typeId id : String) (headers : HeaderMap) (body : Body) (s : Store) (x : String) : Prop :=
  ∃ td row payload expected,
    UpdateChecked v st ctx caller typeId id headers body s td row payload expected ∧
    row.version = expected ∧ expected.succ? ≠ none ∧
    ColumnsOk s td id (v.build td row.data payload) expected.succ ∧
    ColumnNames td id (v.build td row.data payload) expected.succ x

theorem HiddenFrom.update_status_iff (h : HiddenFrom caller x s) :
    statusOf (exec (itemUpdate v st ctx env caller typeId id headers body) s).1 =
        statusOf (exec (itemUpdate v st ctx env caller typeId id headers body)
          (cascadeDelete s x)).1 ↔
      ¬ UpdateTells v st ctx caller typeId id headers body s x := by
  have hin := unreached_of_no_rank h.valid h.admin h.rank
  by_cases hid : id = x
  · -- The object itself is the entity: the gate answers.
    subst hid
    have hrefuses : RefusesOn (Unreached caller id)
        (itemUpdate v st ctx env caller typeId id headers body) :=
      itemUpdate_refuses v env typeId headers body
    obtain ⟨e, he, he'⟩ := refusesOn_both hrefuses hin (unreached_deleted id s h.admin)
    refine iff_of_true (by rw [he, he']) ?_
    rintro ⟨td, row, payload, expected, hchecked, -⟩
    have hreached := hchecked.reached
    rw [hin.exec_requireAction] at hreached
    simp at hreached
  rcases h.itemUpdate_both hid with ⟨e, he, he'⟩ | ⟨td, row, payload, expected, hs, ht⟩
  · refine iff_of_true (by rw [he, he']) ?_
    rintro ⟨td, row, payload, expected, hchecked, hver, hroom, hcols, -⟩
    have hsucc : expected.succ? = some expected.succ := by
      obtain ⟨ver, hver⟩ := Option.ne_none_iff_exists'.mp hroom
      rw [hver, I32.succ_eq_of_succ? hver]
    obtain ⟨s', hexec⟩ := updateWrites_accepted v ctx env caller hchecked.found hver hsucc
      hcols.1 hcols.2
    have hfail := he.symm.trans (hchecked.exec_eq.trans hexec)
    simp at hfail
  · rw [hs.exec_eq, ht.exec_eq, EntityData.orphaned_data]
    have hrow' := Store.row?_deleted (s := s) hid typeId
    rw [hs.found, Option.map_some] at hrow'
    have hcols := columnsOk_deleted s td (v.build td row.data payload) expected.succ hid
    have htells : UpdateTells v st ctx caller typeId id headers body s x ↔
        row.version = expected ∧ expected.succ? ≠ none ∧
          ColumnsOk s td id (v.build td row.data payload) expected.succ ∧
          ColumnNames td id (v.build td row.data payload) expected.succ x := by
      refine ⟨fun htells => ?_, fun hall => ⟨td, row, payload, expected, hs, hall⟩⟩
      obtain ⟨td', row', payload', expected', hchecked, hall⟩ := htells
      obtain rfl : td = td' := Option.some.inj (hs.typed.symm.trans hchecked.typed)
      obtain rfl : row = row' := Option.some.inj (hs.found.symm.trans hchecked.found)
      obtain rfl : payload = payload' := Except.ok.inj (hs.parsed.symm.trans hchecked.parsed)
      obtain rfl : expected = expected' := Except.ok.inj (hs.matched.symm.trans hchecked.matched)
      exact hall
    rw [htells]
    have hver' : (row.orphaned x).version = row.version := EntityData.orphaned_version row x
    by_cases hver : row.version = expected
    rotate_left
    · rw [updateWrites_stale hs.found hver, updateWrites_stale hrow' (by rwa [hver'])]
      exact iff_of_true rfl fun htells => hver htells.1
    cases hsucc : expected.succ? with
    | none =>
        rw [updateWrites_full hs.found hver hsucc, updateWrites_full hrow' (hver'.trans hver) hsucc]
        exact iff_of_true rfl fun htells => htells.2.1 rfl
    | some ver =>
        rw [← I32.succ_eq_of_succ? hsucc] at hsucc
        rcases updateWrites_columns hs.found hver hsucc with ⟨hok, h₁⟩ | ⟨hbad, h₁⟩
        · rcases updateWrites_columns hrow' (hver'.trans hver) hsucc with ⟨hok', h₂⟩ | ⟨hbad', h₂⟩
          · rw [h₁, h₂]
            exact iff_of_true rfl fun htells => (hcols.mp hok').2 htells.2.2.2
          · -- Only a column that names the entity tells the two stores apart.
            rw [h₁, h₂]
            refine iff_of_false (by decide) fun hquiet => hquiet ⟨hver, by simp, hok, ?_⟩
            by_contra hname
            exact hbad' (hcols.mpr ⟨hok, hname⟩)
        · rcases updateWrites_columns hrow' (hver'.trans hver) hsucc with ⟨hok', h₂⟩ | ⟨hbad', h₂⟩
          · exact absurd (hcols.mp hok').1 hbad
          · rw [h₁, h₂]
            exact iff_of_true rfl fun htells => hbad htells.2.2.1

end Update

/-! ### A create, on both stores -/

/-- A reference is null, names the new entity, or one that is there. -/
def Known (s : Store) (id : String) (r : Option String) : Prop :=
  ∀ y, r = some y → y = id ∨ s.entities.has y = true

/-- The constraints the transaction of a create meets, its id being new. -/
structure CreateOk (s : Store) (td : TypeDef) (typeId id actorId : String) (data : Json)
    (sp : Option String) : Prop where
  typed : s.typeDefinitions.has typeId = true
  parent : Known s id sp
  creator : Known s id (some actorId)
  owner : s.roles.has "owner" = true
  mirrored : td.typeId = "case" → s.workflows.has (caseMirror id data 1).workflowId = true ∧
    Known s id (caseMirror id data 1).assigneeId ∧ Known s id (caseMirror id data 1).projectId

section Create

variable {s : Store} {td : TypeDef} {typeId id actorId x : String} {data : Json}
  {sp : Option String} {now : Timestamp}

theorem known_deleted {r : Option String} (hid : id ≠ x) :
    Known (cascadeDelete s x) id r ↔ Known s id r ∧ r ≠ some x := by
  unfold Known
  refine ⟨fun h => ⟨fun y hy => ?_, ?_⟩, fun h y hy => ?_⟩
  · rcases h y hy with heq | hhas
    · exact Or.inl heq
    · exact Or.inr (Store.has_deleted.mp hhas).1
  · intro hr
    rcases h x hr with heq | hhas
    · exact hid heq.symm
    · exact (Store.has_deleted.mp hhas).2 rfl
  · rcases h.1 y hy with heq | hhas
    · exact Or.inl heq
    · exact Or.inr (Store.has_deleted.mpr ⟨hhas, fun hc => h.2 (hy.trans (congrArg some hc))⟩)

theorem createOk_deleted (s : Store) (td : TypeDef) (typeId : String) (data : Json)
    (hid : id ≠ x) (hactor : actorId ≠ x) (hsp : sp ≠ some x) :
    CreateOk (cascadeDelete s x) td typeId id actorId data sp ↔
      CreateOk s td typeId id actorId data sp ∧
        ¬ (td.typeId = "case" ∧ (caseMirror id data 1).Names x) := by
  have hself : (some actorId : Option String) ≠ some x := fun hc => hactor (Option.some.inj hc)
  refine ⟨fun h => ⟨⟨h.typed, ((known_deleted hid).mp h.parent).1,
    ((known_deleted hid).mp h.creator).1, h.owner, fun hcase => ?_⟩, fun hnames => ?_⟩, fun h => ?_⟩
  · obtain ⟨hworkflow, hassignee, hproject⟩ := h.mirrored hcase
    exact ⟨hworkflow, ((known_deleted hid).mp hassignee).1, ((known_deleted hid).mp hproject).1⟩
  · obtain ⟨hcase, hnames⟩ := hnames
    obtain ⟨-, hassignee, hproject⟩ := h.mirrored hcase
    rcases hnames with ha | hp
    · exact ((known_deleted hid).mp hassignee).2 ha
    · exact ((known_deleted hid).mp hproject).2 hp
  · obtain ⟨hok, hquiet⟩ := h
    refine ⟨hok.typed, (known_deleted hid).mpr ⟨hok.parent, hsp⟩,
      (known_deleted hid).mpr ⟨hok.creator, hself⟩, hok.owner, fun hcase => ?_⟩
    obtain ⟨hworkflow, hassignee, hproject⟩ := hok.mirrored hcase
    exact ⟨hworkflow, (known_deleted hid).mpr ⟨hassignee, fun hc => hquiet ⟨hcase, Or.inl hc⟩⟩,
      (known_deleted hid).mpr ⟨hproject, fun hc => hquiet ⟨hcase, Or.inr hc⟩⟩⟩

/-- A new entity makes its own id known. -/
theorem refOk_inserted {t : Store} {e : Entity} {ents : Table Entity.id}
    (hents : s.entities.insert e = some ents) (ht : t.entities = ents) {r : Option String} :
    t.refOk r = true ↔ Known s e.id r := by
  unfold Store.refOk Known
  cases r with
  | none => simp
  | some y =>
      rw [ht, Table.has_insert hents]
      refine ⟨fun h z hz => ?_, fun h => ?_⟩
      · obtain rfl := Option.some.inj hz
        exact h.symm.imp Eq.symm id
      · exact (h y rfl).symm.imp id Eq.symm

/-- The mirror of a new case: no row is there to guard, so only its keys can be broken. -/
theorem upsertCaseMirror_new {t : Store} (hnew : t.cases.find? id = none) {version : I32} :
    upsertCaseMirror id data version t =
      if caseRefsOk t (caseMirror id data version) = true then
        .ok ((), { t with cases := t.cases.upsert (caseMirror id data version) })
      else .error .foreignKeyViolation := by
  have hfind : t.cases.find? (caseMirror id data version).entityId = none := hnew
  simp only [upsertCaseMirror, upsertCase, hfind]

/-- What a store with the new entity in it says of the last statement of a create. -/
theorem mirrorStmt_outcome (td : TypeDef) (data : Json) {t : Store} {e : Entity}
    {ents : Table Entity.id}
    (hents : s.entities.insert e = some ents) (he : e.id = id) (ht : t.entities = ents)
    (hworkflows : t.workflows = s.workflows) (hnew : t.cases.find? id = none) :
    ((td.typeId = "case" → s.workflows.has (caseMirror id data 1).workflowId = true ∧
          Known s id (caseMirror id data 1).assigneeId ∧
          Known s id (caseMirror id data 1).projectId) ∧
        ∃ u, (if td.typeId = "case" then upsertCaseMirror id data 1 else pure () : Stmt Unit) t =
          .ok ((), u)) ∨
      (¬ (td.typeId = "case" → s.workflows.has (caseMirror id data 1).workflowId = true ∧
          Known s id (caseMirror id data 1).assigneeId ∧
          Known s id (caseMirror id data 1).projectId) ∧
        (if td.typeId = "case" then upsertCaseMirror id data 1 else pure () : Stmt Unit) t =
          .error .foreignKeyViolation) := by
  by_cases hcase : td.typeId = "case"
  · have hself : t.entities.has id = true := by
      rw [ht, Table.has_insert hents]
      exact Or.inr he
    have hrefs : caseRefsOk t (caseMirror id data 1) = true ↔
        s.workflows.has (caseMirror id data 1).workflowId = true ∧
          Known s id (caseMirror id data 1).assigneeId ∧
          Known s id (caseMirror id data 1).projectId := by
      have hown : t.entities.has (caseMirror id data 1).entityId = true := hself
      unfold caseRefsOk
      simp only [Bool.and_eq_true, hown, true_and, hworkflows, refOk_inserted hents ht, he, and_assoc]
    simp only [hcase, if_true, forall_const, upsertCaseMirror_new hnew]
    by_cases hok : caseRefsOk t (caseMirror id data 1) = true
    · exact Or.inl ⟨hrefs.mp hok, _, if_pos hok⟩
    · exact Or.inr ⟨fun h => hok (hrefs.mpr h), if_neg hok⟩
  · rw [if_neg hcase]
    exact Or.inl ⟨fun h => absurd h hcase, t, rfl⟩

/-- **A create under a new id is stored, or breaks a foreign key.** -/
theorem createTx_outcome (td : TypeDef) (typeId actorId : String) (data : Json)
    (sp : Option String) (now : Timestamp) (hs : s.Valid) (hfree : s.entities.has id = false) :
    (CreateOk s td typeId id actorId data sp ∧
        ∃ t, createTx td typeId id actorId data sp now s = .ok ((), t)) ∨
      (¬ CreateOk s td typeId id actorId data sp ∧
        createTx td typeId id actorId data sp now s = .error .foreignKeyViolation) := by
  have hdata : s.entityData.has id = false := by
    rw [Table.has_eq_false, Table.find?_eq_none]
    rintro d hd rfl
    rw [hs.dataEntity d hd] at hfree
    simp at hfree
  have hcases : s.cases.find? id = none := by
    rw [Table.find?_eq_none]
    rintro c hc rfl
    have hrefs := hs.caseRefs c hc
    simp only [caseRefsOk, hfree, Bool.false_and] at hrefs
    simp at hrefs
  obtain ⟨ents, hents⟩ : ∃ ents, s.entities.insert
      { id := id, type := typeId, createdBy := some actorId } = some ents := by
    rw [← Option.ne_none_iff_exists', Ne, Table.insert_eq_none]
    simp [hfree]
  obtain ⟨rows, hrows⟩ : ∃ rows, s.entityData.insert
      { entityId := id, typeId := typeId, data := data, scopeParentId := sp, updatedAt := now } =
        some rows := by
    rw [← Option.ne_none_iff_exists', Ne, Table.insert_eq_none]
    simp [hdata]
  have hself : ents.has id = true := (Table.has_insert hents).mpr (Or.inr rfl)
  have hknown : ∀ {r}, ({ s with entities := ents } : Store).refOk r = true ↔ Known s id r :=
    refOk_inserted hents rfl
  have hcreator : ents.has actorId = true ↔ Known s id (some actorId) := hknown (r := some actorId)
  unfold createTx
  -- The entity: its type must be registered.
  by_cases htype : s.typeDefinitions.has typeId = true
  rotate_left
  · refine Or.inr ⟨fun h => htype h.typed, ?_⟩
    rw [Stmt.bind_eq, insertEntity, hents]
    simp only [if_neg htype]
  have hentity : insertEntity { id := id, type := typeId, createdBy := some actorId } s =
      .ok ((), { s with entities := ents }) := by
    rw [insertEntity, hents]
    simp only [if_pos htype]
  rw [Stmt.bind_eq, hentity]
  dsimp only
  -- Its data: the scope parent must be there.
  by_cases hparent : Known s id sp
  rotate_left
  · refine Or.inr ⟨fun h => hparent h.parent, ?_⟩
    rw [Stmt.bind_eq, insertEntityData]
    simp only [hrows, hself, htype, Bool.true_and, if_neg (fun hc => hparent (hknown.mp hc))]
  have hstored : insertEntityData
      { entityId := id, typeId := typeId, data := data, scopeParentId := sp, updatedAt := now }
        { s with entities := ents } = .ok ((), { s with entities := ents, entityData := rows }) := by
    rw [insertEntityData]
    simp only [hrows, hself, htype, Bool.true_and, if_pos (hknown.mpr hparent)]
  rw [Stmt.bind_eq, hstored]
  dsimp only
  -- The owner edge: the creator and the role must be there.
  by_cases howner : ents.has actorId = true ∧ s.roles.has "owner" = true
  rotate_left
  · refine Or.inr ⟨fun h => howner ⟨hcreator.mpr h.creator, h.owner⟩, ?_⟩
    rw [Stmt.bind_eq, grantOwner, upsertMembership]
    simp only [memberEdgeOk, hself, Bool.true_and, Bool.and_eq_true, if_neg howner]
  rw [Stmt.bind_eq, grantOwner, upsertMembership]
  simp only [memberEdgeOk, hself, Bool.true_and, Bool.and_eq_true, if_pos howner]
  rcases mirrorStmt_outcome td data hents rfl
      (t := { s with entities := ents, entityData := rows, memberships := s.memberships.upsert _ })
      rfl rfl hcases with ⟨hok, hrun⟩ | ⟨hbad, hrun⟩
  · exact Or.inl ⟨⟨htype, hparent, hcreator.mp howner.1, howner.2, hok⟩, hrun⟩
  · exact Or.inr ⟨fun h => hbad h.mirrored, hrun⟩

end Create

section Creating

variable {st : AppState} {ctx : RequestCtx} {env : Ambient} {caller : Caller}
  {typeId x : String} {headers : HeaderMap} {body : Body} {s : Store}

/-- Under a new id the constraints decide. -/
theorem CreateChecked.outcome {td : TypeDef} {payload : Json}
    (h : CreateChecked st ctx caller typeId headers body s td payload) (hs : s.Valid)
    (hfree : s.entities.has (mint td env.uuid) = false) :
    (CreateOk s td typeId (mint td env.uuid) caller.actorId (buildCreateData td payload)
          (scopeParent td (buildCreateData td payload)) ∧
        ∃ resp s', exec (collCreate st ctx env caller typeId headers body) s = (.ok resp, s') ∧
          resp.status = 201) ∨
      (¬ CreateOk s td typeId (mint td env.uuid) caller.actorId (buildCreateData td payload)
          (scopeParent td (buildCreateData td payload)) ∧
        exec (collCreate st ctx env caller typeId headers body) s =
          (.error (AppError.ofSqlx .foreignKeyViolation), s)) := by
  rw [h.exec_eq]
  rcases createTx_outcome td typeId caller.actorId (buildCreateData td payload)
      (scopeParent td (buildCreateData td payload)) env.now hs hfree with
    ⟨hok, t, htx⟩ | ⟨hbad, htx⟩
  · obtain ⟨evs, hexec⟩ := exec_writeTail_ok htx ctx caller.actorId _ _ _ _
    exact Or.inl ⟨hok, _, _, hexec, rfl⟩
  · exact Or.inr ⟨hbad, exec_writeTail_error htx ctx caller.actorId _ _ _ _⟩

/-- A create fails its checks alike on both stores, or passes them on both. -/
theorem HiddenFrom.collCreate_both (h : HiddenFrom caller x s) :
    (∃ e, exec (collCreate st ctx env caller typeId headers body) s = (.error e, s) ∧
        exec (collCreate st ctx env caller typeId headers body) (cascadeDelete s x) =
          (.error e, cascadeDelete s x)) ∨
      ∃ td payload, CreateChecked st ctx caller typeId headers body s td payload ∧
        CreateChecked st ctx caller typeId headers body (cascadeDelete s x) td payload := by
  unfold collCreate resolve
  rcases (agreesOn_getOr _ _).bind_cases _ with hfail | ⟨td, htd, -, hs₁, ht₁⟩
  · exact Or.inl hfail
  rw [hs₁, ht₁]
  rcases (agreesOn_check _).bind_cases _ with hfail | ⟨payload, hparsed, -, hs₂, ht₂⟩
  · exact Or.inl hfail
  rw [hs₂, ht₂]
  rcases (agreesOn_check _).bind_cases _ with hfail | ⟨_, hsettable, -, hs₃, ht₃⟩
  · exact Or.inl hfail
  rw [hs₃, ht₃]
  rcases (agreesOn_check _).bind_cases _ with hfail | ⟨_, hformed, -, hs₄, ht₄⟩
  · exact Or.inl hfail
  rw [hs₄, ht₄]
  rcases (agreesOn_check _).bind_cases _ with hfail | ⟨_, hinitial, -, hs₅, ht₅⟩
  · exact Or.inl hfail
  rw [hs₅, ht₅]
  rcases (agreesOn_check _).bind_cases _ with hfail | ⟨_, hscoped, -, hs₆, ht₆⟩
  · exact Or.inl hfail
  rw [hs₆, ht₆]
  rcases (h.agrees_requireAction _ _).bind_cases _ with hfail | ⟨ok, hok, hok', hs₇, ht₇⟩
  · exact Or.inl hfail
  rw [hs₇, ht₇]
  rcases (agreesOn_ensure _ _).bind_cases _ with hfail | ⟨_, hensure, -⟩
  · exact Or.inl hfail
  obtain ⟨rfl, -⟩ := exec_ensure_ok.mp hensure
  simp only [exec_check, Prod.mk.injEq, and_true] at hparsed hsettable hformed hinitial hscoped
  have htyped := (exec_getOr_ok.mp htd).1
  exact Or.inr ⟨td, payload, ⟨htyped, hparsed, hsettable, hformed, hinitial, hscoped, hok⟩,
    ⟨htyped, hparsed, hsettable, hformed, hinitial, hscoped, hok'⟩⟩

/-- The create passes its checks and its constraints, and is of a case whose mirror names `x`. -/
def CreateTells (st : AppState) (ctx : RequestCtx) (env : Ambient) (caller : Caller)
    (typeId : String) (headers : HeaderMap) (body : Body) (s : Store) (x : String) : Prop :=
  ∃ td payload, CreateChecked st ctx caller typeId headers body s td payload ∧
    CreateOk s td typeId (mint td env.uuid) caller.actorId (buildCreateData td payload)
      (scopeParent td (buildCreateData td payload)) ∧
    td.typeId = "case" ∧
    (caseMirror (mint td env.uuid) (buildCreateData td payload) 1).Names x

theorem HiddenFrom.create_status_iff (h : HiddenFrom caller x s)
    (hfresh : ∀ td, TypeDefCache.get st.registry typeId = some td →
      s.entities.has (mint td env.uuid) = false) :
    statusOf (exec (collCreate st ctx env caller typeId headers body) s).1 =
        statusOf (exec (collCreate st ctx env caller typeId headers body)
          (cascadeDelete s x)).1 ↔
      ¬ CreateTells st ctx env caller typeId headers body s x := by
  rcases h.collCreate_both with ⟨e, he, he'⟩ | ⟨td, payload, hs, ht⟩
  · refine iff_of_true (by rw [he, he']) ?_
    rintro ⟨td, payload, hchecked, hok, -⟩
    rcases hchecked.outcome h.valid (hfresh td hchecked.typed) with
      ⟨-, resp, s', hexec, -⟩ | ⟨hbad, -⟩
    · simpa using he.symm.trans hexec
    · exact hbad hok
  · have hfree := hfresh td hs.typed
    have hid : mint td env.uuid ≠ x := by
      intro hc
      rw [hc, h.present] at hfree
      simp at hfree
    have hsp : scopeParent td (buildCreateData td payload) ≠ some x := by
      intro hc
      have hreached := hs.reached
      rw [hc, (unreached_of_no_rank h.valid h.admin h.rank).exec_requireAction] at hreached
      simp at hreached
    have hoks := createOk_deleted s td typeId (buildCreateData td payload) hid h.other hsp
    have htells : CreateTells st ctx env caller typeId headers body s x ↔
        CreateOk s td typeId (mint td env.uuid) caller.actorId (buildCreateData td payload)
            (scopeParent td (buildCreateData td payload)) ∧
          td.typeId = "case" ∧
          (caseMirror (mint td env.uuid) (buildCreateData td payload) 1).Names x := by
      refine ⟨fun htells => ?_, fun hall => ⟨td, payload, hs, hall⟩⟩
      obtain ⟨td', payload', hchecked, hall⟩ := htells
      obtain rfl : td = td' := Option.some.inj (hs.typed.symm.trans hchecked.typed)
      obtain rfl : payload = payload' := Except.ok.inj (hs.parsed.symm.trans hchecked.parsed)
      exact hall
    rw [htells]
    have hfree' : (cascadeDelete s x).entities.has (mint td env.uuid) = false := by
      rw [← Bool.not_eq_true, Store.has_deleted, hfree]
      simp
    rcases hs.outcome h.valid hfree with ⟨hok, resp, s', h₁, hstatus⟩ | ⟨hbad, h₁⟩
    · rcases ht.outcome (h.valid.deleted x) hfree' with ⟨hok', resp', t', h₂, hstatus'⟩ | ⟨hbad', h₂⟩
      · rw [h₁, h₂]
        refine iff_of_true (hstatus.trans hstatus'.symm) fun htells => ?_
        exact (hoks.mp hok').2 htells.2
      · -- Only a mirror that names the entity tells the two stores apart.
        rw [h₁, h₂]
        refine iff_of_false (fun hc => ?_) fun hquiet => hquiet ⟨hok, ?_⟩
        · have hne : (201 : Nat) ≠ 422 := by decide
          exact hne (hstatus.symm.trans hc)
        · by_contra hname
          exact hbad' (hoks.mpr ⟨hok, hname⟩)
    · rcases ht.outcome (h.valid.deleted x) hfree' with ⟨hok', -⟩ | ⟨hbad', h₂⟩
      · exact absurd (hoks.mp hok').1 hbad
      · rw [h₁, h₂]
        exact iff_of_true rfl fun htells => hbad htells.1

end Creating

/-! ### A grant, on both stores -/

/-- Everything a grant is checked for before it looks for a cycle. -/
structure GrantAsked (ctx : RequestCtx) (caller : Caller) (typeId id : String)
    (headers : HeaderMap) (body : Body) (s : Store) (v : Json) (m role : String) (rank : I32) :
    Prop where
  found : exec (ensureObject id typeId ctx) s = (.ok (), s)
  managed : exec (requireRank caller id manageRank ctx) s = (.ok rank, s)
  parsed : readJson headers body false = .ok v
  named : v.str? "member_id" = some m
  asked : v.str? "role" = some role
  grantable : exec (requireGrantable role rank ctx) s = (.ok (), s)

section Granting

variable {ctx : RequestCtx} {caller : Caller} {typeId id x : String} {headers : HeaderMap}
  {body : Body} {s : Store} {v : Json} {m role : String} {rank : I32}

/-- Whoever an actor speaks for, itself apart, is there. -/
theorem Store.principal_present (hs : s.Valid) {p : String} (hp : s.Principal id p) (hne : p ≠ id) :
    s.entities.has p = true := by
  rcases Relation.ReflTransGen.cases_tail hp with heq | ⟨q, -, e, he, -, hobject, -⟩
  · exact absurd heq hne
  · have hedge := hs.edgeRefs e he
    simp only [memberEdgeOk, Bool.and_eq_true] at hedge
    exact hobject ▸ hedge.1.1

/-- The program of a grant after these checks. -/
theorem GrantAsked.exec_eq (h : GrantAsked ctx caller typeId id headers body s v m role rank) :
    exec (addMember ctx caller typeId id headers body) s =
      if s.principalsContain id m = true then
        (.error ((AppError.conflict
          "granting this member here would create a membership cycle").withRequestId
            ctx.requestId), s)
      else exec (do
        execute (upsertMembership id m role (some ((v.str? "context_role").getD "")))
        recordEvent ctx caller.actorId (some id) (typeId ++ ".member_granted")
          (.mkObj [("member_id", .str m), ("role", .str role)])
        pure { status := 201, body := some (.mkObj [("member_id", .str m), ("role", .str role),
          ("context_role", .str ((v.str? "context_role").getD ""))]) }) s := by
  by_cases hcycle : s.principalsContain id m = true
  · rw [if_pos hcycle]
    simp only [addMember, exec_bind, h.found, h.managed, exec_check, h.parsed,
      strField_of_some h.named, strField_of_some h.asked, h.grantable, exec_query, hcycle]
    rfl
  · rw [if_neg hcycle]
    exact GrantChecked.exec_eq ⟨h.found, h.managed, h.parsed, h.named, h.asked, h.grantable,
      by simpa using hcycle⟩

/-- A member that is there is granted the role, or is in the way of a cycle. -/
theorem GrantAsked.present (h : GrantAsked ctx caller typeId id headers body s v m role rank)
    (hs : s.Valid) (hm : s.entities.has m = true) :
    statusOf (exec (addMember ctx caller typeId id headers body) s).1 = 409 ∨
      statusOf (exec (addMember ctx caller typeId id headers body) s).1 = 201 := by
  rw [h.exec_eq]
  by_cases hcycle : s.principalsContain id m = true
  · rw [if_pos hcycle]
    exact Or.inl rfl
  · rw [if_neg hcycle]
    have hobject : s.entities.has id = true := by
      have hfound := h.found
      unfold ensureObject at hfound
      obtain ⟨found, t, hquery, hensure⟩ := exec_bind_ok.mp hfound
      simp only [exec_query, Prod.mk.injEq, Except.ok.injEq] at hquery
      obtain ⟨rfl, rfl⟩ := hquery
      obtain ⟨row, hrow⟩ := Option.isSome_iff_exists.mp (exec_ensure_ok.mp hensure).1
      have hmem := Table.mem_of_find? (Store.row?_eq_some.mp hrow).1
      exact Store.row?_entityId hrow ▸ hs.dataEntity row hmem
    have hrole : s.roles.has role = true := by
      obtain ⟨r, hr, -⟩ := requireGrantable_ok h.grantable
      unfold Store.rankOf at hr
      obtain ⟨q, hq, -⟩ := Option.map_eq_some_iff.mp hr
      exact Table.has_iff.mpr ⟨q, Table.mem_of_find? hq, Table.find?_key hq⟩
    have hwrite : ∃ t, upsertMembership id m role (some ((v.str? "context_role").getD "")) s =
        .ok ((), t) := by
      unfold upsertMembership
      simp only [memberEdgeOk, hobject, hm, hrole, Bool.and_self, if_true]
      exact ⟨_, rfl⟩
    obtain ⟨t, hwrite⟩ := hwrite
    obtain ⟨evs, hexec⟩ := exec_writeTail_ok hwrite ctx caller.actorId (some id) _ _ _
    rw [hexec]
    exact Or.inr rfl

/-- A member that is not there breaks the foreign key. -/
theorem GrantAsked.absent (h : GrantAsked ctx caller typeId id headers body s v m role rank)
    (hs : s.Valid) (hm : s.entities.has m = false) (hne : m ≠ id) :
    statusOf (exec (addMember ctx caller typeId id headers body) s).1 = 422 := by
  have hcycle : ¬ s.principalsContain id m = true := by
    intro hc
    have hp : s.Principal id m := Store.mem_principals.mp (by simpa [Store.principalsContain] using hc)
    rw [Store.principal_present hs hp hne] at hm
    simp at hm
  have hwrite : upsertMembership id m role (some ((v.str? "context_role").getD "")) s =
      .error .foreignKeyViolation := by
    rw [upsertMembership]
    simp only [memberEdgeOk, hm, Bool.and_false, Bool.false_and]
    rfl
  rw [h.exec_eq, if_neg hcycle, exec_writeTail_error hwrite]
  rfl

theorem HiddenFrom.agrees_ensureObject (hid : id ≠ x) :
    AgreesOn s (cascadeDelete s x) (ensureObject id typeId ctx) := by
  have hquery := Store.row?_deleted (s := s) hid typeId
  unfold ensureObject
  cases hrow : s.row? id typeId with
  | none =>
      rw [hrow] at hquery
      exact ⟨.error (deny404 ctx), by rw [exec_bind, exec_query, hrow]; rfl,
        by rw [exec_bind, exec_query, hquery]; rfl⟩
  | some row =>
      rw [hrow] at hquery
      exact ⟨.ok (), by rw [exec_bind, exec_query, hrow]; rfl,
        by rw [exec_bind, exec_query, hquery]; rfl⟩

/-- The checks of a grant come out alike on both stores. -/
theorem GrantAsked.deleted (h : GrantAsked ctx caller typeId id headers body s v m role rank)
    (hx : HiddenFrom caller x s) (hid : id ≠ x) :
    GrantAsked ctx caller typeId id headers body (cascadeDelete s x) v m role rank where
  found := (HiddenFrom.agrees_ensureObject hid).transfer h.found
  managed := (hx.agrees_requireRank id manageRank).transfer h.managed
  parsed := h.parsed
  named := h.named
  asked := h.asked
  grantable := (HiddenFrom.agrees_requireGrantable role rank).transfer h.grantable

/-- A grant fails its checks alike on both stores, or passes them. -/
theorem HiddenFrom.addMember_both (h : HiddenFrom caller x s) (hid : id ≠ x) :
    (∃ e, exec (addMember ctx caller typeId id headers body) s = (.error e, s) ∧
        exec (addMember ctx caller typeId id headers body) (cascadeDelete s x) =
          (.error e, cascadeDelete s x)) ∨
      ∃ v m role rank, GrantAsked ctx caller typeId id headers body s v m role rank := by
  unfold addMember
  rcases (HiddenFrom.agrees_ensureObject hid).bind_cases _ with hfail | ⟨_, hfound, -, hs₁, ht₁⟩
  · exact Or.inl hfail
  rw [hs₁, ht₁]
  rcases (h.agrees_requireRank id manageRank).bind_cases _ with
    hfail | ⟨rank, hmanaged, -, hs₂, ht₂⟩
  · exact Or.inl hfail
  rw [hs₂, ht₂]
  rcases (agreesOn_check _).bind_cases _ with hfail | ⟨v, hparsed, -, hs₃, ht₃⟩
  · exact Or.inl hfail
  rw [hs₃, ht₃]
  rcases (agreesOn_check _).bind_cases _ with hfail | ⟨m, hnamed, -, hs₄, ht₄⟩
  · exact Or.inl hfail
  rw [hs₄, ht₄]
  rcases (agreesOn_check _).bind_cases _ with hfail | ⟨role, hasked, -, hs₅, ht₅⟩
  · exact Or.inl hfail
  rw [hs₅, ht₅]
  rcases (HiddenFrom.agrees_requireGrantable role rank).bind_cases _ with
    hfail | ⟨_, hgrantable, -⟩
  · exact Or.inl hfail
  simp only [exec_check, Prod.mk.injEq, and_true] at hparsed hnamed hasked
  exact Or.inr ⟨v, m, role, rank, hfound, hmanaged, hparsed, strField_ok hnamed,
    strField_ok hasked, hgrantable⟩

/-- The grant passes its checks up to the cycle, and is for `x`. -/
def GrantTells (ctx : RequestCtx) (caller : Caller) (typeId id : String) (headers : HeaderMap)
    (body : Body) (s : Store) (x : String) : Prop :=
  ∃ v role rank, GrantAsked ctx caller typeId id headers body s v x role rank

theorem HiddenFrom.grant_status_iff (h : HiddenFrom caller x s)
    (hnames : ∀ v, readJson headers body false = .ok v → v.str? "member_id" = some x) :
    statusOf (exec (addMember ctx caller typeId id headers body) s).1 =
        statusOf (exec (addMember ctx caller typeId id headers body) (cascadeDelete s x)).1 ↔
      ¬ GrantTells ctx caller typeId id headers body s x := by
  have hin := unreached_of_no_rank h.valid h.admin h.rank
  by_cases hid : id = x
  · subst hid
    have hrefuses : RefusesOn (Unreached caller id)
        (addMember ctx caller typeId id headers body) := addMember_refuses typeId headers body
    obtain ⟨e, he, he'⟩ := refusesOn_both hrefuses hin (unreached_deleted id s h.admin)
    refine iff_of_true (by rw [he, he']) ?_
    rintro ⟨v, role, rank, hasked⟩
    have hmanaged := hasked.managed
    rw [hin.exec_requireRank] at hmanaged
    simp at hmanaged
  by_cases htells : GrantTells ctx caller typeId id headers body s x
  · refine iff_of_false (fun hc => ?_) fun hquiet => hquiet htells
    obtain ⟨v, role, rank, hasked⟩ := htells
    have hgone : (cascadeDelete s x).entities.has x = false := by
      rw [← Bool.not_eq_true, Store.has_deleted]
      exact fun hhas => hhas.2 rfl
    rw [(hasked.deleted h hid).absent (h.valid.deleted x) hgone fun hc => hid hc.symm] at hc
    rcases hasked.present h.valid h.present with hstatus | hstatus
    · rw [hstatus] at hc
      simp at hc
    · rw [hstatus] at hc
      simp at hc
  · refine iff_of_true ?_ htells
    rcases h.addMember_both hid with ⟨e, he, he'⟩ | ⟨v, m, role, rank, hasked⟩
    · rw [he, he']
    · obtain rfl : m = x := Option.some.inj (hasked.named.symm.trans (hnames v hasked.parsed))
      exact absurd ⟨v, role, rank, hasked⟩ htells

end Granting

/-! ### Requests whose body names an entity -/

/-- A request whose body can name an entity. -/
inductive NamingRequest where
  | create (env : Ambient) (typeId : String) (headers : HeaderMap) (body : Body)
  | update (v : UpdateVerb) (env : Ambient) (typeId id : String) (headers : HeaderMap)
      (body : Body)
  | grant (typeId id : String) (headers : HeaderMap) (body : Body)

namespace NamingRequest

def handle (st : AppState) (ctx : RequestCtx) (caller : Caller) :
    NamingRequest → Handler Response
  | create env typeId headers body => collCreate st ctx env caller typeId headers body
  | update v env typeId id headers body => itemUpdate v st ctx env caller typeId id headers body
  | grant typeId id headers body => addMember ctx caller typeId id headers body

/-- The payload carries `x` in a reference field that is not a scope parent. -/
def InReference (td : TypeDef) (payload : Json) (x : String) : Prop :=
  ∃ f ∈ td.fields, f.kind = "ref" ∧ f.field ∉ td.scopeParents ∧ payload.str? f.field = some x

/-- The body names `x`: in a reference field, or as the member to be. -/
def Names (st : AppState) (x : String) : NamingRequest → Prop
  | create _ typeId headers body => ∀ td payload, TypeDefCache.get st.registry typeId = some td →
      readJson headers body false = .ok payload → InReference td payload x
  | update v _ typeId _ headers body => ∀ td payload,
      TypeDefCache.get st.registry typeId = some td →
      readJson headers body v.allowMerge = .ok payload → InReference td payload x
  | grant _ _ headers body => ∀ v, readJson headers body false = .ok v →
      v.str? "member_id" = some x

/-- The id a create mints is not taken. -/
def MintsFresh (st : AppState) (s : Store) : NamingRequest → Prop
  | create env typeId _ _ => ∀ td, TypeDefCache.get st.registry typeId = some td →
      s.entities.has (mint td env.uuid) = false
  | update _ _ _ _ _ _ | grant _ _ _ _ => True

/-- The request gets as far as a column with a foreign key that names `x`. -/
def Tells (st : AppState) (ctx : RequestCtx) (caller : Caller) (s : Store) (x : String) :
    NamingRequest → Prop
  | create env typeId headers body => CreateTells st ctx env caller typeId headers body s x
  | update v _ typeId id headers body => UpdateTells v st ctx caller typeId id headers body s x
  | grant typeId id headers body => GrantTells ctx caller typeId id headers body s x

end NamingRequest

/--
**A request whose body names an entity out of reach answers with the same status
as if it were deleted, exactly unless it gets as far as a foreign key on it.**
-/
theorem naming_status_iff (st : AppState) (ctx : RequestCtx) (caller : Caller)
    (hadmin : caller.isPlatformAdmin = false) (s : Store) (hs : s.Valid) (x : String)
    (hx : s.entities.has x = true) (hnone : s.effectiveRank caller.actorId x = none)
    (hcaller : (cascadeDelete s x).callerOf caller.actorId = some caller) (req : NamingRequest)
    (hnames : req.Names st x) (hfresh : req.MintsFresh st s) :
    statusOf (exec (req.handle st ctx caller) s).1 =
        statusOf (exec (req.handle st ctx caller) (cascadeDelete s x)).1 ↔
      ¬ req.Tells st ctx caller s x := by
  have hother : caller.actorId ≠ x := by
    intro hc
    obtain ⟨row, hrow, -⟩ := Option.map_eq_some_iff.mp hcaller
    have hmem := Table.mem_of_find? (Store.row?_eq_some.mp hrow).1
    have hhas := (hs.deleted x).dataEntity row hmem
    rw [Store.row?_entityId hrow] at hhas
    exact (Store.has_deleted.mp hhas).2 hc
  have hhidden : HiddenFrom caller x s := ⟨hs, hadmin, hother, hnone, hx⟩
  cases req with
  | create env typeId headers body => exact hhidden.create_status_iff hfresh
  | update v env typeId id headers body => exact hhidden.update_status_iff
  | grant typeId id headers body => exact hhidden.grant_status_iff hnames

/-- Alice owns a case; Bob is an actor out of her reach. -/
def hiddenStore : Store where
  typeDefinitions :=
    ⟨[plainType "actor" "USR", plainType "project" "PRJ", caseType, commentType], by decide⟩
  entities := ⟨[⟨"USR_alice", "actor", none⟩, ⟨"USR_bob", "actor", none⟩,
    ⟨"PRJ_1", "project", none⟩, ⟨"CAS_1", "case", none⟩], by decide⟩
  entityData := ⟨[{ entityId := "USR_alice", typeId := "actor", data := .obj [] }, firstCase],
    by decide⟩
  memberships := caseStore.memberships
  roles := seededRoles
  workflows := caseStore.workflows
  cases := caseStore.cases

def hiddenState : AppState :=
  ⟨⟨[caseType, commentType], by decide⟩, caseState.workflows⟩

theorem hiddenStore_valid : hiddenStore.Valid where
  entityType := by decide
  dataEntity := by decide
  dataParent := by decide
  edgeRefs := by decide
  caseRefs := by decide

/-- Alice assigns her case to Bob. -/
def assignBob : NamingRequest :=
  .update .patch {} "case" "CAS_1"
    { contentType := some (some "application/json"), ifMatch := some (some (etag 1)) }
    (.ok ⟨.obj [("assignee_id", .str "USR_bob")], by simp [JsonMap.keys]⟩)

/-- Alice comments on her case, naming Bob as the author. -/
def quoteBob : NamingRequest :=
  .create { uuid := "1" } "comment" jsonHeaders
    (.ok ⟨.obj [("author_id", .str "USR_bob"), ("body", .str "Fixed"),
      ("subject_id", .str "CAS_1")], by simp [JsonMap.keys]⟩)

/-- Assigning the case to Bob works as long as he exists, and Alice cannot see him. -/
theorem assigning_tells_bob_exists :
    hiddenStore.Valid ∧ alice.isPlatformAdmin = false ∧ hiddenStore.entities.has "USR_bob" = true ∧
      hiddenStore.effectiveRank "USR_alice" "USR_bob" = none ∧
      (cascadeDelete hiddenStore "USR_bob").callerOf "USR_alice" = some alice ∧
      assignBob.Names hiddenState "USR_bob" ∧
      statusOf (exec (assignBob.handle hiddenState plainCtx alice) hiddenStore).1 = 200 ∧
      statusOf (exec (assignBob.handle hiddenState plainCtx alice)
        (cascadeDelete hiddenStore "USR_bob")).1 = 422 := by
  refine ⟨hiddenStore_valid, rfl, by decide, by decide, by decide, ?_, by decide, by decide⟩
  intro td payload htd hpayload
  obtain rfl : caseType = td := Option.some.inj htd
  obtain rfl : _ = payload := Except.ok.inj hpayload
  exact ⟨typeField "assignee_id" "Assignee" "ref" false true 9 "standard" (refOptions "USR"),
    by decide, rfl, by decide, rfl⟩

/-- Naming Bob as an author tells nothing: no column keeps it. -/
theorem quoting_tells_nothing :
    statusOf (exec (quoteBob.handle hiddenState plainCtx alice) hiddenStore).1 =
      statusOf (exec (quoteBob.handle hiddenState plainCtx alice)
        (cascadeDelete hiddenStore "USR_bob")).1 := by
  have hcomment : ∀ td, TypeDefCache.get hiddenState.registry "comment" = some td →
      td = commentType := fun td htd => (Option.some.inj htd).symm
  refine (naming_status_iff hiddenState plainCtx alice rfl hiddenStore hiddenStore_valid "USR_bob"
    (by decide) (by decide) (by decide) quoteBob ?_ ?_).mpr ?_
  · intro td payload htd hpayload
    obtain rfl := hcomment td htd
    obtain rfl : _ = payload := Except.ok.inj hpayload
    exact ⟨typeField "author_id" "Author" "ref" false false 2 "standard" (refOptions "USR"),
      by decide, rfl, by decide, rfl⟩
  · intro td htd
    obtain rfl := hcomment td htd
    decide
  · rintro ⟨td, payload, hchecked, -, hcase, -⟩
    obtain rfl := hcomment td hchecked.typed
    exact absurd hcase (by decide)

end Numu
