/-
The `cases` mirror: a second table written by a second statement.

A create writes the entity, its data and the mirror in one transaction.  An
update does not: it commits the new data, and then writes the mirror as a
statement of its own.  Two things follow, one for each half of this file.

The mirror has foreign keys and a trigger the data has not, so it can be refused
after the data was stored, and the request then fails with its first write in
place.

And the mirror is not guarded by a version, so of two updates that follow each
other the mirrors may arrive in the other order.
-/
import Numu.Lib.Pool
import Numu.Proofs.FieldPlane

namespace Numu

open Fallible Handler

/-! ### A request that fails -/

/-- The tables of the object model are as before. -/
structure SameObjects (s s' : Store) : Prop where
  entities : s'.entities = s.entities
  entityData : s'.entityData = s.entityData
  memberships : s'.memberships = s.memberships
  cases : s'.cases = s.cases

theorem SameObjects.refl (s : Store) : SameObjects s s := ⟨rfl, rfl, rfl, rfl⟩

/-- The requests that write objects. -/
inductive ObjectWrite where
  | create (env : Ambient) (typeId : String) (headers : HeaderMap) (body : Body)
  | update (v : UpdateVerb) (env : Ambient) (typeId id : String) (headers : HeaderMap)
      (body : Body)
  | delete (typeId id : String) (headers : HeaderMap)

def ObjectWrite.handle (st : AppState) (ctx : RequestCtx) (caller : Caller) :
    ObjectWrite → Handler Response
  | .create env typeId headers body => collCreate st ctx env caller typeId headers body
  | .update v env typeId id headers body => itemUpdate v st ctx env caller typeId id headers body
  | .delete typeId id headers => itemDelete st ctx caller typeId id headers

/-- A foreign key of the row is broken, or the trigger refuses the change to it. -/
def CaseRefused (s : Store) (c : CaseRow) : Prop :=
  caseRefsOk s c = false ∨
    ∃ old x, s.cases.find? c.entityId = some old ∧ casesGuard s old c = .error x

theorem upsertCase_error_iff {s : Store} {c : CaseRow} :
    (∃ x, upsertCase c s = .error x) ↔ CaseRefused s c := by
  unfold upsertCase CaseRefused
  cases hfind : s.cases.find? c.entityId with
  | none =>
      by_cases hrefs : caseRefsOk s c = true
      · simp [hrefs]
      · simp [hrefs]
  | some old =>
      cases hguard : casesGuard s old c with
      | error x => simp [hguard]
      | ok u =>
          by_cases hrefs : caseRefsOk s c = true
          · simp [hguard, hrefs]
          · simp [hguard, hrefs]

/-- Whether a row is refused does not depend on the entity data. -/
theorem caseRefused_data {s : Store} {t : Table EntityData.entityId} {c : CaseRow} :
    CaseRefused { s with entityData := t } c ↔ CaseRefused s c := Iff.rfl

/--
The request is an update of a case that passes every check and whose data is
stored, and the mirror of the new data is refused.
-/
def ObjectWrite.MirrorRefused (st : AppState) (ctx : RequestCtx) (caller : Caller) (s : Store) :
    ObjectWrite → Prop
  | .update v _ typeId id headers body =>
    ∃ td row payload expected ver,
      UpdateChecked v st ctx caller typeId id headers body s td row payload expected ∧
      td.typeId = "case" ∧ row.version = expected ∧ expected.succ? = some ver ∧
      s.refOk (scopeParent td (v.build td row.data payload)) = true ∧
      CaseRefused s (caseMirror id (v.build td row.data payload) ver)
  | .create _ _ _ _ => False
  | .delete _ _ _ => False

/-- The two ways the writes of an update fail: before anything is stored, or at the mirror. -/
theorem updateWrites_error {v : UpdateVerb} {ctx : RequestCtx} {env : Ambient} {caller : Caller}
    {td : TypeDef} {typeId id : String} {data : Json} {expected : I32} {s s' : Store}
    {e : AppError}
    (h : exec (updateWrites v ctx env caller td typeId id data expected) s = (.error e, s')) :
    s' = s ∨ ∃ row ver, s.row? id typeId = some row ∧ row.version = expected ∧
      expected.succ? = some ver ∧ s.refOk (scopeParent td data) = true ∧ td.typeId = "case" ∧
      CaseRefused s (caseMirror id data ver) := by
  unfold updateWrites at h
  rcases exec_bind_error.mp h with hupdate | ⟨affected, s₁, hupdate, h₁⟩
  · exact Or.inl (exec_execute_error.mp hupdate).2
  rcases updateEntityData_ok (exec_execute_ok.mp hupdate) with
    ⟨rfl, rfl, -⟩ | ⟨rfl, row, ver, hrow, hver, hsucc, href, rfl⟩
  · -- No row at that version: the request stops with 412.
    rcases exec_bind_error.mp h₁ with hensure | ⟨_, t, hensure, -⟩
    · exact Or.inl (exec_ensure_error.mp hensure).2.2
    · exact absurd (exec_ensure_ok.mp hensure).1 (by simp)
  rcases exec_bind_error.mp h₁ with hensure | ⟨_, t, hensure, h₂⟩
  · exact absurd (exec_ensure_error.mp hensure).1 (by simp)
  obtain ⟨-, rfl⟩ := exec_ensure_ok.mp hensure
  rw [I32.succ_eq_of_succ? hsucc] at h₂
  rcases exec_bind_error.mp h₂ with hmirror | ⟨_, t, -, h₃⟩
  · by_cases hcase : td.typeId = "case"
    · rw [onlyIf, if_pos hcase] at hmirror
      obtain ⟨⟨x, hx, -⟩, -⟩ := exec_execute_error.mp hmirror
      have hrefused : CaseRefused s (caseMirror id data ver) :=
        caseRefused_data.mp (upsertCase_error_iff.mp ⟨x, hx⟩)
      exact Or.inr ⟨row, ver, hrow, hver, hsucc, href, hcase, hrefused⟩
    · rw [onlyIf, if_neg hcase] at hmirror
      simp at hmirror
  · -- Neither the event nor the answer fails.
    obtain ⟨evs, hevs⟩ := exec_recordEvent ctx caller.actorId (some id)
      (typeId ++ v.eventSuffix) data t
    simp [exec_bind, hevs] at h₃

/-- At the version it names, with room for the next, the data is stored. -/
theorem exec_updateEntityData {td : TypeDef} {typeId id : String} {row : EntityData} {data : Json}
    {expected ver : I32} {s : Store} (now : Timestamp) (hrow : s.row? id typeId = some row)
    (hver : row.version = expected) (hsucc : expected.succ? = some ver)
    (href : s.refOk (scopeParent td data) = true) :
    exec (execute (updateEntityData data (scopeParent td data) id typeId expected now)) s =
      (.ok 1, { s with entityData := s.entityData.upsert (updatedRow td row data ver now) }) := by
  refine exec_execute_ok.mpr ?_
  simp only [updateEntityData, hrow, hver, if_true, hsucc, href, updatedRow]

/-- An update whose mirror is refused answers with an error and has stored its data. -/
theorem updateWrites_refused (v : UpdateVerb) (ctx : RequestCtx) (env : Ambient) (caller : Caller)
    {td : TypeDef} {typeId id : String} {row : EntityData} {data : Json} {expected ver : I32}
    {s : Store} (hrow : s.row? id typeId = some row) (hver : row.version = expected)
    (hsucc : expected.succ? = some ver) (href : s.refOk (scopeParent td data) = true)
    (hcase : td.typeId = "case") (hrefused : CaseRefused s (caseMirror id data ver)) :
    ∃ x, upsertCase (caseMirror id data ver)
        { s with entityData := s.entityData.upsert (updatedRow td row data ver env.now) } =
          .error x ∧
      exec (updateWrites v ctx env caller td typeId id data expected) s =
        (.error (AppError.ofSqlx x),
          { s with entityData := s.entityData.upsert (updatedRow td row data ver env.now) }) := by
  have hupdate := exec_updateEntityData env.now hrow hver hsucc href
  obtain ⟨x, hx⟩ := upsertCase_error_iff.mpr (caseRefused_data.mpr hrefused)
  have hmirror : exec (execute (upsertCaseMirror id data ver))
      { s with entityData := s.entityData.upsert (updatedRow td row data ver env.now) } =
        (.error (AppError.ofSqlx x),
          { s with entityData := s.entityData.upsert (updatedRow td row data ver env.now) }) :=
    exec_execute_error.mpr ⟨⟨x, hx, rfl⟩, rfl⟩
  have haffected : decide ((1 : Nat) ≠ 0) = true := rfl
  refine ⟨x, hx, ?_⟩
  simp only [updateWrites, exec_bind, hupdate, ensure, haffected, if_true, exec_pure, onlyIf,
    if_pos hcase, I32.succ_eq_of_succ? hsucc, hmirror]

/-- An update whose mirror is not refused is answered. -/
theorem updateWrites_accepted (v : UpdateVerb) (ctx : RequestCtx) (env : Ambient) (caller : Caller)
    {td : TypeDef} {typeId id : String} {row : EntityData} {data : Json} {expected ver : I32}
    {s : Store} (hrow : s.row? id typeId = some row) (hver : row.version = expected)
    (hsucc : expected.succ? = some ver) (href : s.refOk (scopeParent td data) = true)
    (hmirror : td.typeId = "case" → ¬ CaseRefused s (caseMirror id data ver)) :
    ∃ s', exec (updateWrites v ctx env caller td typeId id data expected) s =
      (.ok { status := 200, etag := some (etag ver),
             body := some (entityJson id typeId data ver) }, s') := by
  have hupdate := exec_updateEntityData env.now hrow hver hsucc href
  have hsecond : ∃ s₂, exec (onlyIf (td.typeId = "case") (execute (upsertCaseMirror id data ver)))
      { s with entityData := s.entityData.upsert (updatedRow td row data ver env.now) } =
        (.ok (), s₂) := by
    unfold onlyIf
    by_cases hcase : td.typeId = "case"
    · rw [if_pos hcase]
      cases hup : upsertCase (caseMirror id data ver)
          { s with entityData := s.entityData.upsert (updatedRow td row data ver env.now) } with
      | error x =>
          exact absurd (caseRefused_data.mp (upsertCase_error_iff.mp ⟨x, hup⟩)) (hmirror hcase)
      | ok r => exact ⟨r.2, exec_execute_ok.mpr hup⟩
    · rw [if_neg hcase]
      exact ⟨_, rfl⟩
  obtain ⟨s₂, hsecond⟩ := hsecond
  obtain ⟨evs, hevs⟩ := exec_recordEvent ctx caller.actorId (some id)
    (typeId ++ v.eventSuffix) data s₂
  have haffected : decide ((1 : Nat) ≠ 0) = true := rfl
  refine ⟨{ s₂ with events := evs }, ?_⟩
  simp only [updateWrites, exec_bind, hupdate, ensure, haffected, if_true, exec_pure,
    I32.succ_eq_of_succ? hsucc, hsecond, hevs]

/--
**A failed request leaves the objects as they were, exactly unless it is an
update of a case whose data is stored and whose mirror is refused.**
-/
theorem failed_write_changes_nothing_iff (st : AppState) (ctx : RequestCtx) (caller : Caller)
    (req : ObjectWrite) (s : Store) :
    (∀ e s', exec (req.handle st ctx caller) s = (.error e, s') → SameObjects s s') ↔
      ¬ req.MirrorRefused st ctx caller s := by
  cases req with
  | create env typeId headers body =>
      refine iff_of_true ?_ not_false
      intro e s' h
      rcases collCreate_cases h with ⟨-, rfl⟩ | ⟨td, data, t, evs, -, -, ⟨resp, hresp⟩, -⟩
      · exact SameObjects.refl _
      · simp at hresp
  | delete typeId id headers =>
      refine iff_of_true ?_ not_false
      intro e s' h
      rcases itemDelete_cases h with ⟨-, rfl⟩ | ⟨resp, evs, hresp, -⟩
      · exact SameObjects.refl _
      · simp at hresp
  | update v env typeId id headers body =>
      refine ⟨fun hatomic => ?_, fun hclean => ?_⟩
      · intro hrefused
        obtain ⟨td, row, payload, expected, ver, hchecked, hcase, hver, hsucc, href, hcaseRefused⟩ :=
          hrefused
        obtain ⟨y, -, hexec⟩ := updateWrites_refused v ctx env caller hchecked.found hver hsucc href
          hcase hcaseRefused
        have hsame := (hatomic _ _ (hchecked.exec_eq.trans hexec)).entityData
        -- The stored version went up by one.
        have hrowId : row.entityId = id := Store.row?_entityId hchecked.found
        have hid : (updatedRow td row (v.build td row.data payload) ver env.now).entityId = id :=
          hrowId
        have hafter := congrArg (fun t => t.find? id) hsame
        simp only [Table.find?_upsert, if_pos hid, (Store.row?_eq_some.mp hchecked.found).1,
          Option.some.injEq] at hafter
        have hversion : ver = row.version := congrArg EntityData.version hafter
        have hup := I32.succ?_eq_some.mp hsucc
        rw [hversion, hver] at hup
        omega
      · intro e s' h
        rcases itemUpdate_cases with ⟨e', hfail⟩ | ⟨td, row, payload, expected, hchecked⟩
        · rw [ObjectWrite.handle, hfail] at h
          obtain rfl : s = s' := congrArg Prod.snd h
          exact SameObjects.refl _
        · rw [ObjectWrite.handle, hchecked.exec_eq] at h
          rcases updateWrites_error h with rfl | ⟨row', ver, hrow', hver, hsucc, href, hcase, hx⟩
          · exact SameObjects.refl _
          · obtain rfl : row = row' := Option.some.inj (hchecked.found.symm.trans hrow')
            exact absurd ⟨td, row, payload, expected, ver, hchecked, hcase, hver, hsucc, href, hx⟩
              hclean

/-! #### A case assigned to nobody -/

def caseState : AppState := ⟨⟨[caseType], by decide⟩, seededWorkflows⟩

/-- A new case. -/
def firstCase : EntityData where
  entityId := "CAS_1"
  typeId := "case"
  data := .obj [("priority", .str "normal"), ("project_id", .str "PRJ_1"),
    ("status", .str "backlog"), ("title", .str "Crash"), ("type", .str "bug"),
    ("workflow_id", .str "default")]
  scopeParentId := some "PRJ_1"

/-- Its store: a project, and Alice who owns the case. -/
def caseStore : Store where
  typeDefinitions :=
    ⟨[plainType "actor" "USR", plainType "project" "PRJ", caseType], by decide⟩
  entities := ⟨[⟨"USR_alice", "actor", none⟩, ⟨"PRJ_1", "project", none⟩,
    ⟨"CAS_1", "case", none⟩], by decide⟩
  entityData := ⟨[firstCase], by decide⟩
  memberships := ⟨[⟨"CAS_1", "USR_alice", "owner", ""⟩], by decide⟩
  roles := seededRoles
  workflows := ⟨[⟨"default", ["backlog", "todo", "in_progress", "in_review", "done"], .obj [],
    "backlog", ["docs_reconciled"]⟩], by decide⟩
  cases := ⟨[caseMirror "CAS_1" firstCase.data 1], by decide⟩

theorem caseStore_valid : caseStore.Valid where
  entityType := by decide
  dataEntity := by decide
  dataParent := by decide
  edgeRefs := by decide
  caseRefs := by decide

/-- A body of one field. -/
def oneField (field value : String) : Body :=
  .ok ⟨.obj [(field, .str value)], by simp [JsonMap.keys]⟩

/-- A PATCH of one field of the case. -/
def patchCase (version : I32) (field value : String) : Handler Response :=
  itemPatch caseState plainCtx {} alice "case" "CAS_1"
    { contentType := some (some "application/json"), ifMatch := some (some (etag version)) }
    (oneField field value)

/-- Assigning the case to an actor that does not exist fails and is stored. -/
theorem failed_assignment_is_stored :
    caseStore.Valid ∧
      ∃ e s', exec (patchCase 1 "assignee_id" "USR_ghost") caseStore = (.error e, s') ∧
        e.status = 422 ∧ ¬ SameObjects caseStore s' := by
  refine ⟨caseStore_valid, _, _, rfl, by decide, ?_⟩
  intro h
  exact absurd h.entityData (by decide)

/-! ### Requests in any interleaving -/

/-- The mirror of the row is in place. -/
def Store.InSync (s : Store) (d : EntityData) : Prop :=
  s.cases.find? d.entityId = some (caseMirror d.entityId d.data d.version)

instance (s : Store) (d : EntityData) : Decidable (s.InSync d) :=
  inferInstanceAs (Decidable (s.cases.find? d.entityId = _))

/-- Every case has its mirror. -/
def Store.Synced (s : Store) : Prop := ∀ d ∈ s.entityData, d.typeId = "case" → s.InSync d

instance (s : Store) : Decidable s.Synced :=
  inferInstanceAs (Decidable (∀ d ∈ s.entityData, d.typeId = "case" → s.InSync d))

/-- The requests on cases that write them. -/
inductive CaseWrite where
  | create (ctx : RequestCtx) (env : Ambient) (caller : Caller) (headers : HeaderMap) (body : Body)
  | update (v : UpdateVerb) (ctx : RequestCtx) (env : Ambient) (caller : Caller) (id : String)
      (headers : HeaderMap) (body : Body)

def CaseWrite.handle (st : AppState) : CaseWrite → Handler Response
  | .create ctx env caller headers body => collCreate st ctx env caller "case" headers body
  | .update v ctx env caller id headers body =>
    itemUpdate v st ctx env caller "case" id headers body

/-- No commit replaced the mirror of a case by an older one. -/
def NoLowering (log : List (Commit Store)) : Prop :=
  ∀ c ∈ log, ∀ old ∈ c.before.cases, ∀ new ∈ c.after.cases, new.entityId = old.entityId →
    old.version ≤ new.version

instance (log : List (Commit Store)) : Decidable (NoLowering log) :=
  inferInstanceAs (Decidable (∀ c ∈ log, _))

/-- The commit put this row in place. -/
def Stored (c : Commit Store) (d : EntityData) : Prop :=
  c.after.entityData.find? d.entityId = some d ∧ c.before.entityData.find? d.entityId ≠ some d

/-- Program `i` stored the row and has not brought its mirror into place yet. -/
def Pending (i : Nat) (d : EntityData) (log : List (Commit Store)) : Prop :=
  (∃ c ∈ log, c.who = i ∧ Stored c d) ∧ ∀ c ∈ log, c.who = i → ¬ c.after.InSync d

/-- Every case has its mirror, or somebody still owes it. -/
def Owing (w : World Store) : Prop :=
  ∀ d ∈ w.now.entityData, d.typeId = "case" → w.now.InSync d ∨ ∃ i, Pending i d w.log

/-- Every row program `i` stored got its mirror from it. -/
def Settled (i : Nat) (log : List (Commit Store)) : Prop :=
  ∀ c ∈ log, c.who = i → ∀ d, Stored c d → ∃ c' ∈ log, c'.who = i ∧ c'.after.InSync d

/-- Rows stay, and change only together with a higher version. -/
def RowsEvolve (s t : Store) : Prop :=
  ∀ id d, s.entityData.find? id = some d → ∃ d', t.entityData.find? id = some d' ∧
    ((d'.data = d.data ∧ d'.version = d.version) ∨ d.version < d'.version)

theorem RowsEvolve.of_eq {s t : Store} (h : t.entityData = s.entityData) : RowsEvolve s t := by
  intro id d hd
  exact ⟨d, h ▸ hd, Or.inl ⟨rfl, rfl⟩⟩

theorem RowsEvolve.trans {s t u : Store} (h₁ : RowsEvolve s t) (h₂ : RowsEvolve t u) :
    RowsEvolve s u := by
  intro id d hd
  obtain ⟨d', hd', h'⟩ := h₁ id d hd
  obtain ⟨d'', hd'', h''⟩ := h₂ id d' hd'
  refine ⟨d'', hd'', ?_⟩
  rcases h' with ⟨hdata, hver⟩ | hlt
  · rw [← hdata, ← hver]
    exact h''
  · rcases h'' with ⟨-, hver⟩ | hlt'
    · exact Or.inr (hver ▸ hlt)
    · exact Or.inr (hlt.trans hlt')

/--
The contract of a case write.  Rows only evolve, nobody touches the commits of
another, and every case has its mirror or somebody owes it.
-/
def mirrorContract : Contract Store where
  inv w := NoLowering w.log → Owing w
  rely i w w' := RowsEvolve w.now w'.now ∧ World.SameCommits i w w'
  guar i w w' := RowsEvolve w.now w'.now ∧ w'.log = w.log ++ [⟨i, w.now, w'.now⟩] ∧
    (NoLowering w'.log → Owing w')
  rely_refl i w := ⟨RowsEvolve.of_eq rfl, fun _ _ => Iff.rfl⟩
  rely_trans h₁ h₂ := ⟨h₁.1.trans h₂.1, fun c hc => (h₂.2 c hc).trans (h₁.2 c hc)⟩
  inv_guar _ h := h.2.2
  rely_guar := by
    intro i j w w' hij _ hguar
    exact ⟨hguar.1, World.sameCommits_commit hij hguar.2.1⟩

/-- A debt stays until the mirror is in place. -/
theorem Pending.commit {i : Nat} {d : EntityData} {log : List (Commit Store)} (h : Pending i d log)
    (c : Commit Store) : c.after.InSync d ∨ Pending i d (log ++ [c]) := by
  by_cases hsync : c.after.InSync d
  · exact Or.inl hsync
  · obtain ⟨⟨c₀, hc₀, hwho, hstored⟩, hnone⟩ := h
    refine Or.inr ⟨⟨c₀, List.mem_append.mpr (Or.inl hc₀), hwho, hstored⟩, ?_⟩
    intro c' hc' hwho'
    rcases List.mem_append.mp hc' with hc' | hc'
    · exact hnone c' hc' hwho'
    · obtain rfl : c' = c := by simpa using hc'
      exact hsync

theorem NoLowering.init {log : List (Commit Store)} {c : Commit Store}
    (h : NoLowering (log ++ [c])) : NoLowering log := by
  intro c' hc'
  exact h c' (List.mem_append.mpr (Or.inl hc'))

/--
A commit keeps the accounts when every row after it has its mirror, or is an old
row whose mirror it left alone, or is owed by the program that made it.
-/
theorem mirror_guar {i : Nat} {w : World Store} {t : Store} (hinv : mirrorContract.inv w)
    (hrows : RowsEvolve w.now t)
    (hd : NoLowering (w.log ++ [⟨i, w.now, t⟩]) → ∀ d ∈ t.entityData, d.typeId = "case" →
      t.InSync d ∨ (d ∈ w.now.entityData ∧ (w.now.InSync d → t.InSync d)) ∨
        Pending i d (w.log ++ [⟨i, w.now, t⟩])) :
    mirrorContract.guar i w (w.commit i fun _ => t) := by
  refine ⟨hrows, rfl, ?_⟩
  intro hlow d hmem hcase
  rcases hd hlow d hmem hcase with hsync | ⟨hold, hkeep⟩ | howed
  · exact Or.inl hsync
  · rcases hinv hlow.init d hold hcase with hsync | ⟨j, howed⟩
    · exact Or.inl (hkeep hsync)
    · rcases howed.commit ⟨i, w.now, t⟩ with hsync | howed
      · exact Or.inl hsync
      · exact Or.inr ⟨j, howed⟩
  · exact Or.inr ⟨i, howed⟩

/-- A commit that leaves rows and mirrors alone. -/
theorem mirror_guar_same {i : Nat} {w : World Store} {t : Store} (hinv : mirrorContract.inv w)
    (hdata : t.entityData = w.now.entityData) (hcases : t.cases = w.now.cases) :
    mirrorContract.guar i w (w.commit i fun _ => t) := by
  refine mirror_guar hinv (RowsEvolve.of_eq hdata) ?_
  intro _ d hmem _
  refine Or.inr (Or.inl ⟨hdata ▸ hmem, ?_⟩)
  intro hsync
  unfold Store.InSync at hsync ⊢
  rw [hcases]
  exact hsync

theorem Settled.commit {i : Nat} {w : World Store} {t : Store} (h : Settled i w.log)
    (hdata : t.entityData = w.now.entityData) : Settled i (w.commit i fun _ => t).log := by
  intro c hc hwho d hstored
  rcases List.mem_append.mp hc with hc | hc
  · obtain ⟨c', hc', hwho', hsync⟩ := h c hc hwho d hstored
    exact ⟨c', List.mem_append.mpr (Or.inl hc'), hwho', hsync⟩
  · obtain rfl : c = ⟨i, w.now, t⟩ := by simpa using hc
    exact absurd (hdata ▸ hstored.1) hstored.2

theorem Settled.rely {i : Nat} {w w' : World Store} (h : Settled i w.log)
    (hr : mirrorContract.rely i w w') : Settled i w'.log := by
  intro c hc hwho d hstored
  obtain ⟨c', hc', hwho', hsync⟩ := h c ((hr.2 c hwho).mp hc) hwho d hstored
  exact ⟨c', (hr.2 c' hwho').mpr hc', hwho', hsync⟩

/-- A request that succeeds has settled what it owed. -/
def MirrorAnswer (i : Nat) (r : Except AppError Response) (w : World Store) : Prop :=
  ∀ resp, r = .ok resp → Settled i w.log

theorem mirrorAnswer_error {i : Nat} {e : AppError} {w : World Store} :
    MirrorAnswer i (.error e) w := by
  intro resp h
  simp at h

/-- The event and the answer of a request that has settled its debt. -/
theorem keepsF_settled {i : Nat} {w : World Store} {ctx : RequestCtx} {actorId kind : String}
    {entityId : Option String} {payload : Json} {resp : Response} (h : Settled i w.log) :
    mirrorContract.KeepsF i (MirrorAnswer i)
      (do recordEvent ctx actorId entityId kind payload; pure resp) w := by
  refine keepsF_recordEvent_bind ?_
  intro w' evs hr hinv
  have hsettled : Settled i (w'.commit i fun _ => { w'.now with events := evs }).log :=
    (h.rely hr).commit rfl
  refine ⟨mirror_guar_same hinv rfl rfl, Contract.keepsF_pure ?_⟩
  intro w'' hr' _ _ _
  exact hsettled.rely hr'

/-- What program `i` knows between its two writes: the row it stored, and what became of it. -/
structure Owes (i : Nat) (id : String) (data : Json) (ver : I32) (w : World Store) : Prop where
  stored : ∀ c ∈ w.log, c.who = i → ∀ d, Stored c d →
    d.entityId = id ∧ d.data = data ∧ d.version = ver
  current : ∃ d, w.now.entityData.find? id = some d ∧
    ((d.data = data ∧ d.version = ver) ∨ ver < d.version)

theorem Owes.rely {i : Nat} {id : String} {data : Json} {ver : I32} {w w' : World Store}
    (h : Owes i id data ver w) (hr : mirrorContract.rely i w w') : Owes i id data ver w' := by
  refine ⟨fun c hc hwho => h.stored c ((hr.2 c hwho).mp hc) hwho, ?_⟩
  obtain ⟨d, hd, hrel⟩ := h.current
  obtain ⟨d', hd', hrel'⟩ := hr.1 id d hd
  refine ⟨d', hd', ?_⟩
  rcases hrel' with ⟨hdata, hver⟩ | hlt
  · rw [hdata, hver]
    exact hrel
  · rcases hrel with ⟨-, hver⟩ | hlt'
    · exact Or.inr (hver ▸ hlt)
    · exact Or.inr (hlt'.trans hlt)

/-- The second write: the mirror, and the debt is settled. -/
theorem keepsF_mirror {i : Nat} {id : String} {data : Json} {ver : I32} {w : World Store}
    {ctx : RequestCtx} {actorId kind : String} {resp : Response} (h : Owes i id data ver w) :
    mirrorContract.KeepsF i (MirrorAnswer i) (do
      execute (upsertCaseMirror id data ver)
      recordEvent ctx actorId (some id) kind data
      pure resp) w := by
  refine keepsF_execute_bind ?_ ?_
  · intro w' u t hr hinv hq
    have howes := h.rely hr
    have ht : t = { w'.now with cases := w'.now.cases.upsert (caseMirror id data ver) } :=
      (upsertCase_ok hq).2
    have hfind : ∀ x, t.cases.find? x =
        if id = x then some (caseMirror id data ver) else w'.now.cases.find? x := by
      intro x
      rw [ht]
      exact Table.find?_upsert _ _ _
    have hdata : t.entityData = w'.now.entityData := by rw [ht]
    refine ⟨mirror_guar hinv (RowsEvolve.of_eq hdata) ?_, keepsF_settled ?_⟩
    · intro hlow d hmem _
      refine Or.inr (Or.inl ⟨hdata ▸ hmem, ?_⟩)
      intro hsync
      unfold Store.InSync at hsync ⊢
      rw [hfind]
      by_cases hid : id = d.entityId
      · -- A newer row with its mirror in place cannot be overwritten by this older mirror.
        rw [if_pos hid]
        obtain ⟨d', hd', hrel⟩ := howes.current
        have hmem' : d ∈ w'.now.entityData := hdata ▸ hmem
        obtain rfl : d = d' := by
          have hd : w'.now.entityData.find? id = some d :=
            Table.find?_eq_some.mpr ⟨hmem', hid.symm⟩
          exact Option.some.inj (hd.symm.trans hd')
        have hle : d.version ≤ ver := by
          have hnew : t.cases.find? d.entityId = some (caseMirror id data ver) := by
            rw [hfind, if_pos hid]
          exact hlow ⟨i, w'.now, t⟩ (by simp) _ (Table.mem_of_find? hsync) _
            (Table.mem_of_find? hnew) hid
        rcases hrel with ⟨hdata', hver⟩ | hlt
        · rw [hid, hdata', hver]
        · exact absurd hle (not_le.mpr hlt)
      · rw [if_neg hid]
        exact hsync
    · intro c hc hwho d hstored
      rcases List.mem_append.mp hc with hc | hc
      · obtain ⟨hid, hd, hver⟩ := howes.stored c hc hwho d hstored
        refine ⟨⟨i, w'.now, t⟩, by simp [World.commit], rfl, ?_⟩
        show t.cases.find? d.entityId = _
        rw [hfind, hid, if_pos rfl, hd, hver]
      · obtain rfl : c = ⟨i, w'.now, t⟩ := by simpa using hc
        exact absurd (hdata ▸ hstored.1) hstored.2
  · intro w' x hr hinv _
    exact ⟨mirror_guar_same hinv rfl rfl, fun _ _ _ => mirrorAnswer_error⟩

/-! #### The row of an update -/

section Row

variable {i : Nat} {w : World Store} {t : Store} {d₀ d₁ : EntityData}

theorem find?_stored (ht : t = { w.now with entityData := w.now.entityData.upsert d₁ }) (x : String) :
    t.entityData.find? x = if d₁.entityId = x then some d₁ else w.now.entityData.find? x := by
  rw [ht]
  exact Table.find?_upsert _ _ _

/-- A newer row is stored: its mirror is owed, unless it happens to be there already. -/
theorem mirror_guar_row (ht : t = { w.now with entityData := w.now.entityData.upsert d₁ })
    (hinv : mirrorContract.inv w) (hfresh : w.Fresh i)
    (hfound : w.now.entityData.find? d₁.entityId = some d₀) (hlt : d₀.version < d₁.version) :
    mirrorContract.guar i w (w.commit i fun _ => t) := by
  have hcases : t.cases = w.now.cases := by rw [ht]
  refine mirror_guar hinv ?_ ?_
  · intro x d hd
    rw [find?_stored ht]
    by_cases hid : d₁.entityId = x
    · rw [if_pos hid]
      obtain rfl : d = d₀ := by
        rw [← hid, hfound] at hd
        exact (Option.some.inj hd).symm
      exact ⟨d₁, rfl, Or.inr hlt⟩
    · rw [if_neg hid]
      exact ⟨d, hd, Or.inl ⟨rfl, rfl⟩⟩
  · intro _ d hmem _
    have hd : t.entityData.find? d.entityId = some d := Table.find?_eq_some.mpr ⟨hmem, rfl⟩
    by_cases hid : d₁.entityId = d.entityId
    · by_cases hsync : t.InSync d
      · exact Or.inl hsync
      refine Or.inr (Or.inr ⟨⟨⟨i, w.now, t⟩, by simp, rfl, hd, ?_⟩, ?_⟩)
      · intro hc
        have hbefore : w.now.entityData.find? d.entityId = some d := hc
        rw [← hid, hfound, Option.some.injEq] at hbefore
        rw [find?_stored ht, if_pos hid, Option.some.injEq] at hd
        rw [hbefore, ← hd] at hlt
        exact absurd hlt (lt_irrefl _)
      · intro c hc hwho
        obtain rfl := hfresh.commit c hc hwho
        exact hsync
    · refine Or.inr (Or.inl ⟨?_, ?_⟩)
      · rw [find?_stored ht, if_neg hid] at hd
        exact Table.mem_of_find? hd
      · intro hsync
        unfold Store.InSync at hsync ⊢
        rw [hcases]
        exact hsync

/-- The program that stored the row owes its mirror. -/
theorem owes_row (ht : t = { w.now with entityData := w.now.entityData.upsert d₁ })
    (hfresh : w.Fresh i) :
    Owes i d₁.entityId d₁.data d₁.version (w.commit i fun _ => t) := by
  refine ⟨?_, d₁, ?_, Or.inl ⟨rfl, rfl⟩⟩
  · intro c hc hwho d hstored
    obtain rfl := hfresh.commit c hc hwho
    have hafter : t.entityData.find? d.entityId = some d := hstored.1
    rw [find?_stored ht] at hafter
    by_cases hid : d₁.entityId = d.entityId
    · rw [if_pos hid, Option.some.injEq] at hafter
      subst hafter
      exact ⟨rfl, rfl, rfl⟩
    · rw [if_neg hid] at hafter
      exact absurd hafter hstored.2
  · show t.entityData.find? d₁.entityId = _
    rw [find?_stored ht, if_pos rfl]

end Row

/-- The writes of an update of a case. -/
theorem keepsF_updateCase {i : Nat} {w : World Store} {v : UpdateVerb} {ctx : RequestCtx}
    {env : Ambient} {caller : Caller} {td : TypeDef} {id : String} {data : Json} {expected : I32}
    (hcase : td.typeId = "case") (h : w.Fresh i) :
    mirrorContract.KeepsF i (MirrorAnswer i)
      (updateWrites v ctx env caller td "case" id data expected) w := by
  unfold updateWrites
  refine keepsF_execute_bind ?_ ?_
  · intro w' affected t hr hinv hq
    have hfresh := h.rely hr.2
    rcases updateEntityData_ok hq with
      ⟨rfl, rfl, -⟩ | ⟨rfl, row, ver, hrow, hver, hsucc, -, ht⟩
    · refine ⟨mirror_guar_same hinv rfl rfl, ?_⟩
      refine Contract.keepsF_readOnly_bind (readOnly_ensure _ _) (answers_ensure _ _) ?_
        fun _ _ _ _ => mirrorAnswer_error
      intro _ _ haffected _ _
      simp at haffected
    · obtain rfl : row.entityId = id := Store.row?_entityId hrow
      replace ht : t = { w'.now with
          entityData := w'.now.entityData.upsert (updatedRow td row data ver env.now) } := ht
      have hlt : row.version < ver := by
        rw [I32.lt_def, hver, I32.succ?_eq_some.mp hsucc]
        omega
      refine ⟨mirror_guar_row ht hinv hfresh (Store.row?_eq_some.mp hrow).1 hlt, ?_⟩
      have howes : Owes i row.entityId data ver (w'.commit i fun _ => t) := owes_row ht hfresh
      refine Contract.keepsF_readOnly_bind (readOnly_ensure _ _) (answers_true _) ?_
        fun _ _ _ _ => mirrorAnswer_error
      intro _ w₂ _ hr₂ _
      rw [I32.succ_eq_of_succ? hsucc]
      simp only [onlyIf, if_pos hcase]
      exact keepsF_mirror (howes.rely hr₂)
  · intro w' x hr hinv _
    exact ⟨mirror_guar_same hinv rfl rfl, fun _ _ _ => mirrorAnswer_error⟩

/-- The transaction of a create brings the mirror along. -/
theorem keepsF_createCase {i : Nat} {w : World Store} {ctx : RequestCtx} {td : TypeDef}
    {id actorId kind : String} {data : Json} {sp : Option String} {now : Timestamp}
    {resp : Response} (hcase : td.typeId = "case") (h : w.Fresh i) :
    mirrorContract.KeepsF i (MirrorAnswer i) (do
      execute (createTx td "case" id actorId data sp now)
      recordEvent ctx actorId (some id) kind data
      pure resp) w := by
  refine keepsF_execute_bind ?_ ?_
  · intro w' u t hr hinv hq
    have hfresh := h.rely hr.2
    obtain ⟨ents, rows, e, cases, -, hrows, -, -, -, -, hcases, -, -, -, ht⟩ := createTx_ok hq
    rw [if_pos hcase] at hcases
    have hfree : w'.now.entityData.find? id = none :=
      Table.has_eq_false.mp (Table.insert_eq_some hrows).1
    have hfind : ∀ x, t.entityData.find? x =
        if id = x then some { entityId := id, typeId := "case", data := data, scopeParentId := sp,
                              updatedAt := now }
        else w'.now.entityData.find? x := by
      intro x
      rw [ht]
      exact Table.find?_insert hrows x
    have hmirror : ∀ x, t.cases.find? x =
        if id = x then some (caseMirror id data 1) else w'.now.cases.find? x := by
      intro x
      rw [ht, hcases]
      exact Table.find?_upsert _ _ _
    have hnew : ∀ d, t.entityData.find? d.entityId = some d → id = d.entityId → t.InSync d := by
      intro d hd hid
      unfold Store.InSync
      rw [hmirror, if_pos hid]
      rw [hfind, if_pos hid, Option.some.injEq] at hd
      rw [← hd]
    refine ⟨mirror_guar hinv ?_ ?_, keepsF_settled ?_⟩
    · intro x d hd
      have hid : id ≠ x := by
        intro hc
        rw [← hc, hfree] at hd
        simp at hd
      rw [hfind, if_neg hid]
      exact ⟨d, hd, Or.inl ⟨rfl, rfl⟩⟩
    · intro _ d hmem _
      have hd : t.entityData.find? d.entityId = some d := Table.find?_eq_some.mpr ⟨hmem, rfl⟩
      by_cases hid : id = d.entityId
      · exact Or.inl (hnew d hd hid)
      · refine Or.inr (Or.inl ⟨?_, ?_⟩)
        · rw [hfind, if_neg hid] at hd
          exact Table.mem_of_find? hd
        · intro hsync
          unfold Store.InSync at hsync ⊢
          rw [hmirror, if_neg hid]
          exact hsync
    · intro c hc hwho d hstored
      obtain rfl := hfresh.commit c hc hwho
      have hd : t.entityData.find? d.entityId = some d := hstored.1
      refine ⟨⟨i, w'.now, t⟩, hc, rfl, ?_⟩
      by_cases hid : id = d.entityId
      · exact hnew d hd hid
      · rw [hfind, if_neg hid] at hd
        exact absurd hd hstored.2
  · intro w' x hr hinv _
    exact ⟨mirror_guar_same hinv rfl rfl, fun _ _ _ => mirrorAnswer_error⟩

theorem CaseWrite.keeps (st : AppState) (req : CaseWrite) {i : Nat} {w : World Store}
    (h : w.Fresh i) : mirrorContract.KeepsF i (MirrorAnswer i) (req.handle st) w := by
  cases req with
  | create ctx env caller headers body =>
      refine keepsF_collCreate (fun _ _ _ _ => mirrorAnswer_error) ?_
      intro td payload resp w' htd _ hr _
      exact keepsF_createCase (TypeDefCache.get_typeId htd) (h.rely hr.2)
  | update v ctx env caller id headers body =>
      refine keepsF_itemUpdate (fun _ _ _ _ => mirrorAnswer_error) ?_
      intro td w₁ row payload expected w₂ htd hr₁ _ _ _ hr₂ _
      exact keepsF_updateCase (TypeDefCache.get_typeId htd) ((h.rely hr₁.2).rely hr₂.2)

/--
**When all requests have been answered with success, every case has its mirror,
provided no mirror was ever replaced by an older one.**
-/
theorem synced_when_quiet (st : AppState) (reqs : Nat → CaseWrite) (s : Store) (hs : s.Synced)
    (p : Pool Store (Except AppError Response))
    (hrun : Pool.Run (fun n => ((reqs n).handle st).run) (fun _ _ => True) (Pool.start s) p)
    (hquiet : p.Quiet) (hok : ∀ i r, p.Finished i r → ∃ resp, r = .ok resp)
    (hlow : NoLowering p.world.log) : p.world.now.Synced := by
  have hpool : Contract.PoolOk mirrorContract (fun i => MirrorAnswer i) p := by
    refine Contract.run_ok ?_ ?_ hrun
    · intro _ d hd hcase
      exact Or.inl (hs d hd hcase)
    · intro q hq _
      exact CaseWrite.keeps st _ hq.fresh
  intro d hd hcase
  rcases hpool.inv hlow d hd hcase with hsync | ⟨i, ⟨c, hc, hwho, hstored⟩, hnone⟩
  · exact hsync
  · -- The debtor was answered with success, so it has settled.
    exfalso
    have hlt : i < p.threads.length := hwho ▸ hpool.started c hc
    obtain ⟨r, hr⟩ := hquiet _ (List.getElem_mem hlt)
    have hfin : p.Finished i r := by
      unfold Pool.Finished
      rw [List.getElem?_eq_getElem hlt, hr]
    obtain ⟨resp, rfl⟩ := hok i r hfin
    obtain ⟨c', hc', hwho', hsync⟩ := hpool.finished hfin resp rfl c hc hwho d hstored
    exact hnone c' hc' hwho' hsync

/-- The first request retitles version one, every other one version two. -/
def retitling : Nat → CaseWrite
  | 0 => .update .patch plainCtx {} alice "CAS_1"
      { contentType := some (some "application/json"), ifMatch := some (some "W/\"1\"") }
      (oneField "title" "Crash on start")
  | _ + 1 => .update .patch plainCtx {} alice "CAS_1"
      { contentType := some (some "application/json"), ifMatch := some (some "W/\"2\"") }
      (oneField "title" "Crash on exit")

/-- The first stores its data; the second runs; the first writes its mirror. -/
def lateMirror : List Pool.Move :=
  [.spawn, .spawn] ++ List.replicate 5 (.advance 0) ++ List.replicate 7 (.advance 1) ++
    List.replicate 2 (.advance 0)

/-- One request after the other. -/
def inOrder : List Pool.Move :=
  [.spawn, .spawn] ++ List.replicate 7 (.advance 0) ++ List.replicate 7 (.advance 1)

/-- A pool whose two requests were both answered with success. -/
theorem answered_of_threads {p : Pool Store (Except AppError Response)} {a b : Response}
    (h : p.threads = [.done (.ok a), .done (.ok b)]) :
    p.Quiet ∧ ∀ i r, p.Finished i r → ∃ resp, r = .ok resp := by
  refine ⟨?_, ?_⟩
  · intro c hc
    rw [h] at hc
    rcases List.mem_cons.mp hc with rfl | hc
    · exact ⟨_, rfl⟩
    · exact ⟨_, List.mem_singleton.mp hc⟩
  · intro i r hr
    have hmem := List.mem_of_getElem? hr
    rw [h] at hmem
    simp only [List.mem_cons, Resumption.done.injEq, List.not_mem_nil, or_false] at hmem
    rcases hmem with rfl | rfl
    · exact ⟨a, rfl⟩
    · exact ⟨b, rfl⟩

/-- Both updates succeed and the mirror is left at the older one. -/
theorem late_mirror_is_stale :
    caseStore.Synced ∧
      ∃ p, Pool.Run (fun n => ((retitling n).handle caseState).run) (fun _ _ => True)
          (Pool.start caseStore) p ∧
        p.Quiet ∧ (∀ i r, p.Finished i r → ∃ resp, r = .ok resp) ∧ ¬ p.world.now.Synced := by
  refine ⟨by decide, _, Pool.play_run _ lateMirror _, ?_⟩
  obtain ⟨hquiet, hok⟩ := answered_of_threads
    (p := Pool.play (fun n => ((retitling n).handle caseState).run) (Pool.start caseStore)
      lateMirror) rfl
  exact ⟨hquiet, hok, by decide⟩

/-- In order, both succeed and the mirror follows. -/
theorem mirror_in_order :
    ∃ p, Pool.Run (fun n => ((retitling n).handle caseState).run) (fun _ _ => True)
        (Pool.start caseStore) p ∧ p.world.now.Synced := by
  refine ⟨_, Pool.play_run _ inOrder _, ?_⟩
  obtain ⟨hquiet, hok⟩ := answered_of_threads
    (p := Pool.play (fun n => ((retitling n).handle caseState).run) (Pool.start caseStore)
      inOrder) rfl
  exact synced_when_quiet caseState retitling caseStore (by decide) _ (Pool.play_run _ inOrder _)
    hquiet hok (by decide)

end Numu
