/-
What each statement and each gate does.

One lemma per statement of `Numu/Api/Store.lean`, which says everything it can do
when it succeeds, and one per gate of `Numu/Api/Gates.lean`, which says what it
let through.  Everything further on is derived from these, so a proof about a
handler never opens a statement or a gate again.

The last section inverts a whole update: what a PUT or PATCH that was answered
had been checked for, and which two writes it made.
-/
import Numu.Lib.Pool
import Numu.Api.Auth
import Numu.Api.Members

namespace Numu

open Fallible Handler

/-! ### Running a statement -/

section Run

variable {α : Type} {q : Stmt α} {s s' : Store} {a : α} {e : AppError}

theorem exec_execute_ok : exec (execute q) s = (.ok a, s') ↔ q s = .ok (a, s') := by
  unfold execute
  rw [exec_attempt_ok]
  cases q s <;> simp [Except.mapError]

/-- A failed statement undoes itself. -/
theorem exec_execute_error :
    exec (execute q) s = (.error e, s') ↔
      (∃ x, q s = .error x ∧ e = AppError.ofSqlx x) ∧ s' = s := by
  unfold execute
  rw [exec_attempt_error]
  cases q s <;> simp [Except.mapError, eq_comm]

/-- An event that is recorded quietly is recorded or not, and nothing else happens. -/
theorem insertEvent_quiet (ev : EventRow) (s : Store) :
    ∃ evs, (match insertEvent ev s with
      | .ok r => .ok r
      | .error _ => .ok ((), s) : Except AppError (Unit × Store)) =
        .ok ((), { s with events := evs }) := by
  unfold insertEvent
  by_cases h : s.refOk ev.entityId = true
  · exact ⟨_, by rw [if_pos h]⟩
  · exact ⟨s.events, by rw [if_neg h]⟩

/-- Recording an event always succeeds and touches nothing but the events. -/
theorem exec_recordEvent (ctx : RequestCtx) (actorId : String) (entityId : Option String)
    (kind : String) (payload : Json) (s : Store) :
    ∃ evs, exec (recordEvent ctx actorId entityId kind payload) s =
      (.ok (), { s with events := evs }) := by
  obtain ⟨evs, hevs⟩ := insertEvent_quiet
    { entityId := entityId, actorId := actorId, kind := kind, payload := payload,
      requestId := ctx.requestId, traceId := ctx.traceId } s
  exact ⟨evs, exec_attempt_ok.mpr hevs⟩

/-- The end of most handlers: one write, an event, the answer.  Only the write can fail. -/
theorem exec_writeTail {q : Stmt Unit} {ctx : RequestCtx} {actorId : String}
    {entityId : Option String} {kind : String} {payload : Json} {resp : Response}
    {r : Except AppError Response}
    (h : exec (do execute q; recordEvent ctx actorId entityId kind payload; pure resp) s =
      (r, s')) :
    ((∃ e, r = .error e) ∧ s' = s) ∨
      ∃ t evs, q s = .ok ((), t) ∧ r = .ok resp ∧ s' = { t with events := evs } := by
  rw [exec_bind] at h
  rcases hq : exec (execute q) s with ⟨out, t⟩
  rw [hq] at h
  cases out with
  | error e =>
      simp only [Prod.mk.injEq] at h
      exact Or.inl ⟨⟨e, h.1.symm⟩, h.2.symm.trans (exec_execute_error.mp hq).2⟩
  | ok u =>
      obtain ⟨evs, hevs⟩ := exec_recordEvent ctx actorId entityId kind payload t
      simp only [exec_bind, hevs, exec_pure, Prod.mk.injEq] at h
      exact Or.inr ⟨t, evs, exec_execute_ok.mp hq, h.1.symm, h.2.symm⟩

/-- The same end, of a write whose outcome is known. -/
theorem exec_writeTail_ok {q : Stmt Unit} {t : Store} (hq : q s = .ok ((), t)) (ctx : RequestCtx)
    (actorId : String) (entityId : Option String) (kind : String) (payload : Json)
    (resp : Response) :
    ∃ evs, exec (do execute q; recordEvent ctx actorId entityId kind payload; pure resp) s =
      (.ok resp, { t with events := evs }) := by
  obtain ⟨evs, hevs⟩ := exec_recordEvent ctx actorId entityId kind payload t
  exact ⟨evs, by simp only [exec_bind, exec_execute_ok.mpr hq, hevs, exec_pure]⟩

theorem exec_writeTail_error {q : Stmt Unit} {x : SqlxError} (hq : q s = .error x)
    (ctx : RequestCtx) (actorId : String) (entityId : Option String) (kind : String)
    (payload : Json) (resp : Response) :
    exec (do execute q; recordEvent ctx actorId entityId kind payload; pure resp) s =
      (.error (AppError.ofSqlx x), s) := by
  have hfail := exec_execute_error.mpr ⟨⟨x, hq, rfl⟩, rfl⟩
  rw [exec_bind, hfail]

/-- A statement writes what it writes when it succeeds, and nothing otherwise. -/
theorem writes_execute {R : Store → Store → Prop} (hrefl : ∀ s, R s s)
    (hq : ∀ s a t, q s = .ok (a, t) → R s t) : Writes R (execute q) := by
  refine writes_attempt fun s => ?_
  cases h : q s with
  | error e =>
      simp only [settle, h, Except.mapError]
      exact hrefl s
  | ok r =>
      simp only [settle, h, Except.mapError]
      exact hq s r.1 r.2 h

theorem writes_executeQuietly {R : Store → Store → Prop} {q : Stmt Unit} (hrefl : ∀ s, R s s)
    (hq : ∀ s t, q s = .ok ((), t) → R s t) : Writes R (executeQuietly q) := by
  refine writes_attempt fun s => ?_
  cases h : q s with
  | error e =>
      simp only [settle, h]
      exact hrefl s
  | ok r =>
      simp only [settle, h]
      exact hq s r.2 h

theorem writes_recordEvent {R : Store → Store → Prop}
    (hR : ∀ s evs, R s { s with events := evs }) (ctx : RequestCtx) (actorId : String)
    (entityId : Option String) (kind : String) (payload : Json) :
    Writes R (recordEvent ctx actorId entityId kind payload) := by
  refine writes_executeQuietly (fun s => hR s s.events) ?_
  intro s t h
  unfold insertEvent at h
  split at h
  · simp only [Except.ok.injEq, Prod.mk.injEq, true_and] at h
    rw [← h]
    exact hR s _
  · simp at h

end Run

/-! ### Statements -/

section Statements

variable {s s' : Store} {id typeId : String}

theorem Store.row?_eq_some {d : EntityData} :
    s.row? id typeId = some d ↔ s.entityData.find? id = some d ∧ d.typeId = typeId := by
  unfold Store.row?
  rw [Option.filter_eq_some_iff]
  simp

theorem Store.row?_entityId {d : EntityData} (h : s.row? id typeId = some d) : d.entityId = id :=
  Table.find?_key (Store.row?_eq_some.mp h).1

/-- The guarded update: no row at that version, or the row replaced and its version raised. -/
theorem updateEntityData_ok {data : Json} {sp : Option String} {expected : I32} {now : Timestamp}
    {n : Nat} (h : updateEntityData data sp id typeId expected now s = .ok (n, s')) :
    (n = 0 ∧ s' = s ∧ ∀ row, s.row? id typeId = some row → row.version ≠ expected) ∨
      (n = 1 ∧ ∃ row v, s.row? id typeId = some row ∧ row.version = expected ∧
        expected.succ? = some v ∧ s.refOk sp = true ∧
        s' = { s with
          entityData := s.entityData.upsert
            { row with data := data, scopeParentId := sp, version := v, updatedAt := now } }) := by
  unfold updateEntityData at h
  cases hrow : s.row? id typeId with
  | none =>
      simp only [hrow, Except.ok.injEq, Prod.mk.injEq] at h
      exact Or.inl ⟨h.1.symm, h.2.symm, by simp⟩
  | some row =>
      simp only [hrow] at h
      split at h
      · rename_i hver
        cases hsucc : row.version.succ? with
        | none => simp [hsucc] at h
        | some v =>
            simp only [hsucc] at h
            split at h
            · rename_i href
              simp only [Except.ok.injEq, Prod.mk.injEq] at h
              exact Or.inr ⟨h.1.symm, row, v, rfl, hver, hver ▸ hsucc, href, h.2.symm⟩
            · simp at h
      · rename_i hver
        simp only [Except.ok.injEq, Prod.mk.injEq] at h
        exact Or.inl ⟨h.1.symm, h.2.symm, by simpa using hver⟩

/-- The guarded delete: no row at that version, or the entity gone with its cascades. -/
theorem deleteEntity_ok {expected : I32} {n : Nat}
    (h : deleteEntity id typeId expected s = .ok (n, s')) :
    (n = 0 ∧ s' = s) ∨
      (n = 1 ∧ (∃ row, s.row? id typeId = some row ∧ row.version = expected) ∧
        s' = cascadeDelete s id) := by
  unfold deleteEntity at h
  cases hrow : s.row? id typeId with
  | none =>
      simp only [hrow, Except.ok.injEq, Prod.mk.injEq] at h
      exact Or.inl ⟨h.1.symm, h.2.symm⟩
  | some row =>
      simp only [hrow] at h
      split at h
      · rename_i hcond
        simp only [Bool.and_eq_true, decide_eq_true_eq] at hcond
        simp only [Except.ok.injEq, Prod.mk.injEq] at h
        exact Or.inr ⟨h.1.symm, ⟨row, rfl, hcond.1⟩, h.2.symm⟩
      · simp only [Except.ok.injEq, Prod.mk.injEq] at h
        exact Or.inl ⟨h.1.symm, h.2.symm⟩

/-- A mirror that was accepted replaced its row and nothing else. -/
theorem upsertCase_ok {c : CaseRow} {u : Unit} (h : upsertCase c s = .ok (u, s')) :
    caseRefsOk s c = true ∧ s' = { s with cases := s.cases.upsert c } := by
  unfold upsertCase at h
  split at h
  · simp at h
  · split at h
    · rename_i hrefs
      simp only [Except.ok.injEq, Prod.mk.injEq] at h
      exact ⟨hrefs, h.2.symm⟩
    · simp at h

/-- A grant that was accepted wrote one row. -/
theorem upsertMembership_ok {o m role : String} {contextRole : Option String} {u : Unit}
    (h : upsertMembership o m role contextRole s = .ok (u, s')) :
    ∃ e : MemberEdge, e.objectId = o ∧ e.memberId = m ∧ e.role = role ∧
      memberEdgeOk s e = true ∧ s' = { s with memberships := s.memberships.upsert e } := by
  simp only [upsertMembership] at h
  split at h
  · rename_i hok
    simp only [Except.ok.injEq, Prod.mk.injEq] at h
    exact ⟨_, rfl, rfl, rfl, hok, h.2.symm⟩
  · simp at h

/-- A role change that was accepted wrote the row it found, or found none. -/
theorem updateMembership_ok {o m role : String} {contextRole : Option String} {u : Unit}
    (h : updateMembership o m role contextRole s = .ok (u, s')) :
    (s.memberships.find? (o, m) = none ∧ s' = s) ∨
      ∃ e : MemberEdge, e.objectId = o ∧ e.memberId = m ∧ e.role = role ∧
        s.memberships.has e.key = true ∧ s' = { s with memberships := s.memberships.upsert e } := by
  unfold updateMembership at h
  cases hfind : s.memberships.find? (o, m) with
  | none =>
      simp only [hfind, Except.ok.injEq, Prod.mk.injEq] at h
      exact Or.inl ⟨rfl, h.2.symm⟩
  | some e =>
      simp only [hfind] at h
      split at h
      · have hkey := Table.find?_key hfind
        have hhas : s.memberships.has e.key = true := Table.has_iff.mpr
          ⟨e, Table.mem_of_find? hfind, rfl⟩
        simp only [MemberEdge.key, Prod.mk.injEq] at hkey
        simp only [Except.ok.injEq, Prod.mk.injEq] at h
        exact Or.inr ⟨{ e with role := role, contextRole := contextRole.getD e.contextRole },
          hkey.1, hkey.2, rfl, hhas, h.2.symm⟩
      · simp at h

/-- A transaction succeeds exactly when its statements do, one after the other. -/
theorem Stmt.bind_ok {α β : Type} {q : Stmt α} {f : α → Stmt β} {b : β} :
    (q >>= f) s = .ok (b, s') ↔ ∃ a t, q s = .ok (a, t) ∧ f a t = .ok (b, s') := by
  show (q s >>= fun r => f r.1 r.2) = .ok (b, s') ↔ _
  cases h : q s with
  | error e => simp [bind, Except.bind]
  | ok r =>
      obtain ⟨a, t⟩ := r
      simp [bind, Except.bind]

/-- A transaction runs its first statement, and the rest where that left off. -/
theorem Stmt.bind_eq {α β : Type} (q : Stmt α) (f : α → Stmt β) (s : Store) :
    (q >>= f) s = match q s with
      | .ok r => f r.1 r.2
      | .error e => .error e := by
  show (q s >>= fun r => f r.1 r.2) = _
  cases q s <;> rfl

theorem insertEntity_ok {e : Entity} {u : Unit} (h : insertEntity e s = .ok (u, s')) :
    ∃ t, s.entities.insert e = some t ∧ s.typeDefinitions.has e.type = true ∧
      s' = { s with entities := t } := by
  unfold insertEntity at h
  cases hins : s.entities.insert e with
  | none => simp [hins] at h
  | some t =>
      simp only [hins] at h
      split at h
      · rename_i htype
        simp only [Except.ok.injEq, Prod.mk.injEq] at h
        exact ⟨t, rfl, htype, h.2.symm⟩
      · simp at h

theorem insertEntityData_ok {d : EntityData} {u : Unit} (h : insertEntityData d s = .ok (u, s')) :
    ∃ t, s.entityData.insert d = some t ∧ s.refOk d.scopeParentId = true ∧
      s' = { s with entityData := t } := by
  unfold insertEntityData at h
  cases hins : s.entityData.insert d with
  | none => simp [hins] at h
  | some t =>
      simp only [hins] at h
      split at h
      · rename_i hrefs
        simp only [Bool.and_eq_true] at hrefs
        simp only [Except.ok.injEq, Prod.mk.injEq] at h
        exact ⟨t, rfl, hrefs.2, h.2.symm⟩
      · simp at h

/-- The transaction of a create: a new entity, its first data, its owner, and a case's mirror. -/
theorem createTx_ok {td : TypeDef} {actorId : String} {data : Json} {sp : Option String}
    {now : Timestamp} {u : Unit} (h : createTx td typeId id actorId data sp now s = .ok (u, s')) :
    ∃ ents rows, ∃ e : MemberEdge, ∃ cases,
      s.entities.insert { id := id, type := typeId, createdBy := some actorId } = some ents ∧
      s.entityData.insert { entityId := id, typeId := typeId, data := data, scopeParentId := sp,
                            updatedAt := now } = some rows ∧
      e.objectId = id ∧ e.memberId = actorId ∧ e.role = "owner" ∧
      memberEdgeOk { s with entities := ents, entityData := rows } e = true ∧
      cases = (if td.typeId = "case" then s.cases.upsert (caseMirror id data 1) else s.cases) ∧
      s.typeDefinitions.has typeId = true ∧ { s with entities := ents }.refOk sp = true ∧
      (td.typeId = "case" → caseRefsOk { s with entities := ents } (caseMirror id data 1) = true) ∧
      s' = { s with entities := ents, entityData := rows,
                    memberships := s.memberships.upsert e, cases := cases } := by
  unfold createTx at h
  obtain ⟨_, t₁, hentity, h₁⟩ := Stmt.bind_ok.mp h
  obtain ⟨_, t₂, hdata, h₂⟩ := Stmt.bind_ok.mp h₁
  obtain ⟨_, t₃, howner, h₃⟩ := Stmt.bind_ok.mp h₂
  obtain ⟨ents, hents, htype, rfl⟩ := insertEntity_ok hentity
  obtain ⟨rows, hrows, hparent, rfl⟩ := insertEntityData_ok hdata
  obtain ⟨e, ho, hm, hr, hok, rfl⟩ := upsertMembership_ok howner
  refine ⟨ents, rows, e, _, hents, hrows, ho, hm, hr, hok, rfl, htype, hparent, ?_⟩
  by_cases hcase : td.typeId = "case"
  · rw [if_pos hcase] at h₃ ⊢
    obtain ⟨hrefs, hs'⟩ := upsertCase_ok h₃
    exact ⟨fun _ => hrefs, hs'⟩
  · rw [if_neg hcase] at h₃ ⊢
    obtain ⟨-, hs'⟩ := Prod.mk.inj (Except.ok.inj h₃)
    exact ⟨fun hc => absurd hc hcase, hs'.symm⟩

end Statements

/-! ### Gates -/

section Gates

variable {s s' : Store} {caller : Caller} {td : TypeDef} {id : String}

/-- The rank the field gate works with. -/
def Store.callerRank (s : Store) (caller : Caller) (id : String) : I32 :=
  if caller.isPlatformAdmin then I32.max else (s.effectiveRank caller.actorId id).getD 0

theorem exec_rankOn (s : Store) : exec (rankOn caller id) s = (.ok (s.callerRank caller id), s) := by
  unfold rankOn Store.callerRank
  by_cases h : caller.isPlatformAdmin = true
  · rw [if_pos h, if_pos h]
    rfl
  · rw [if_neg h, if_neg h]
    rfl

theorem readOnly_rankOn : ReadOnly (rankOn caller id) :=
  readOnly_ite (readOnly_pure _) (readOnly_bind (readOnly_query _) fun _ => readOnly_pure _)

theorem readOnly_requireAction {objectId : Option String} {action : Action} :
    ReadOnly (requireAction caller td objectId action) := by
  unfold requireAction
  refine readOnly_ite (readOnly_pure _) ?_
  cases objectId with
  | none => exact readOnly_pure _
  | some x => exact readOnly_bind (readOnly_query _) fun _ => readOnly_pure _

theorem readOnly_requireWriteEach {rank : I32} {ctx : RequestCtx} (written : List String) :
    ReadOnly (requireWriteEach td rank ctx written) := by
  induction written with
  | nil => exact readOnly_pure _
  | cons field rest ih =>
      rw [requireWriteEach]
      cases td.field field with
      | none => exact ih
      | some f =>
          exact readOnly_bind (readOnly_query _) fun _ =>
            readOnly_bind (readOnly_ensure _ _) fun _ => ih

theorem readOnly_requireWrite {written : List String} {ctx : RequestCtx} :
    ReadOnly (requireWrite caller td id written ctx) :=
  readOnly_bind readOnly_rankOn fun _ =>
    readOnly_ite (readOnly_pure _) (readOnly_requireWriteEach written)

theorem readOnly_dropUnreadable {rank : I32} (fields : List FieldDef) :
    ∀ m, ReadOnly (dropUnreadable td rank fields m) := by
  induction fields with
  | nil => intro m; exact readOnly_pure _
  | cons f rest ih => intro m; exact readOnly_bind (readOnly_query _) fun _ => ih _

theorem readOnly_filterReadable {data : Json} : ReadOnly (filterReadable caller td id data) := by
  refine readOnly_bind readOnly_rankOn fun rank => readOnly_ite (readOnly_pure _) ?_
  cases data with
  | obj m => exact readOnly_bind (readOnly_dropUnreadable _ _) fun _ => readOnly_pure _
  | null => exact readOnly_pure _
  | bool b => exact readOnly_pure _
  | num n => exact readOnly_pure _
  | str t => exact readOnly_pure _
  | arr items => exact readOnly_pure _

/-- Every field the loop of the write gate let through is at or above its floor. -/
theorem requireWriteEach_ok {rank : I32} {ctx : RequestCtx} {u : Unit} (written : List String)
    (h : exec (requireWriteEach td rank ctx written) s = (.ok u, s')) :
    ∀ k ∈ written, ∀ f, td.field k = some f →
      (s.fieldFloors td.typeId k f.permClass).2 ≤ rank := by
  induction written with
  | nil => simp
  | cons field rest ih =>
      intro k hk f hf
      rw [requireWriteEach] at h
      cases hfield : td.field field with
      | none =>
          rw [hfield] at h
          rcases List.mem_cons.mp hk with rfl | hk
          · rw [hfield] at hf
            simp at hf
          · exact ih h k hk f hf
      | some g =>
          rw [hfield] at h
          obtain ⟨floors, t, hquery, h⟩ := exec_bind_ok.mp h
          obtain ⟨v, t', hensure, hloop⟩ := exec_bind_ok.mp h
          simp only [exec_query, Prod.mk.injEq, Except.ok.injEq] at hquery
          obtain ⟨rfl, rfl⟩ := hquery
          obtain ⟨hfloor, rfl⟩ := exec_ensure_ok.mp hensure
          rcases List.mem_cons.mp hk with rfl | hk
          · obtain rfl : g = f := Option.some.inj (hfield.symm.trans hf)
            simpa using hfloor
          · exact ih hloop k hk f hf

/-- The write gate let exactly the written keys through, each at or above its floor. -/
theorem requireWrite_ok {written : List String} {ctx : RequestCtx} {u : Unit}
    (h : exec (requireWrite caller td id written ctx) s = (.ok u, s')) :
    ∀ k ∈ written, ∀ f, td.field k = some f →
      (s.fieldFloors td.typeId k f.permClass).2 ≤ s.callerRank caller id := by
  unfold requireWrite at h
  obtain ⟨rank, t, hrank, h⟩ := exec_bind_ok.mp h
  rw [exec_rankOn] at hrank
  simp only [Prod.mk.injEq, Except.ok.injEq] at hrank
  obtain ⟨rfl, rfl⟩ := hrank
  split at h
  · rename_i hmax
    intro k _ f _
    rw [hmax]
    exact I32.le_max _
  · exact requireWriteEach_ok written h

/-- What the loop of the read filter leaves: every field but the unreadable ones. -/
theorem dropUnreadable_ok {rank : I32} (fields : List FieldDef) :
    ∀ (m kept : JsonMap), exec (dropUnreadable td rank fields m) s = (.ok kept, s') →
      ∀ k, JsonMap.get? kept k =
        if ∃ f ∈ fields, f.field = k ∧ rank < (s.fieldFloors td.typeId f.field f.permClass).1
        then none else JsonMap.get? m k := by
  induction fields with
  | nil =>
      intro m kept h k
      simp only [dropUnreadable, exec_pure, Prod.mk.injEq, Except.ok.injEq] at h
      simp [h.1]
  | cons g rest ih =>
      intro m kept h k
      rw [dropUnreadable] at h
      obtain ⟨floors, t, hquery, h⟩ := exec_bind_ok.mp h
      simp only [exec_query, Prod.mk.injEq, Except.ok.injEq] at hquery
      obtain ⟨rfl, rfl⟩ := hquery
      rw [ih _ _ h k]
      by_cases hrest : ∃ f ∈ rest, f.field = k ∧
          rank < (s.fieldFloors td.typeId f.field f.permClass).1
      · obtain ⟨f, hf, hk, hlt⟩ := hrest
        rw [if_pos ⟨f, hf, hk, hlt⟩, if_pos ⟨f, List.mem_cons_of_mem _ hf, hk, hlt⟩]
      · rw [if_neg hrest]
        by_cases hg : rank < (s.fieldFloors td.typeId g.field g.permClass).1
        · rw [if_pos hg, JsonMap.get?_remove]
          by_cases hk : g.field = k
          · rw [if_pos hk, if_pos ⟨g, by simp, hk, hg⟩]
          · rw [if_neg hk, if_neg]
            intro hc
            obtain ⟨f, hf, hfk, hlt⟩ := hc
            rcases List.mem_cons.mp hf with rfl | hf
            · exact hk hfk
            · exact hrest ⟨f, hf, hfk, hlt⟩
        · rw [if_neg hg, if_neg]
          intro hc
          obtain ⟨f, hf, hfk, hlt⟩ := hc
          rcases List.mem_cons.mp hf with rfl | hf
          · exact hg hlt
          · exact hrest ⟨f, hf, hfk, hlt⟩

/-- The read filter leaves no field above the caller's rank. -/
theorem filterReadable_ok {data shown : Json}
    (h : exec (filterReadable caller td id data) s = (.ok shown, s')) :
    ∀ f ∈ td.fields, s.callerRank caller id < (s.fieldFloors td.typeId f.field f.permClass).1 →
      shown.get? f.field = none := by
  intro f hf hlt
  unfold filterReadable at h
  obtain ⟨rank, t, hrank, h⟩ := exec_bind_ok.mp h
  rw [exec_rankOn] at hrank
  simp only [Prod.mk.injEq, Except.ok.injEq] at hrank
  obtain ⟨rfl, rfl⟩ := hrank
  split at h
  · rename_i hmax
    rw [hmax] at hlt
    exact absurd (I32.le_max _) (not_le.mpr hlt)
  · split at h
    · obtain ⟨kept, t', hkept, h⟩ := exec_bind_ok.mp h
      simp only [exec_pure, Prod.mk.injEq, Except.ok.injEq] at h
      rw [← h.1]
      show JsonMap.get? kept f.field = none
      rw [dropUnreadable_ok td.fields _ kept hkept, if_pos ⟨f, hf, rfl, hlt⟩]
    · rename_i hobj
      simp only [exec_pure, Prod.mk.injEq, Except.ok.injEq] at h
      rw [← h.1]
      -- Only an object has fields at all.
      cases data with
      | obj m => exact absurd rfl (hobj m)
      | null => rfl
      | bool b => rfl
      | num n => rfl
      | str t => rfl
      | arr items => rfl

end Gates

/-! ### An update as a whole -/

section Update

variable {v : UpdateVerb} {st : AppState} {ctx : RequestCtx} {env : Ambient} {caller : Caller}
  {typeId id : String} {headers : HeaderMap} {body : Body} {s : Store}

/-- Everything an update is checked for before its first write. -/
structure UpdateChecked (v : UpdateVerb) (st : AppState) (ctx : RequestCtx) (caller : Caller)
    (typeId id : String) (headers : HeaderMap) (body : Body) (s : Store) (td : TypeDef)
    (row : EntityData) (payload : Json) (expected : I32) : Prop where
  typed : TypeDefCache.get st.registry typeId = some td
  reached : exec (requireAction caller td (some id) .edit) s = (.ok true, s)
  found : s.row? id typeId = some row
  matched : requireIfMatch headers ctx = .ok expected
  parsed : readJson headers body v.allowMerge = .ok payload
  editable : checkInput td payload false = .ok ()
  wellFormed : validateFinal td (v.build td row.data payload) = .ok ()
  permitted : exec (requireWrite caller td id (JsonMap.keys payload.asMap) ctx) s = (.ok (), s)
  legal : exec (onlyIf (td.typeId = "case") (validateCaseChange st id
    (v.build td row.data payload) (row.data.str? "status") ctx)) s = (.ok (), s)

theorem readOnly_unmetCloseChecks (names : List String) :
    ReadOnly (unmetCloseChecks id names) := by
  induction names with
  | nil => exact readOnly_pure _
  | cons name rest ih =>
      exact readOnly_bind (readOnly_query _) fun _ => readOnly_bind ih fun _ => readOnly_pure _

theorem readOnly_validateCaseChange {data : Json} {old : Option String} :
    ReadOnly (validateCaseChange st id data old ctx) := by
  unfold validateCaseChange
  refine readOnly_bind (readOnly_check _) fun _ => ?_
  cases WorkflowCache.get st.workflows ((data.str? "workflow_id").getD "default") with
  | none => exact readOnly_pure _
  | some wf =>
      exact readOnly_ite
        (readOnly_bind (readOnly_unmetCloseChecks _) fun _ => readOnly_ensure _ _)
        (readOnly_pure _)

theorem readOnly_updateChecks {td : TypeDef} {existing : Json} :
    ReadOnly (updateChecks v st ctx caller td id headers body existing) := by
  unfold updateChecks
  refine readOnly_bind (readOnly_check _) fun _ => readOnly_bind (readOnly_check _) fun _ =>
    readOnly_bind (readOnly_check _) fun _ => readOnly_bind (readOnly_check _) fun _ =>
    readOnly_bind readOnly_requireWrite fun _ =>
    readOnly_bind (readOnly_onlyIf readOnly_validateCaseChange) fun _ => readOnly_pure _

/-- An update that passed its checks is its writes. -/
theorem UpdateChecked.exec_eq {td : TypeDef} {row : EntityData} {payload : Json} {expected : I32}
    (h : UpdateChecked v st ctx caller typeId id headers body s td row payload expected) :
    exec (itemUpdate v st ctx env caller typeId id headers body) s =
      exec (updateWrites v ctx env caller td typeId id (v.build td row.data payload) expected) s := by
  simp only [itemUpdate, updateChecks, resolve, exec_bind, h.typed, getOr, exec_pure, h.reached,
    ensure, if_true, exec_query, h.found, exec_check, h.matched, h.parsed, h.editable,
    h.wellFormed, h.permitted, h.legal]

/-- What the checks of an update found, in their order. -/
theorem updateChecks_ok {td : TypeDef} {existing : Json} {checked : Json × I32}
    (h : exec (updateChecks v st ctx caller td id headers body existing) s = (.ok checked, s)) :
    ∃ expected payload, requireIfMatch headers ctx = .ok expected ∧
      readJson headers body v.allowMerge = .ok payload ∧
      checkInput td payload false = .ok () ∧
      validateFinal td (v.build td existing payload) = .ok () ∧
      exec (requireWrite caller td id (JsonMap.keys payload.asMap) ctx) s = (.ok (), s) ∧
      exec (onlyIf (td.typeId = "case") (validateCaseChange st id
        (v.build td existing payload) (existing.str? "status") ctx)) s = (.ok (), s) ∧
      checked = (v.build td existing payload, expected) := by
  unfold updateChecks at h
  obtain ⟨expected, t, hmatched, h⟩ := exec_bind_ok.mp h
  simp only [exec_check, Prod.mk.injEq] at hmatched
  obtain ⟨hmatched, rfl⟩ := hmatched
  obtain ⟨payload, t, hparsed, h⟩ := exec_bind_ok.mp h
  simp only [exec_check, Prod.mk.injEq] at hparsed
  obtain ⟨hparsed, rfl⟩ := hparsed
  obtain ⟨_, t, hinput, h⟩ := exec_bind_ok.mp h
  simp only [exec_check, Prod.mk.injEq] at hinput
  obtain ⟨hinput, rfl⟩ := hinput
  obtain ⟨_, t, hfinal, h⟩ := exec_bind_ok.mp h
  simp only [exec_check, Prod.mk.injEq] at hfinal
  obtain ⟨hfinal, rfl⟩ := hfinal
  obtain ⟨_, t, hwrite, h⟩ := exec_bind_ok.mp h
  obtain rfl := exec_snd_of_readOnly readOnly_requireWrite hwrite
  obtain ⟨_, t', hlegal, h⟩ := exec_bind_ok.mp h
  obtain rfl := exec_snd_of_readOnly (readOnly_onlyIf readOnly_validateCaseChange) hlegal
  simp only [exec_pure, Prod.mk.injEq, Except.ok.injEq, and_true] at h
  exact ⟨expected, payload, hmatched, hparsed, hinput, hfinal, hwrite, hlegal, h.symm⟩

/-- An update fails its checks and changes nothing, or passes them all. -/
theorem itemUpdate_cases :
    (∃ e, exec (itemUpdate v st ctx env caller typeId id headers body) s = (.error e, s)) ∨
      ∃ td row payload expected,
        UpdateChecked v st ctx caller typeId id headers body s td row payload expected := by
  unfold itemUpdate resolve
  rcases exec_readOnly_bind (readOnly_getOr _ _) s with hfail | ⟨td, htd, hrest⟩
  · exact Or.inl hfail
  rw [hrest]
  rcases exec_readOnly_bind readOnly_requireAction s with hfail | ⟨ok, hok, hrest⟩
  · exact Or.inl hfail
  rw [hrest]
  rcases exec_readOnly_bind (readOnly_ensure _ _) s with hfail | ⟨_, hensure, hrest⟩
  · exact Or.inl hfail
  rw [hrest]
  rcases exec_readOnly_bind (readOnly_query _) s with hfail | ⟨found, hfound, hrest⟩
  · exact Or.inl hfail
  rw [hrest]
  rcases exec_readOnly_bind (readOnly_getOr _ _) s with hfail | ⟨row, hrow, hrest⟩
  · exact Or.inl hfail
  rw [hrest]
  rcases exec_readOnly_bind readOnly_updateChecks s with hfail | ⟨checked, hchecked, hrest⟩
  · exact Or.inl hfail
  refine Or.inr ?_
  obtain ⟨htd, -⟩ := exec_getOr_ok.mp htd
  obtain ⟨rfl, -⟩ := exec_ensure_ok.mp hensure
  obtain ⟨rfl, -⟩ := exec_getOr_ok.mp hrow
  simp only [exec_query, Prod.mk.injEq, Except.ok.injEq, and_true] at hfound
  obtain ⟨expected, payload, hmatched, hparsed, heditable, hfinal, hpermitted, hlegal, -⟩ :=
    updateChecks_ok hchecked
  exact ⟨td, row, payload, expected, htd, hok, hfound, hmatched, hparsed, heditable, hfinal,
    hpermitted, hlegal⟩

/-- The row an update stores. -/
def updatedRow (td : TypeDef) (row : EntityData) (data : Json) (version : I32) (now : Timestamp) :
    EntityData :=
  { row with data := data, scopeParentId := scopeParent td data, version := version, updatedAt := now }

/-- The writes of an update that was answered: the guarded row, the mirror, an event. -/
theorem updateWrites_ok {td : TypeDef} {data : Json} {expected : I32} {resp : Response}
    {s' : Store}
    (h : exec (updateWrites v ctx env caller td typeId id data expected) s = (.ok resp, s')) :
    ∃ row ver s₂ evs, s.row? id typeId = some row ∧ row.version = expected ∧
      expected.succ? = some ver ∧ s.refOk (scopeParent td data) = true ∧
      exec (onlyIf (td.typeId = "case") (execute (upsertCaseMirror id data ver)))
        { s with entityData := s.entityData.upsert (updatedRow td row data ver env.now) } =
          (.ok (), s₂) ∧
      s' = { s₂ with events := evs } ∧
      resp = { status := 200, etag := some (etag ver),
               body := some (entityJson id typeId data ver) } := by
  unfold updateWrites at h
  obtain ⟨affected, s₁, hupdate, hrest⟩ := exec_bind_ok.mp h
  obtain ⟨_, t, haffected, hrest'⟩ := exec_bind_ok.mp hrest
  obtain ⟨hne, rfl⟩ := exec_ensure_ok.mp haffected
  obtain ⟨_, s₂, hmirror, htail⟩ := exec_bind_ok.mp hrest'
  obtain ⟨_, s₃, hevent, hanswer⟩ := exec_bind_ok.mp htail
  obtain ⟨evs, hevs⟩ := exec_recordEvent ctx caller.actorId (some id)
    (typeId ++ v.eventSuffix) data s₂
  rw [hevs] at hevent
  simp only [Prod.mk.injEq, true_and] at hevent
  simp only [exec_pure, Prod.mk.injEq, Except.ok.injEq] at hanswer
  rcases updateEntityData_ok (exec_execute_ok.mp hupdate) with
    ⟨rfl, -⟩ | ⟨-, row, ver, hrow, hver, hsucc, href, rfl⟩
  · simp at hne
  · have hsucc' : expected.succ = ver := I32.succ_eq_of_succ? hsucc
    rw [hsucc'] at hmirror hanswer
    exact ⟨row, ver, s₂, evs, hrow, hver, hsucc, href, hmirror, hanswer.2.symm.trans hevent.symm,
      hanswer.1.symm⟩

end Update

/-! ### A delete as a whole -/

/-- A delete is one statement: it failed and removed nothing, or the entity went with its cascades. -/
theorem itemDelete_cases {st : AppState} {ctx : RequestCtx} {caller : Caller} {typeId id : String}
    {headers : HeaderMap} {s s' : Store} {r : Except AppError Response}
    (h : exec (itemDelete st ctx caller typeId id headers) s = (r, s')) :
    ((∃ e, r = .error e) ∧ s' = s) ∨
      ∃ resp evs, r = .ok resp ∧ s' = { cascadeDelete s id with events := evs } := by
  unfold itemDelete resolve at h
  rcases exec_readOnly_next (readOnly_getOr _ _) h with hfail | ⟨td, -, h₁⟩
  · exact Or.inl hfail
  rcases exec_readOnly_next readOnly_requireAction h₁ with hfail | ⟨ok, -, h₂⟩
  · exact Or.inl hfail
  rcases exec_readOnly_next (readOnly_ensure _ _) h₂ with hfail | ⟨_, -, h₃⟩
  · exact Or.inl hfail
  rcases exec_readOnly_next (readOnly_query _) h₃ with hfail | ⟨found, -, h₄⟩
  · exact Or.inl hfail
  rcases exec_readOnly_next (readOnly_ensure _ _) h₄ with hfail | ⟨_, -, h₅⟩
  · exact Or.inl hfail
  rcases exec_readOnly_next (readOnly_check _) h₅ with hfail | ⟨expected, -, h₆⟩
  · exact Or.inl hfail
  rw [exec_bind] at h₆
  rcases hdelete : exec (execute (deleteEntity id typeId expected)) s with ⟨out, t⟩
  rw [hdelete] at h₆
  cases out with
  | error e =>
      obtain rfl := (exec_execute_error.mp hdelete).2
      simp only [Prod.mk.injEq] at h₆
      exact Or.inl ⟨⟨e, h₆.1.symm⟩, h₆.2.symm⟩
  | ok affected =>
      rcases deleteEntity_ok (exec_execute_ok.mp hdelete) with ⟨rfl, rfl⟩ | ⟨rfl, -, rfl⟩
      · rcases exec_readOnly_next (readOnly_ensure _ _) h₆ with hfail | ⟨_, hensure, -⟩
        · exact Or.inl hfail
        · exact absurd (exec_ensure_ok.mp hensure).1 (by simp)
      · -- The row is gone, and nothing after that fails.
        obtain ⟨evs, hevs⟩ := exec_recordEvent ctx caller.actorId (some id) (typeId ++ ".deleted")
          (.obj []) (cascadeDelete s id)
        have haffected : decide ((1 : Nat) ≠ 0) = true := rfl
        simp only [exec_bind, ensure, haffected, if_true, exec_pure, hevs, Prod.mk.injEq] at h₆
        exact Or.inr ⟨_, evs, h₆.1.symm, h₆.2.symm⟩

theorem itemDelete_ok {st : AppState} {ctx : RequestCtx} {caller : Caller} {typeId id : String}
    {headers : HeaderMap} {s s' : Store} {resp : Response}
    (h : exec (itemDelete st ctx caller typeId id headers) s = (.ok resp, s')) :
    ∃ evs, s' = { cascadeDelete s id with events := evs } := by
  rcases itemDelete_cases h with ⟨⟨e, he⟩, -⟩ | ⟨_, evs, -, hs'⟩
  · simp at he
  · exact ⟨evs, hs'⟩

/-! ### A create as a whole -/

/-- Everything a create is checked for before its transaction. -/
structure CreateChecked (st : AppState) (ctx : RequestCtx) (caller : Caller) (typeId : String)
    (headers : HeaderMap) (body : Body) (s : Store) (td : TypeDef) (payload : Json) : Prop where
  typed : TypeDefCache.get st.registry typeId = some td
  parsed : readJson headers body false = .ok payload
  settable : checkInput td payload true = .ok ()
  wellFormed : validateFinal td (buildCreateData td payload) = .ok ()
  initial : validateNewCase st td (buildCreateData td payload) ctx = .ok ()
  parented : requireScopeParent td (scopeParent td (buildCreateData td payload)) ctx = .ok ()
  reached : exec (requireAction caller td (scopeParent td (buildCreateData td payload)) .create) s =
    (.ok true, s)

section Create

variable {st : AppState} {ctx : RequestCtx} {env : Ambient} {caller : Caller} {typeId : String}
  {headers : HeaderMap} {body : Body} {s s' : Store} {r : Except AppError Response}

/-- A create that passed its checks is its transaction and an event. -/
theorem CreateChecked.exec_eq {td : TypeDef} {payload : Json}
    (h : CreateChecked st ctx caller typeId headers body s td payload) :
    exec (collCreate st ctx env caller typeId headers body) s =
      exec (do
        execute (createTx td typeId (mint td env.uuid) caller.actorId (buildCreateData td payload)
          (scopeParent td (buildCreateData td payload)) env.now)
        recordEvent ctx caller.actorId (some (mint td env.uuid)) (typeId ++ ".created")
          (buildCreateData td payload)
        pure { status := 201, etag := some (etag 1),
               location := some ("/api/objects/" ++ typeId ++ "/" ++ mint td env.uuid),
               body := some (entityJson (mint td env.uuid) typeId
                 (buildCreateData td payload) 1) }) s := by
  simp only [collCreate, resolve, exec_bind, h.typed, getOr, exec_pure, exec_check, h.parsed,
    h.settable, h.wellFormed, h.initial, h.parented, h.reached, ensure, if_true]

/-- A create is one transaction: it failed and left nothing, or it passed its checks and ran under
the minted id. -/
theorem collCreate_checked
    (h : exec (collCreate st ctx env caller typeId headers body) s = (r, s')) :
    ((∃ e, r = .error e) ∧ s' = s) ∨
      ∃ td payload t evs, CreateChecked st ctx caller typeId headers body s td payload ∧
        createTx td typeId (mint td env.uuid) caller.actorId (buildCreateData td payload)
          (scopeParent td (buildCreateData td payload)) env.now s = .ok ((), t) ∧
        (∃ resp, r = .ok resp) ∧ s' = { t with events := evs } := by
  simp only [collCreate, resolve] at h
  rcases exec_readOnly_next (readOnly_getOr _ _) h with hfail | ⟨td, hresolve, h₁⟩
  · exact Or.inl hfail
  rcases exec_readOnly_next (readOnly_check _) h₁ with hfail | ⟨payload, hparsed, h₂⟩
  · exact Or.inl hfail
  rcases exec_readOnly_next (readOnly_check _) h₂ with hfail | ⟨_, hinput, h₃⟩
  · exact Or.inl hfail
  rcases exec_readOnly_next (readOnly_check _) h₃ with hfail | ⟨_, hfinal, h₄⟩
  · exact Or.inl hfail
  rcases exec_readOnly_next (readOnly_check _) h₄ with hfail | ⟨_, hcase, h₅⟩
  · exact Or.inl hfail
  rcases exec_readOnly_next (readOnly_check _) h₅ with hfail | ⟨_, hparent, h₆⟩
  · exact Or.inl hfail
  rcases exec_readOnly_next readOnly_requireAction h₆ with hfail | ⟨ok, hreached, h₇⟩
  · exact Or.inl hfail
  rcases exec_readOnly_next (readOnly_ensure _ _) h₇ with hfail | ⟨_, hensure, h₈⟩
  · exact Or.inl hfail
  rcases exec_writeTail h₈ with hfail | ⟨t, evs, htx, hanswer, hs'⟩
  · exact Or.inl hfail
  obtain ⟨rfl, -⟩ := exec_ensure_ok.mp hensure
  simp only [exec_check, Prod.mk.injEq, and_true] at hparsed hinput hfinal hcase hparent
  exact Or.inr ⟨td, payload, t, evs, ⟨(exec_getOr_ok.mp hresolve).1, hparsed, hinput, hfinal, hcase,
    hparent, hreached⟩, htx, ⟨_, hanswer⟩, hs'⟩

theorem collCreate_cases
    (h : exec (collCreate st ctx env caller typeId headers body) s = (r, s')) :
    ((∃ e, r = .error e) ∧ s' = s) ∨
      ∃ td data t evs, TypeDefCache.get st.registry typeId = some td ∧
        createTx td typeId (mint td env.uuid) caller.actorId data (scopeParent td data) env.now s =
          .ok ((), t) ∧
        (∃ resp, r = .ok resp) ∧ s' = { t with events := evs } := by
  rcases collCreate_checked h with hfail | ⟨td, payload, t, evs, hchecked, htx, hanswer, hs'⟩
  · exact Or.inl hfail
  · exact Or.inr ⟨td, _, t, evs, hchecked.typed, htx, hanswer, hs'⟩

end Create

/-! ### Handlers among others

The rules of `Numu/Lib/Pool.lean` for a statement, for the audit row, and for an
update up to its first write.
-/

section Contract

open Contract

variable {C : Contract Store} {i : Nat} {α β : Type} {w : World Store}
  {Q : Except AppError β → World Store → Prop}

theorem keepsF_execute_bind {q : Stmt α} {f : α → Handler β}
    (hok : ∀ w' a t, C.rely i w w' → C.inv w' → q w'.now = .ok (a, t) →
      C.guar i w' (w'.commit i fun _ => t) ∧ C.KeepsF i Q (f a) (w'.commit i fun _ => t))
    (herr : ∀ w' x, C.rely i w w' → C.inv w' → q w'.now = .error x →
      C.guar i w' (w'.commit i id) ∧
        ∀ w'', C.rely i (w'.commit i id) w'' → C.inv w'' → Q (.error (AppError.ofSqlx x)) w'') :
    C.KeepsF i Q (execute q >>= f) w := by
  refine keepsF_attempt_bind ?_ ?_
  · intro w' a t hr hinv hq
    refine hok w' a t hr hinv ?_
    cases h : q w'.now with
    | ok r =>
        simp only [h, Except.mapError, Except.ok.injEq] at hq
        rw [hq]
    | error x => simp [h, Except.mapError] at hq
  · intro w' e hr hinv hq
    cases h : q w'.now with
    | ok r => simp [h, Except.mapError] at hq
    | error x =>
        obtain ⟨hguar, herror⟩ := herr w' x hr hinv h
        simp only [h, Except.mapError, Except.error.injEq] at hq
        exact ⟨hguar, keepsF_throw (hq ▸ herror)⟩

theorem keepsF_recordEvent_bind {ctx : RequestCtx} {actorId : String} {entityId : Option String}
    {kind : String} {payload : Json} {f : Unit → Handler β}
    (h : ∀ w' evs, C.rely i w w' → C.inv w' →
      C.guar i w' (w'.commit i fun _ => { w'.now with events := evs }) ∧
        C.KeepsF i Q (f ()) (w'.commit i fun _ => { w'.now with events := evs })) :
    C.KeepsF i Q (recordEvent ctx actorId entityId kind payload >>= f) w := by
  refine keepsF_attempt_bind ?_ ?_
  · intro w' a t hr hinv hq
    obtain ⟨evs, hevs⟩ := insertEvent_quiet
      { entityId := entityId, actorId := actorId, kind := kind, payload := payload,
        requestId := ctx.requestId, traceId := ctx.traceId } w'.now
    obtain rfl : t = { w'.now with events := evs } :=
      congrArg Prod.snd (Except.ok.inj (hq.symm.trans hevs))
    exact h w' evs hr hinv
  · intro w' e hr hinv hq
    obtain ⟨evs, hevs⟩ := insertEvent_quiet
      { entityId := entityId, actorId := actorId, kind := kind, payload := payload,
        requestId := ctx.requestId, traceId := ctx.traceId } w'.now
    exact absurd (hq.symm.trans hevs) (by simp)

/-- What an update that passed its checks has been checked for, whatever happened to the store
while they ran. -/
structure UpdateAgreed (v : UpdateVerb) (st : AppState) (ctx : RequestCtx) (td : TypeDef)
    (headers : HeaderMap) (body : Body) (existing payload : Json) (expected : I32) : Prop where
  matched : requireIfMatch headers ctx = .ok expected
  parsed : readJson headers body v.allowMerge = .ok payload
  editable : checkInput td payload false = .ok ()
  wellFormed : validateFinal td (v.build td existing payload) = .ok ()
  legal : td.typeId = "case" → WorkflowCache.validate st.workflows
    (((v.build td existing payload).str? "workflow_id").getD "default") (existing.str? "status")
    (((v.build td existing payload).str? "status").getD "") = .ok ()

theorem mapError_ok {ε ε' γ : Type} {r : Except ε γ} {f : ε → ε'} {a : γ}
    (h : r.mapError f = .ok a) : r = .ok a := by
  cases r with
  | error e => simp [Except.mapError] at h
  | ok b => simpa [Except.mapError] using h

/-- A status change that went through is legal, however the close checks came out. -/
theorem answers_validateCaseChange {st : AppState} {ctx : RequestCtx} {id : String} {data : Json}
    {old : Option String} :
    Answers (fun _ => WorkflowCache.validate st.workflows
        ((data.str? "workflow_id").getD "default") old ((data.str? "status").getD "") = .ok ())
      (validateCaseChange st id data old ctx) := by
  unfold validateCaseChange
  refine answers_bind (answers_check _) fun _ hlegal => ?_
  have hvalid := mapError_ok hlegal
  cases WorkflowCache.get st.workflows ((data.str? "workflow_id").getD "default") with
  | none => exact answers_pure hvalid
  | some wf =>
      refine answers_ite (answers_bind (answers_true _) fun unmet _ => ?_) (answers_pure hvalid)
      exact answers_weaken (answers_ensure _ _) fun _ _ => hvalid

/-- What the checks of an update can answer, whatever happens to the store while they run. -/
theorem answers_updateChecks {v : UpdateVerb} {st : AppState} {ctx : RequestCtx} {caller : Caller}
    {td : TypeDef} {id : String} {headers : HeaderMap} {body : Body} {existing : Json} :
    Answers (fun out => ∃ payload,
        UpdateAgreed v st ctx td headers body existing payload out.2 ∧
          out.1 = v.build td existing payload)
      (updateChecks v st ctx caller td id headers body existing) := by
  refine answers_bind (answers_check _) fun expected hmatched => ?_
  refine answers_bind (answers_check _) fun payload hparsed => ?_
  refine answers_bind (answers_check _) fun _ heditable => ?_
  refine answers_bind (answers_check _) fun _ hfinal => ?_
  refine answers_bind (answers_true _) fun _ _ => ?_
  refine answers_bind (answers_onlyIf answers_validateCaseChange) fun _ hlegal => ?_
  exact answers_pure ⟨payload, ⟨hmatched, hparsed, heditable, hfinal, hlegal⟩, rfl⟩

/-- An update keeps its contract when its errors and its writes do. -/
theorem keepsF_itemUpdate {v : UpdateVerb} {st : AppState} {ctx : RequestCtx} {env : Ambient}
    {caller : Caller} {typeId id : String} {headers : HeaderMap} {body : Body}
    {Q : Except AppError Response → World Store → Prop}
    (herr : ∀ e w', C.rely i w w' → C.inv w' → Q (.error e) w')
    (hok : ∀ td w₁ row payload expected w₂, TypeDefCache.get st.registry typeId = some td →
      C.rely i w w₁ → C.inv w₁ → w₁.now.row? id typeId = some row →
      UpdateAgreed v st ctx td headers body row.data payload expected → C.rely i w₁ w₂ →
      C.inv w₂ →
      C.KeepsF i Q (updateWrites v ctx env caller td typeId id
        (v.build td row.data payload) expected) w₂) :
    C.KeepsF i Q (itemUpdate v st ctx env caller typeId id headers body) w := by
  refine keepsF_readOnly_bind (readOnly_getOr _ _) (answers_getOr _ _) ?_ herr
  intro td w₁ htd hr₁ _
  have herr₁ : ∀ e w', C.rely i w₁ w' → C.inv w' → Q (.error e) w' :=
    fun e w' hr hinv => herr e w' (C.rely_trans hr₁ hr) hinv
  refine keepsF_readOnly_bind readOnly_requireAction (answers_true _) ?_ herr₁
  intro ok w₂ _ hr₂ _
  have herr₂ : ∀ e w', C.rely i w₂ w' → C.inv w' → Q (.error e) w' :=
    fun e w' hr hinv => herr₁ e w' (C.rely_trans hr₂ hr) hinv
  refine keepsF_readOnly_bind (readOnly_ensure _ _) (answers_true _) ?_ herr₂
  intro _ w₃ _ hr₃ _
  refine keepsF_query_bind ?_
  intro w₄ hr₄ hinv₄
  have herr₄ : ∀ e w', C.rely i w₄ w' → C.inv w' → Q (.error e) w' :=
    fun e w' hr hinv => herr₂ e w' (C.rely_trans hr₃ (C.rely_trans hr₄ hr)) hinv
  refine keepsF_readOnly_bind (readOnly_getOr _ _) (answers_getOr _ _) ?_ herr₄
  intro row w₅ hrow hr₅ _
  have herr₅ : ∀ e w', C.rely i w₅ w' → C.inv w' → Q (.error e) w' :=
    fun e w' hr hinv => herr₄ e w' (C.rely_trans hr₅ hr) hinv
  refine keepsF_readOnly_bind readOnly_updateChecks answers_updateChecks ?_ herr₅
  intro out w₆ hout hr₆ hinv₆
  obtain ⟨payload, hagreed, hdata⟩ := hout
  rw [hdata]
  have hr : C.rely i w w₄ :=
    C.rely_trans hr₁ (C.rely_trans hr₂ (C.rely_trans hr₃ hr₄))
  exact hok td w₄ row payload out.2 w₆ htd hr hinv₄ hrow hagreed (C.rely_trans hr₅ hr₆) hinv₆

/-- What a create that passed its checks has been checked for, whatever happened to the store
while they ran. -/
structure CreateAgreed (st : AppState) (ctx : RequestCtx) (td : TypeDef) (headers : HeaderMap)
    (body : Body) (payload : Json) : Prop where
  parsed : readJson headers body false = .ok payload
  settable : checkInput td payload true = .ok ()
  wellFormed : validateFinal td (buildCreateData td payload) = .ok ()
  initial : validateNewCase st td (buildCreateData td payload) ctx = .ok ()
  parented : requireScopeParent td (scopeParent td (buildCreateData td payload)) ctx = .ok ()

/-- A create keeps its contract when its errors and its transaction do. -/
theorem keepsF_collCreate {st : AppState} {ctx : RequestCtx} {env : Ambient} {caller : Caller}
    {typeId : String} {headers : HeaderMap} {body : Body}
    {Q : Except AppError Response → World Store → Prop}
    (herr : ∀ e w', C.rely i w w' → C.inv w' → Q (.error e) w')
    (hok : ∀ td payload resp w', TypeDefCache.get st.registry typeId = some td →
      CreateAgreed st ctx td headers body payload → C.rely i w w' → C.inv w' →
      C.KeepsF i Q (do
        execute (createTx td typeId (mint td env.uuid) caller.actorId (buildCreateData td payload)
          (scopeParent td (buildCreateData td payload)) env.now)
        recordEvent ctx caller.actorId (some (mint td env.uuid)) (typeId ++ ".created")
          (buildCreateData td payload)
        pure resp) w') :
    C.KeepsF i Q (collCreate st ctx env caller typeId headers body) w := by
  simp only [collCreate]
  refine keepsF_readOnly_bind (readOnly_getOr _ _) (answers_getOr _ _) ?_ herr
  intro td w₁ htd hr₁ _
  have hpass : ∀ {γ : Type} (r : Except AppError γ) (f : γ → Handler Response) (w₂ : World Store),
      C.rely i w w₂ →
      (∀ a w', r = .ok a → C.rely i w w' → C.inv w' → C.KeepsF i Q (f a) w') →
      C.KeepsF i Q (check r >>= f) w₂ := by
    intro γ r f w₂ hr hf
    refine keepsF_readOnly_bind (readOnly_check r) (answers_check _) ?_ ?_
    · intro a w' ha hr' hinv
      exact hf a w' ha (C.rely_trans hr hr') hinv
    · intro e w' hr' hinv
      exact herr e w' (C.rely_trans hr hr') hinv
  refine hpass _ _ _ hr₁ fun payload w₂ hparsed hr₂ _ => ?_
  refine hpass _ _ _ hr₂ fun _ w₃ hsettable hr₃ _ => ?_
  refine hpass _ _ _ hr₃ fun _ w₄ hfinal hr₄ _ => ?_
  refine hpass _ _ _ hr₄ fun _ w₅ hinitial hr₅ _ => ?_
  refine hpass _ _ _ hr₅ fun _ w₆ hparented hr₆ _ => ?_
  have herr₆ : ∀ e w', C.rely i w₆ w' → C.inv w' → Q (.error e) w' :=
    fun e w' hr hinv => herr e w' (C.rely_trans hr₆ hr) hinv
  refine keepsF_readOnly_bind readOnly_requireAction (answers_true _) ?_ herr₆
  intro ok w₇ _ hr₇ _
  have herr₇ : ∀ e w', C.rely i w₇ w' → C.inv w' → Q (.error e) w' :=
    fun e w' hr hinv => herr₆ e w' (C.rely_trans hr₇ hr) hinv
  refine keepsF_readOnly_bind (readOnly_ensure _ _) (answers_true _) ?_ herr₇
  intro _ w₈ _ hr₈ hinv₈
  exact hok td payload _ w₈ htd ⟨hparsed, hsettable, hfinal, hinitial, hparented⟩
    (C.rely_trans hr₆ (C.rely_trans hr₇ hr₈)) hinv₈

end Contract

end Numu
