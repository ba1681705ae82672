/-
Versions: what a run of the service does to the row of one entity.

Seen through its version and its data, the row of an entity is a versioned cell
(`Numu/Lib/Versioned.lean`).  The guarded update, the stamp of a connector run
and the guarded delete are moves of that cell, whichever entity one watches.

The first half is about one entity and the requests that write it: no update is
lost.  The base of an update is read without its version, in a statement of its
own; that it is nevertheless the data of the expected version is a fact about the
whole interleaving.

The second half is about the whole service.  One writer, the first-admin claim,
changes data and keeps the version; without it the version determines the data
at every two moments of a run.
-/
import Numu.Lib.Versioned
import Numu.Proofs.Mirror

namespace Numu

open Fallible Handler Contract

/-- The row of an entity as a versioned cell. -/
def rowCell (x : String) (s : Store) : Option (Versioned Json) :=
  (s.entityData.find? x).map fun d => ⟨d.version.val, d.data⟩

theorem rowCell_eq_some {x : String} {s : Store} {d : EntityData}
    (h : s.entityData.find? x = some d) : rowCell x s = some ⟨d.version.val, d.data⟩ := by
  unfold rowCell
  rw [h]
  rfl

theorem rowCell_congr {x : String} {s t : Store} (h : t.entityData = s.entityData) :
    rowCell x t = rowCell x s := by
  unfold rowCell
  rw [h]

/-- The cell of a row that was just written. -/
theorem rowCell_upsert {x : String} {s t : Store} (d : EntityData) (hid : d.entityId = x)
    (ht : t.entityData = s.entityData.upsert d) : rowCell x t = some ⟨d.version.val, d.data⟩ := by
  have hfind := Table.find?_upsert s.entityData d x
  rw [if_pos hid, ← ht] at hfind
  exact rowCell_eq_some hfind

/-! ### The statements as moves -/

theorem move_of_data_eq {x : String} {s t : Store} (h : t.entityData = s.entityData) :
    Versioned.Move (rowCell x s) (rowCell x t) := by
  rw [rowCell_congr h]
  exact .same _

/-- A row replaced under the next version. -/
theorem move_of_bump {x : String} {s t : Store} {row : EntityData} (row' : EntityData)
    (hrow : s.entityData.find? row.entityId = some row) (hid : row'.entityId = row.entityId)
    (hver : row.version.succ? = some row'.version)
    (ht : t.entityData = s.entityData.upsert row') :
    Versioned.Move (rowCell x s) (rowCell x t) := by
  by_cases hx : row'.entityId = x
  · have hs : s.entityData.find? x = some row := by rw [← hx, hid, hrow]
    rw [rowCell_eq_some hs, rowCell_upsert row' hx ht]
    exact .bump (I32.succ?_eq_some.mp hver)
  · unfold rowCell
    rw [ht, Table.find?_upsert, if_neg hx]
    exact .same _

theorem find?_cascadeDelete (s : Store) (id x : String) :
    (cascadeDelete s id).entityData.find? x =
      if x = id then none
      else (s.entityData.find? x).map fun d =>
        if d.scopeParentId = some id then { d with scopeParentId := none } else d := by
  unfold cascadeDelete
  simp only [Table.find?_modify, Table.find?_filter]
  cases hfind : s.entityData.find? x with
  | none => simp
  | some d =>
      have hkey : d.entityId = x := Table.find?_key hfind
      by_cases hx : x = id
      · rw [if_pos hx, Option.filter_some_neg (by simp [hkey, hx])]
        rfl
      · rw [if_neg hx, Option.filter_some_pos (by simp [hkey, hx])]

theorem rowCell_cascadeDelete_self (s : Store) (x : String) :
    rowCell x (cascadeDelete s x) = none := by
  unfold rowCell
  rw [find?_cascadeDelete, if_pos rfl]
  rfl

/-- A delete removes its own row; the others keep their data and version. -/
theorem move_cascadeDelete (s : Store) (id x : String) :
    Versioned.Move (rowCell x s) (rowCell x (cascadeDelete s id)) := by
  by_cases hx : x = id
  · rw [hx, rowCell_cascadeDelete_self]
    exact .gone _
  · have hsame : rowCell x (cascadeDelete s id) = rowCell x s := by
      unfold rowCell
      rw [find?_cascadeDelete, if_neg hx]
      cases s.entityData.find? x with
      | none => rfl
      | some d =>
          simp only [Option.map_some, Option.some.injEq]
          split <;> rfl
    rw [hsame]
    exact .same _

/-- A run sets two fields of its connector. -/
def stampedData (m : JsonMap) (now status : String) : Json :=
  .obj (JsonMap.insert (JsonMap.insert m "last_run_at" (.str now)) "status" (.str status))

theorem jsonbSet_ok {data next : Json} {key : String} {value : Json}
    (h : jsonbSet data key value = .ok next) :
    ∃ m, data = .obj m ∧ next = .obj (JsonMap.insert m key value) := by
  unfold jsonbSet at h
  split at h
  · rename_i m
    simp only [Except.ok.injEq] at h
    exact ⟨m, rfl, h.symm⟩
  · simp at h

/-- A stamp that was written moved its connector to the next version. -/
theorem stampConnector_ok {id status : String} {now : Timestamp} {s t : Store} {v : I32}
    (h : stampConnector id status now s = .ok (v, t)) :
    ∃ row m, s.row? id "connector" = some row ∧ row.data = .obj m ∧ row.version.succ? = some v ∧
      t = { s with
        entityData := s.entityData.upsert
          { row with data := stampedData m now.text status, version := v, updatedAt := now } } := by
  unfold stampConnector at h
  cases hrow : s.row? id "connector" with
  | none => simp [hrow] at h
  | some row =>
      simp only [hrow] at h
      cases hrun : jsonbSet row.data "last_run_at" (.str now.text) with
      | error e => simp [hrun] at h
      | ok stamped =>
          simp only [hrun] at h
          cases hstatus : jsonbSet stamped "status" (.str status) with
          | error e => simp [hstatus] at h
          | ok data =>
              simp only [hstatus] at h
              cases hsucc : row.version.succ? with
              | none => simp [hsucc] at h
              | some v' =>
                  simp only [hsucc, Except.ok.injEq, Prod.mk.injEq] at h
                  obtain ⟨rfl, ht⟩ := h
                  obtain ⟨m, hobj, rfl⟩ := jsonbSet_ok hrun
                  obtain ⟨m', hm', rfl⟩ := jsonbSet_ok hstatus
                  obtain rfl := Json.obj.inj hm'
                  exact ⟨row, m, rfl, hobj, hsucc, ht.symm⟩

theorem move_updateEntityData {data : Json} {sp : Option String} {id typeId : String}
    {expected : I32} {now : Timestamp} {n : Nat} {s t : Store} (x : String)
    (h : updateEntityData data sp id typeId expected now s = .ok (n, t)) :
    Versioned.Move (rowCell x s) (rowCell x t) := by
  rcases updateEntityData_ok h with ⟨-, rfl, -⟩ | ⟨-, row, ver, hrow, hver, hsucc, -, rfl⟩
  · exact .same _
  · have hfound := (Store.row?_eq_some.mp hrow).1
    rw [← Store.row?_entityId hrow] at hfound
    rw [← hver] at hsucc
    exact move_of_bump
      { row with data := data, scopeParentId := sp, version := ver, updatedAt := now }
      hfound rfl hsucc rfl

theorem move_deleteEntity {id typeId : String} {expected : I32} {n : Nat} {s t : Store}
    (x : String) (h : deleteEntity id typeId expected s = .ok (n, t)) :
    Versioned.Move (rowCell x s) (rowCell x t) := by
  rcases deleteEntity_ok h with ⟨-, rfl⟩ | ⟨-, -, rfl⟩
  · exact .same _
  · exact move_cascadeDelete s id x

theorem move_stampConnector {id status : String} {now : Timestamp} {s t : Store} {v : I32}
    (x : String) (h : stampConnector id status now s = .ok (v, t)) :
    Versioned.Move (rowCell x s) (rowCell x t) := by
  obtain ⟨row, m, hrow, -, hsucc, rfl⟩ := stampConnector_ok h
  have hfound := (Store.row?_eq_some.mp hrow).1
  rw [← Store.row?_entityId hrow] at hfound
  exact move_of_bump
    { row with data := stampedData m now.text status, version := v, updatedAt := now } hfound rfl
    hsucc rfl

/-! ### The requests on one entity -/

/-- The requests that write the row of one entity. -/
inductive EntityWrite where
  | update (v : UpdateVerb) (ctx : RequestCtx) (env : Ambient) (caller : Caller) (typeId : String)
      (headers : HeaderMap) (body : Body)
  | delete (ctx : RequestCtx) (caller : Caller) (typeId : String) (headers : HeaderMap)
  | run (ctx : RequestCtx) (env : Ambient) (caller : Caller)
      (fetch : String → Except AppError Json)

namespace EntityWrite

def handle (st : AppState) (x : String) : EntityWrite → Handler Response
  | .update v ctx env caller typeId headers body =>
    itemUpdate v st ctx env caller typeId x headers body
  | .delete ctx caller typeId headers => itemDelete st ctx caller typeId x headers
  | .run ctx env caller fetch => runConnector st ctx env caller fetch x

/-- The version the request says it has seen. -/
def expects : EntityWrite → Option I32
  | .update _ _ _ _ _ headers _ => (ifMatch headers).join
  | .delete _ _ _ headers => (ifMatch headers).join
  | .run _ _ _ _ => none

end EntityWrite

/-- The entity had this version, or a later one, at some moment so far. -/
def Issued (x : String) (e : I32) (w : World Store) : Prop :=
  ∃ t a, w.Visited t ∧ rowCell x t = some a ∧ e.val ≤ a.version

/-- A request may begin when the version it names, if it names one, was issued. -/
def IssuedFirst (x : String) (reqs : Nat → EntityWrite) (n : Nat)
    (p : Pool Store (Except AppError Response)) : Prop :=
  ∀ e, (reqs n).expects = some e → Issued x e p.world

/-- Program `i` replaced the row `old` of the entity by `new`. -/
def Replaced (x : String) (i : Nat) (w : World Store) (old : Versioned Json)
    (new : Option (Versioned Json)) : Prop :=
  ∃ c ∈ w.log, c.who = i ∧ rowCell x c.before = some old ∧ rowCell x c.after = new

/--
What a successful request did.  An update replaced the version it expected by the
next one, and built the data from the data of that version; the tag it answers is
the version it stored.  A delete removed the version it expected.  A connector run
moved to the next version.
-/
def EntityWrite.Wrote (st : AppState) (x : String) (i : Nat) (resp : Response)
    (w : World Store) : EntityWrite → Prop
  | .update v _ _ _ typeId headers body =>
    ∃ e ver td payload base, (ifMatch headers).join = some e ∧
      TypeDefCache.get st.registry typeId = some td ∧
      readJson headers body v.allowMerge = .ok payload ∧
      ver.val = e.val + 1 ∧ resp.etag = some (etag ver) ∧
      Replaced x i w ⟨e.val, base⟩ (some ⟨ver.val, v.build td base payload⟩)
  | .delete _ _ _ headers =>
    ∃ e base, (ifMatch headers).join = some e ∧ Replaced x i w ⟨e.val, base⟩ none
  | .run _ _ _ _ =>
    ∃ old ver data, ver.val = old.version + 1 ∧ resp.etag = some (etag ver) ∧
      Replaced x i w old (some ⟨ver.val, data⟩)

theorem Replaced.mono {x : String} {i : Nat} {w w' : World Store} {old : Versioned Json}
    {new : Option (Versioned Json)} (h : Replaced x i w old new)
    (hlog : ∀ c ∈ w.log, c ∈ w'.log) : Replaced x i w' old new := by
  obtain ⟨c, hc, hrest⟩ := h
  exact ⟨c, hlog c hc, hrest⟩

/-- What was written stays written. -/
theorem EntityWrite.Wrote.mono {st : AppState} {x : String} {i : Nat} {resp : Response}
    {w w' : World Store} {req : EntityWrite} (h : req.Wrote st x i resp w)
    (hlog : ∀ c ∈ w.log, c ∈ w'.log) : req.Wrote st x i resp w' := by
  cases req with
  | update v ctx env caller typeId headers body =>
      obtain ⟨e, ver, td, payload, base, he, htd, hparsed, hver, htag, hrep⟩ := h
      exact ⟨e, ver, td, payload, base, he, htd, hparsed, hver, htag, hrep.mono hlog⟩
  | delete ctx caller typeId headers =>
      obtain ⟨e, base, he, hrep⟩ := h
      exact ⟨e, base, he, hrep.mono hlog⟩
  | run ctx env caller fetch =>
      obtain ⟨old, ver, data, hver, htag, hrep⟩ := h
      exact ⟨old, ver, data, hver, htag, hrep.mono hlog⟩

/-- A request that names a version and succeeds changed the entity at that version. -/
theorem EntityWrite.Wrote.changes {st : AppState} {x : String} {i : Nat} {resp : Response}
    {w : World Store} {req : EntityWrite} {e : I32} (h : req.Wrote st x i resp w)
    (he : req.expects = some e) :
    ∃ c ∈ w.log, c.who = i ∧ Versioned.Changes (rowCell x) c ∧
      ∃ base, rowCell x c.before = some ⟨e.val, base⟩ := by
  cases req with
  | update v ctx env caller typeId headers body =>
      obtain ⟨e', ver, td, payload, base, he', -, -, hver, -, c, hc, hwho, hbefore, hafter⟩ := h
      obtain rfl : e = e' := Option.some.inj (he.symm.trans he')
      refine ⟨c, hc, hwho, ?_, base, hbefore⟩
      intro hsame
      rw [hafter, hbefore, Option.some.injEq] at hsame
      have hver' : ver.val = e.val := congrArg Versioned.version hsame
      omega
  | delete ctx caller typeId headers =>
      obtain ⟨e', base, he', c, hc, hwho, hbefore, hafter⟩ := h
      obtain rfl : e = e' := Option.some.inj (he.symm.trans he')
      refine ⟨c, hc, hwho, ?_, base, hbefore⟩
      intro hsame
      rw [hafter, hbefore] at hsame
      simp at hsame
  | run ctx env caller fetch => simp [EntityWrite.expects] at he

/-! ### Each request keeps the contract of the cell -/

/-- The answer of a request, when it is a success, tells what it wrote. -/
def WriteAnswer (st : AppState) (x : String) (i : Nat) (req : EntityWrite)
    (r : Except AppError Response) (w : World Store) : Prop :=
  ∀ resp, r = .ok resp → req.Wrote st x i resp w

section Keeps

variable {st : AppState} {x : String} {i : Nat} {req : EntityWrite} {w : World Store}

theorem writeAnswer_error {e : AppError} : WriteAnswer st x i req (.error e) w := by
  intro resp h
  simp at h

/-- What follows the write of the row: other tables, an event, the answer. -/
theorem keepsF_afterWrite {p : Handler Response} {resp : Response}
    (hp : Writes (fun s t => t.entityData = s.entityData) p)
    (ha : Answers (fun a => a = resp) p) (h : req.Wrote st x i resp w) :
    (Versioned.contract (rowCell x)).KeepsF i (WriteAnswer st x i req) p w := by
  refine keepsF_of_writes (S := fun w => req.Wrote st x i resp w) hp ha ?_ ?_ ?_ w h
  · intro w₁ w₂ hr hw
    exact hw.mono hr.2
  · intro w₁ update _ hw hdata
    refine ⟨⟨update w₁.now, rfl, move_of_data_eq hdata⟩, hw.mono ?_⟩
    intro c hc
    exact List.mem_append.mpr (Or.inl hc)
  · intro r w₁ hr hw a ha
    rw [hr a ha]
    exact hw

/-- A read may be passed over: whatever it answers the rest goes on, and a failure says nothing. -/
theorem keepsF_pass {α : Type} {p : Handler α} {f : α → Handler Response} (hp : ReadOnly p)
    (h : ∀ a w', (Versioned.contract (rowCell x)).KeepsF i (WriteAnswer st x i req) (f a) w') :
    (Versioned.contract (rowCell x)).KeepsF i (WriteAnswer st x i req) (p >>= f) w :=
  keepsF_readOnly_bind hp (answers_true _) (fun a w' _ _ _ => h a w')
    fun _ _ _ _ => writeAnswer_error

/-- A guarded write that found no row is refused. -/
theorem keepsF_refused {e : AppError} {f : Unit → Handler Response} :
    (Versioned.contract (rowCell x)).KeepsF i (WriteAnswer st x i req)
      (ensure (decide ((0 : Nat) ≠ 0)) e >>= f) w := by
  refine keepsF_readOnly_bind (readOnly_ensure _ _) (answers_ensure _ _) ?_
    fun _ _ _ _ => writeAnswer_error
  intro _ _ haffected _ _
  simp at haffected

theorem guar_same {t : Store} (h : t.entityData = w.now.entityData) :
    (Versioned.contract (rowCell x)).guar i w (w.commit i fun _ => t) :=
  ⟨t, rfl, move_of_data_eq h⟩

theorem writes_data_recordEvent (ctx : RequestCtx) (actorId : String) (entityId : Option String)
    (kind : String) (payload : Json) :
    Writes (fun s t => t.entityData = s.entityData)
      (recordEvent ctx actorId entityId kind payload) :=
  writes_recordEvent (fun _ _ => rfl) ctx actorId entityId kind payload

theorem ifMatch_of_require {headers : HeaderMap} {ctx : RequestCtx} {e : I32}
    (h : requireIfMatch headers ctx = .ok e) : (ifMatch headers).join = some e := by
  unfold requireIfMatch at h
  split at h
  · simp at h
  · simp at h
  · rename_i v hv
    rw [hv, ← Except.ok.inj h]
    rfl

/-- The writes of an update whose base was read no earlier than the version it expects. -/
theorem keepsF_updateRow {v : UpdateVerb} {ctx : RequestCtx} {env : Ambient} {caller : Caller}
    {typeId : String} {headers : HeaderMap} {body : Body} {td : TypeDef} {base payload : Json}
    {e : I32} (htd : TypeDefCache.get st.registry typeId = some td)
    (hmatched : requireIfMatch headers ctx = .ok e)
    (hparsed : readJson headers body v.allowMerge = .ok payload)
    (hread : ∃ t n, w.Visited t ∧ rowCell x t = some ⟨n, base⟩ ∧ e.val ≤ n) :
    (Versioned.contract (rowCell x)).KeepsF i
      (WriteAnswer st x i (.update v ctx env caller typeId headers body))
      (updateWrites v ctx env caller td typeId x (v.build td base payload) e) w := by
  unfold updateWrites
  refine keepsF_execute_bind ?_ ?_
  · intro w' affected t hr hinv hq
    have hmove := move_updateEntityData x hq
    refine ⟨⟨t, rfl, hmove⟩, ?_⟩
    rcases updateEntityData_ok hq with ⟨rfl, -, -⟩ | ⟨rfl, row, ver, hrow, hver, hsucc, -, ht⟩
    · exact keepsF_refused
    · -- The row that is replaced has the expected version, so it is the one that was read.
      have hnow : rowCell x w'.now = some ⟨e.val, row.data⟩ := by
        rw [rowCell_eq_some (Store.row?_eq_some.mp hrow).1, hver]
      have hbase : row.data = base := by
        obtain ⟨t₀, n, ht₀, hcell, hle⟩ := hread
        have heq := hinv.1.base_eq (hr.1 t₀ ht₀) hcell hnow hle
        exact (congrArg Versioned.content heq).symm
      have hafter : rowCell x t = some ⟨ver.val, v.build td base payload⟩ := by
        have hid : row.entityId = x := Store.row?_entityId hrow
        rw [ht]
        exact rowCell_upsert (updatedRow td row (v.build td base payload) ver env.now) hid rfl
      rw [I32.succ_eq_of_succ? hsucc]
      have hwrote : EntityWrite.Wrote st x i
          { status := 200, etag := some (etag ver),
            body := some (entityJson x typeId (v.build td base payload) ver) }
          (w'.commit i fun _ => t) (.update v ctx env caller typeId headers body) :=
        ⟨e, ver, td, payload, base, ifMatch_of_require hmatched, htd, hparsed,
          I32.succ?_eq_some.mp hsucc, rfl, ⟨i, w'.now, t⟩, by simp [World.commit], rfl,
          hbase ▸ hnow, hafter⟩
      refine keepsF_afterWrite ?_ ?_ hwrote
      · refine writes_bind (readOnly_ensure _ _).writes fun _ => ?_
        refine writes_bind (writes_onlyIf (writes_execute (fun _ => rfl) ?_)) fun _ => ?_
        · intro s u s' hs
          rw [(upsertCase_ok hs).2]
        · exact writes_bind (writes_data_recordEvent _ _ _ _ _) fun _ => (readOnly_pure _).writes
      · refine answers_bind (answers_true _) fun _ _ => answers_bind (answers_true _) fun _ _ => ?_
        exact answers_bind (answers_true _) fun _ _ => answers_pure rfl
  · intro w' y _ _ _
    exact ⟨guar_same rfl, fun _ _ _ => writeAnswer_error⟩

theorem keepsF_update {v : UpdateVerb} {ctx : RequestCtx} {env : Ambient} {caller : Caller}
    {typeId : String} {headers : HeaderMap} {body : Body}
    (hissued : ∀ e, (ifMatch headers).join = some e → Issued x e w) :
    (Versioned.contract (rowCell x)).KeepsF i
      (WriteAnswer st x i (.update v ctx env caller typeId headers body))
      (itemUpdate v st ctx env caller typeId x headers body) w := by
  refine keepsF_itemUpdate (fun _ _ _ _ => writeAnswer_error) ?_
  intro td w₁ row payload e w₂ htd hr₁ hinv₁ hrow hagreed hr₂ _
  refine keepsF_updateRow htd hagreed.matched hagreed.parsed ?_
  -- The version was issued before the row was read, so what was read is no older.
  obtain ⟨t, a, ht, ha, hle⟩ := hissued e (ifMatch_of_require hagreed.matched)
  have hcell := rowCell_eq_some (Store.row?_eq_some.mp hrow).1
  have hlatest := hinv₁.1.latest t a _ (hr₁.1 t ht) ha hcell
  exact ⟨w₁.now, row.version.val, hr₂.1 _ (Or.inl rfl), hcell, hle.trans hlatest⟩

theorem keepsF_delete {ctx : RequestCtx} {caller : Caller} {typeId : String}
    {headers : HeaderMap} :
    (Versioned.contract (rowCell x)).KeepsF i
      (WriteAnswer st x i (.delete ctx caller typeId headers))
      (itemDelete st ctx caller typeId x headers) w := by
  unfold itemDelete resolve
  refine keepsF_pass (readOnly_getOr _ _) fun td w₁ => ?_
  refine keepsF_pass readOnly_requireAction fun ok w₂ => ?_
  refine keepsF_pass (readOnly_ensure _ _) fun _ w₃ => ?_
  refine keepsF_pass (readOnly_query _) fun found w₄ => ?_
  refine keepsF_pass (readOnly_ensure _ _) fun _ w₅ => ?_
  refine keepsF_readOnly_bind (readOnly_check _) (answers_check _) ?_
    fun _ _ _ _ => writeAnswer_error
  intro e w₆ hmatched _ _
  refine keepsF_execute_bind ?_ ?_
  · intro w' affected t _ _ hq
    refine ⟨⟨t, rfl, move_deleteEntity x hq⟩, ?_⟩
    rcases deleteEntity_ok hq with ⟨rfl, -⟩ | ⟨rfl, ⟨row, hrow, hver⟩, ht⟩
    · exact keepsF_refused
    · have hnow : rowCell x w'.now = some ⟨e.val, row.data⟩ := by
        rw [rowCell_eq_some (Store.row?_eq_some.mp hrow).1, hver]
      have hgone : rowCell x t = none := by
        rw [ht]
        exact rowCell_cascadeDelete_self _ _
      have hwrote : EntityWrite.Wrote st x i { status := 204 } (w'.commit i fun _ => t)
          (.delete ctx caller typeId headers) :=
        ⟨e, row.data, ifMatch_of_require hmatched, ⟨i, w'.now, t⟩, by simp [World.commit], rfl,
          hnow, hgone⟩
      refine keepsF_afterWrite ?_ ?_ hwrote
      · refine writes_bind (readOnly_ensure _ _).writes fun _ => ?_
        exact writes_bind (writes_data_recordEvent _ _ _ _ _) fun _ => (readOnly_pure _).writes
      · refine answers_bind (answers_true _) fun _ _ => ?_
        exact answers_bind (answers_true _) fun _ _ => answers_pure rfl
  · intro w' y _ _ _
    exact ⟨guar_same rfl, fun _ _ _ => writeAnswer_error⟩

theorem readOnly_reachAction {caller : Caller} {id : String} {action : Action} :
    ReadOnly (reachAction st caller id action) := by
  refine readOnly_bind (readOnly_query _) fun typeId => ?_
  cases typeId.bind (TypeDefCache.get st.registry) with
  | none => exact readOnly_pure _
  | some td => exact readOnly_requireAction

theorem writes_stampRunQuietly {R : Store → Store → Prop} {id status : String} {now : Timestamp}
    (hrefl : ∀ s, R s s) (hR : ∀ s v t, stampConnector id status now s = .ok (v, t) → R s t) :
    Writes R (stampRunQuietly id status now) := by
  refine writes_executeQuietly hrefl ?_
  intro s t h
  cases hstamp : stampConnector id status now s with
  | error e => simp [hstamp, Except.map] at h
  | ok r =>
      simp only [hstamp, Except.map, Except.ok.injEq, Prod.mk.injEq, true_and] at h
      exact hR s r.1 t (h ▸ hstamp)

theorem keepsF_run {ctx : RequestCtx} {env : Ambient} {caller : Caller}
    {fetch : String → Except AppError Json} :
    (Versioned.contract (rowCell x)).KeepsF i
      (WriteAnswer st x i (.run ctx env caller fetch))
      (runConnector st ctx env caller fetch x) w := by
  unfold runConnector
  refine keepsF_pass (readOnly_query _) fun found w₁ => ?_
  refine keepsF_pass (readOnly_getOr _ _) fun row w₂ => ?_
  refine keepsF_pass readOnly_reachAction fun ok w₃ => ?_
  refine keepsF_pass (readOnly_ensure _ _) fun _ w₄ => ?_
  refine keepsF_pass (readOnly_ensure _ _) fun _ w₅ => ?_
  refine keepsF_pass (readOnly_ensure _ _) fun _ w₆ => ?_
  cases fetch ((row.data.str? "target").getD "") with
  | error e =>
      -- The failed run stamps too, and answers with the error.
      refine keepsF_of_writes (S := fun _ => True) (P := fun _ => False)
        (R := fun s t => Versioned.Move (rowCell x s) (rowCell x t)) ?_ ?_ ?_ ?_ ?_ _ trivial
      · refine writes_bind (writes_stampRunQuietly (fun _ => .same _) ?_) fun _ =>
          (readOnly_throw _).writes
        intro s v t h
        exact move_stampConnector x h
      · refine answers_bind (answers_true _) fun _ _ => ?_
        intro a ha
        simp at ha
      · intro _ _ _ _
        trivial
      · intro w' update _ _ hmove
        exact ⟨⟨update w'.now, rfl, hmove⟩, trivial⟩
      · intro r w' hr _ resp hresp
        exact (hr resp hresp).elim
  | ok result =>
      refine keepsF_execute_bind ?_ ?_
      · intro w' ver t _ _ hq
        refine ⟨⟨t, rfl, move_stampConnector x hq⟩, ?_⟩
        obtain ⟨row', m, hrow, -, hsucc, ht⟩ := stampConnector_ok hq
        have hfound := (Store.row?_eq_some.mp hrow).1
        have hid : row'.entityId = x := Store.row?_entityId hrow
        let data := stampedData m env.now.text "active"
        have hafter : rowCell x t = some ⟨ver.val, data⟩ := by
          rw [ht]
          exact rowCell_upsert { row' with data := data, version := ver, updatedAt := env.now }
            hid rfl
        have hwrote : EntityWrite.Wrote st x i
            { status := 200, etag := some (etag ver),
              body := some (.mkObj [("connector", .str x), ("ran", .bool true),
                ("version", .num (.int ver.val)), ("result", result)]) }
            (w'.commit i fun _ => t) (.run ctx env caller fetch) :=
          ⟨⟨row'.version.val, row'.data⟩, ver, data, I32.succ?_eq_some.mp hsucc, rfl,
            ⟨i, w'.now, t⟩, by simp [World.commit], rfl, rowCell_eq_some hfound, hafter⟩
        refine keepsF_afterWrite ?_ ?_ hwrote
        · exact writes_bind (writes_data_recordEvent _ _ _ _ _) fun _ => (readOnly_pure _).writes
        · exact answers_bind (answers_true _) fun _ _ => answers_pure rfl
      · intro w' y _ _ _
        exact ⟨guar_same rfl, fun _ _ _ => writeAnswer_error⟩

/-- Every request keeps the contract, when the version it names was issued before. -/
theorem EntityWrite.keeps (req : EntityWrite)
    (hissued : ∀ e, req.expects = some e → Issued x e w) :
    (Versioned.contract (rowCell x)).KeepsF i (WriteAnswer st x i req) (req.handle st x) w := by
  cases req with
  | update v ctx env caller typeId headers body => exact keepsF_update hissued
  | delete ctx caller typeId headers => exact keepsF_delete
  | run ctx env caller fetch => exact keepsF_run

end Keeps

/-! ### No update is lost -/

/-- A run of requests on one entity in which no update is lost. -/
structure NoLostUpdate (st : AppState) (x : String) (reqs : Nat → EntityWrite)
    (p : Pool Store (Except AppError Response)) : Prop where
  /-- Every write leaves the row alone, moves it to the next version, or removes it. -/
  moves : ∀ c ∈ p.world.log, Versioned.Move (rowCell x c.before) (rowCell x c.after)
  /-- The version never went down, and a version has one content. -/
  history : Versioned.History (rowCell x) p.world
  /-- A successful request replaced the version it expected, from the data of that version. -/
  wrote : ∀ i resp, p.Finished i (.ok resp) → (reqs i).Wrote st x i resp p.world
  /-- At most one request succeeds for a version. -/
  once : ∀ i j a b e, p.Finished i (.ok a) → p.Finished j (.ok b) →
    (reqs i).expects = some e → (reqs j).expects = some e → i = j

/--
**No update is lost: in every interleaving of requests on one entity, each of
which names a version that was issued before it began.**
-/
theorem no_lost_update (st : AppState) (x : String) (reqs : Nat → EntityWrite) (s : Store)
    (p : Pool Store (Except AppError Response))
    (hrun : Pool.Run (fun n => ((reqs n).handle st x).run) (IssuedFirst x reqs)
      (Pool.start s) p) :
    NoLostUpdate st x reqs p := by
  have hpool : PoolOk (Versioned.contract (rowCell x))
      (fun i => WriteAnswer st x i (reqs i)) p := by
    refine run_ok ?_ ?_ hrun
    · exact ⟨.start s, .start s, by simp⟩
    · intro q _ hallow
      exact (reqs _).keeps hallow
  have hwrote : ∀ i resp, p.Finished i (.ok resp) → (reqs i).Wrote st x i resp p.world := by
    intro i resp hfin
    exact hpool.finished hfin resp rfl
  refine ⟨hpool.inv.2.2, hpool.inv.1, hwrote, ?_⟩
  intro i j a b e hi hj hei hej
  obtain ⟨c, hc, hci, hchange, base, hbefore⟩ := (hwrote i a hi).changes hei
  obtain ⟨d, hd, hdj, hchange', base', hbefore'⟩ := (hwrote j b hj).changes hej
  have hwho := hpool.inv.2.1.once c hc d hd _ _ hchange hchange' hbefore hbefore' rfl
  rw [← hci, ← hdj]
  exact hwho

/-- Every request retitles the case, and has seen version one. -/
def retitleFirst : Nat → EntityWrite := fun _ =>
  .update .patch plainCtx {} alice "case"
    { contentType := some (some "application/json"), ifMatch := some (some "W/\"1\"") }
    (oneField "title" "Crash on start")

/-- Two requests, statement by statement in turn. -/
def inTurn : List Pool.Move :=
  [.spawn, .spawn] ++ (List.replicate 7 [.advance 0, .advance 1]).flatten

/-- Two updates of the same version: the first succeeds and the second is refused. -/
theorem second_retitle_refused :
    ∃ p, Pool.Run (fun n => ((retitleFirst n).handle caseState "CAS_1").run)
        (IssuedFirst "CAS_1" retitleFirst) (Pool.start caseStore) p ∧
      (∃ a e, p.Finished 0 (.ok a) ∧ p.Finished 1 (.error e) ∧ e.status = 412) ∧
      NoLostUpdate caseState "CAS_1" retitleFirst p := by
  have hissued : ∀ q n, Pool.Run (fun n => ((retitleFirst n).handle caseState "CAS_1").run)
      (IssuedFirst "CAS_1" retitleFirst) (Pool.start caseStore) q →
        IssuedFirst "CAS_1" retitleFirst n q := by
    intro q n hq e he
    have hone : (retitleFirst n).expects = some 1 := rfl
    obtain rfl : e = 1 := Option.some.inj (he.symm.trans hone)
    exact ⟨caseStore, _, hq.from.visited_start, rfl, by decide⟩
  have hrun := (Pool.play_run _ inTurn _).allowed hissued
  refine ⟨_, hrun, ⟨_, _, rfl, rfl, by decide⟩, ?_⟩
  exact no_lost_update caseState "CAS_1" retitleFirst caseStore _ hrun

/-! ### The whole service -/

/-- The requests of the service that write entities. -/
inductive ServiceRequest where
  | create (ctx : RequestCtx) (env : Ambient) (caller : Caller) (typeId : String)
      (headers : HeaderMap) (body : Body)
  | update (v : UpdateVerb) (ctx : RequestCtx) (env : Ambient) (caller : Caller)
      (typeId id : String) (headers : HeaderMap) (body : Body)
  | delete (ctx : RequestCtx) (caller : Caller) (typeId id : String) (headers : HeaderMap)
  | run (ctx : RequestCtx) (env : Ambient) (caller : Caller)
      (fetch : String → Except AppError Json) (id : String)
  | claimAdmin (caller : Caller)
  | login (env : Ambient) (provider sub : String) (email : Option String) (name : String)

namespace ServiceRequest

def handle (st : AppState) : ServiceRequest → Handler Unit
  | .create ctx env caller typeId headers body => do
    let _ ← collCreate st ctx env caller typeId headers body
  | .update v ctx env caller typeId id headers body => do
    let _ ← itemUpdate v st ctx env caller typeId id headers body
  | .delete ctx caller typeId id headers => do
    let _ ← itemDelete st ctx caller typeId id headers
  | .run ctx env caller fetch id => do
    let _ ← runConnector st ctx env caller fetch id
  | .claimAdmin caller => do
    let _ ← Numu.claimAdmin caller
  | .login env provider sub email name => do
    let _ ← upsertIdentity env provider sub email name

/-- The id a request would give a new entity. -/
def mints (st : AppState) : ServiceRequest → Option String
  | .create _ env _ typeId _ _ =>
    (TypeDefCache.get st.registry typeId).map fun td => mint td env.uuid
  | .login env _ _ _ _ => some ("USR_" ++ env.uuid)
  | _ => none

end ServiceRequest

/-- A claim by this actor would change nothing: it is refused, or the actor is an admin already. -/
def Store.claimIdle (s : Store) (actorId : String) : Bool :=
  s.hasAdmin || (s.row? actorId "actor").all fun row =>
    !row.data.isObject || row.data.get? "platform_role" = some (.str "admin")

/-- In this store, the request does not change the data of a row without its version. -/
def ServiceRequest.KeepsTag (s : Store) : ServiceRequest → Prop
  | .claimAdmin caller => s.claimIdle caller.actorId = true
  | _ => True

instance (s : Store) : (req : ServiceRequest) → Decidable (req.KeepsTag s)
  | .claimAdmin caller => inferInstanceAs (Decidable (s.claimIdle caller.actorId = true))
  | .create _ _ _ _ _ _ => isTrue trivial
  | .update _ _ _ _ _ _ _ _ => isTrue trivial
  | .delete _ _ _ _ _ => isTrue trivial
  | .run _ _ _ _ _ => isTrue trivial
  | .login _ _ _ _ _ => isTrue trivial

/-- Every claim of the log was idle when it was made. -/
def ClaimsIdle (reqs : Nat → ServiceRequest) (log : List (Commit Store)) : Prop :=
  ∀ c ∈ log, (reqs c.who).KeepsTag c.before

instance (reqs : Nat → ServiceRequest) (log : List (Commit Store)) :
    Decidable (ClaimsIdle reqs log) :=
  inferInstanceAs (Decidable (∀ c ∈ log, (reqs c.who).KeepsTag c.before))

/-- The uuids are good: no two requests mint the same id, and none mints one that is taken. -/
structure FreshIds (st : AppState) (s : Store) (reqs : Nat → ServiceRequest) : Prop where
  distinct : ∀ i j id, (reqs i).mints st = some id → (reqs j).mints st = some id → i = j
  untaken : ∀ i id, (reqs i).mints st = some id → rowCell id s = none

/-- Every row moves as a versioned cell does. -/
def RowsMove (s t : Store) : Prop := ∀ x, Versioned.Move (rowCell x s) (rowCell x t)

theorem RowsMove.of_data {s t : Store} (h : t.entityData = s.entityData) : RowsMove s t :=
  fun _ => move_of_data_eq h

theorem RowsMove.refl (s : Store) : RowsMove s s := RowsMove.of_data rfl

theorem rowsMove_recordEvent (ctx : RequestCtx) (actorId : String) (entityId : Option String)
    (kind : String) (payload : Json) :
    Writes RowsMove (recordEvent ctx actorId entityId kind payload) :=
  writes_recordEvent (fun _ _ => RowsMove.of_data rfl) ctx actorId entityId kind payload

theorem rowsMove_itemUpdate (v : UpdateVerb) (st : AppState) (ctx : RequestCtx) (env : Ambient)
    (caller : Caller) (typeId id : String) (headers : HeaderMap) (body : Body) :
    Writes RowsMove (itemUpdate v st ctx env caller typeId id headers body) := by
  refine writes_bind (readOnly_getOr _ _).writes fun td => ?_
  refine writes_bind readOnly_requireAction.writes fun ok => ?_
  refine writes_bind (readOnly_ensure _ _).writes fun _ => ?_
  refine writes_bind (readOnly_query _).writes fun found => ?_
  refine writes_bind (readOnly_getOr _ _).writes fun row => ?_
  refine writes_bind readOnly_updateChecks.writes fun checked => ?_
  refine writes_bind (writes_execute RowsMove.refl ?_) fun affected => ?_
  · intro s n t h x
    exact move_updateEntityData x h
  refine writes_bind (readOnly_ensure _ _).writes fun _ => ?_
  refine writes_bind (writes_onlyIf (writes_execute RowsMove.refl ?_)) fun _ => ?_
  · intro s u t h
    refine RowsMove.of_data ?_
    rw [(upsertCase_ok h).2]
  · exact writes_bind (rowsMove_recordEvent _ _ _ _ _) fun _ => (readOnly_pure _).writes

theorem rowsMove_itemDelete (st : AppState) (ctx : RequestCtx) (caller : Caller)
    (typeId id : String) (headers : HeaderMap) :
    Writes RowsMove (itemDelete st ctx caller typeId id headers) := by
  refine writes_bind (readOnly_getOr _ _).writes fun td => ?_
  refine writes_bind readOnly_requireAction.writes fun ok => ?_
  refine writes_bind (readOnly_ensure _ _).writes fun _ => ?_
  refine writes_bind (readOnly_query _).writes fun found => ?_
  refine writes_bind (readOnly_ensure _ _).writes fun _ => ?_
  refine writes_bind (readOnly_check _).writes fun expected => ?_
  refine writes_bind (writes_execute RowsMove.refl ?_) fun affected => ?_
  · intro s n t h x
    exact move_deleteEntity x h
  refine writes_bind (readOnly_ensure _ _).writes fun _ => ?_
  exact writes_bind (rowsMove_recordEvent _ _ _ _ _) fun _ => (readOnly_pure _).writes

theorem rowsMove_runConnector (st : AppState) (ctx : RequestCtx) (env : Ambient) (caller : Caller)
    (fetch : String → Except AppError Json) (id : String) :
    Writes RowsMove (runConnector st ctx env caller fetch id) := by
  have hstamp : ∀ status s v t, stampConnector id status env.now s = .ok (v, t) →
      RowsMove s t := by
    intro status s v t h x
    exact move_stampConnector x h
  refine writes_bind (readOnly_query _).writes fun found => ?_
  refine writes_bind (readOnly_getOr _ _).writes fun row => ?_
  refine writes_bind readOnly_reachAction.writes fun ok => ?_
  refine writes_bind (readOnly_ensure _ _).writes fun _ => ?_
  refine writes_bind (readOnly_ensure _ _).writes fun _ => ?_
  refine writes_bind (readOnly_ensure _ _).writes fun _ => ?_
  cases fetch ((row.data.str? "target").getD "") with
  | error e =>
      exact writes_bind (writes_stampRunQuietly RowsMove.refl (hstamp "error")) fun _ =>
        (readOnly_throw _).writes
  | ok result =>
      refine writes_bind (writes_execute RowsMove.refl (hstamp "active")) fun ver => ?_
      exact writes_bind (rowsMove_recordEvent _ _ _ _ _) fun _ => (readOnly_pure _).writes

/-- What a claim does: nothing, or the role set under the same version. -/
theorem promoteActor_ok {actorId : String} {n : Nat} {s t : Store}
    (h : promoteActor actorId s = .ok (n, t)) :
    (t = s ∧ (s.row? actorId "actor" = none ∨ s.hasAdmin = true)) ∨
      ∃ row m, s.row? actorId "actor" = some row ∧ s.hasAdmin = false ∧ row.data = .obj m ∧
        t = { s with
          entityData := s.entityData.upsert
            { row with data := .obj (JsonMap.insert m "platform_role" (.str "admin")) } } := by
  unfold promoteActor at h
  cases hrow : s.row? actorId "actor" with
  | none =>
      simp only [hrow, Except.ok.injEq, Prod.mk.injEq] at h
      exact Or.inl ⟨h.2.symm, Or.inl rfl⟩
  | some row =>
      simp only [hrow] at h
      cases hadmin : s.hasAdmin with
      | true =>
          simp only [hadmin, if_true, Except.ok.injEq, Prod.mk.injEq] at h
          exact Or.inl ⟨h.2.symm, Or.inr rfl⟩
      | false =>
          simp only [hadmin, Bool.false_eq_true, if_false] at h
          unfold jsonbSet at h
          split at h
          · simp at h
          · rename_i data hdata
            split at hdata
            · rename_i m hobj
              simp only [Except.ok.injEq, Prod.mk.injEq] at h hdata
              rw [← hdata] at h
              exact Or.inr ⟨row, m, rfl, rfl, hobj, h.2.symm⟩
            · simp at hdata

theorem Store.claimIdle_iff {s : Store} {actorId : String} :
    s.claimIdle actorId = true ↔ s.hasAdmin = true ∨ ∀ row, s.row? actorId "actor" = some row →
      row.data.isObject = true → row.data.get? "platform_role" = some (.str "admin") := by
  unfold Store.claimIdle
  cases hrow : s.row? actorId "actor" with
  | none => simp
  | some row => simp [← Bool.not_eq_true, ← imp_iff_not_or]

/-- An idle claim leaves every row as it is. -/
theorem rowsMove_promoteActor {actorId : String} {n : Nat} {s t : Store}
    (hidle : s.claimIdle actorId = true) (h : promoteActor actorId s = .ok (n, t)) :
    RowsMove s t := by
  rcases promoteActor_ok h with ⟨rfl, -⟩ | ⟨row, m, hrow, hadmin, hobj, rfl⟩
  · exact RowsMove.refl _
  · rcases Store.claimIdle_iff.mp hidle with hadmin' | hrole
    · rw [hadmin] at hadmin'
      simp at hadmin'
    · have hget : JsonMap.get? m "platform_role" = some (.str "admin") := by
        have hrole' := hrole row hrow (by rw [hobj]; rfl)
        rw [hobj] at hrole'
        exact hrole'
      rw [JsonMap.insert_of_get? hget, ← hobj]
      intro x
      have hsame : rowCell x { s with entityData := s.entityData.upsert row } = rowCell x s := by
        unfold rowCell
        rw [Table.find?_upsert]
        by_cases hx : row.entityId = x
        · have hid : row.entityId = actorId := Store.row?_entityId hrow
          rw [if_pos hx, ← hx, hid, (Store.row?_eq_some.mp hrow).1]
        · rw [if_neg hx]
      have hmove : Versioned.Move (rowCell x s) (rowCell x s) := .same _
      exact hsame.symm ▸ hmove

/-- Inserting a row leaves the others alone. -/
theorem rowCell_insert {s t : Store} {d : EntityData} {rows : Table EntityData.entityId}
    (hrows : s.entityData.insert d = some rows) (ht : t.entityData = rows) {x : String}
    (hx : x ≠ d.entityId) : rowCell x t = rowCell x s := by
  unfold rowCell
  rw [ht, Table.find?_insert hrows, if_neg (Ne.symm hx)]

theorem rowCell_createTx {td : TypeDef} {typeId id actorId : String} {data : Json}
    {sp : Option String} {now : Timestamp} {u : Unit} {s t : Store}
    (h : createTx td typeId id actorId data sp now s = .ok (u, t)) {x : String} (hx : x ≠ id) :
    rowCell x t = rowCell x s := by
  obtain ⟨ents, rows, e, cases, -, hrows, -, -, -, -, -, -, -, -, rfl⟩ := createTx_ok h
  exact rowCell_insert hrows rfl hx

/-- The transaction of a first login: a new actor, its data, and what identifies it. -/
theorem loginTx_ok {actorId provider sub name : String} {email : Option String}
    {now : Timestamp} {u : Unit} {s t : Store}
    (h : loginTx actorId provider sub name email now s = .ok (u, t)) :
    ∃ ents rows ids,
      s.entities.insert { id := actorId, type := "actor", createdBy := some actorId } =
        some ents ∧
      s.entityData.insert { entityId := actorId, typeId := "actor",
                            data := loginActorData actorId name email, updatedAt := now } =
        some rows ∧
      s.typeDefinitions.has "actor" = true ∧
      s.authIdentities.insert { provider := provider, sub := sub, actorId := actorId,
                                email := email } = some ids ∧
      t = { s with entities := ents, entityData := rows, authIdentities := ids } := by
  unfold loginTx at h
  obtain ⟨_, t₁, hentity, h₁⟩ := Stmt.bind_ok.mp h
  obtain ⟨_, t₂, hdata, h₂⟩ := Stmt.bind_ok.mp h₁
  obtain ⟨ents, hents, htype, rfl⟩ := insertEntity_ok hentity
  obtain ⟨rows, hrows, -, rfl⟩ := insertEntityData_ok hdata
  unfold insertIdentity at h₂
  split at h₂
  · simp at h₂
  · rename_i ids hids
    split at h₂
    · simp only [Except.ok.injEq, Prod.mk.injEq] at h₂
      exact ⟨ents, rows, ids, hents, hrows, htype, hids, h₂.2.symm⟩
    · simp at h₂

theorem rowCell_loginTx {actorId provider sub name : String} {email : Option String}
    {now : Timestamp} {u : Unit} {s t : Store}
    (h : loginTx actorId provider sub name email now s = .ok (u, t)) {x : String}
    (hx : x ≠ actorId) : rowCell x t = rowCell x s := by
  obtain ⟨ents, rows, ids, -, hrows, -, -, rfl⟩ := loginTx_ok h
  exact rowCell_insert hrows rfl hx

/-! #### The contract of the service -/

section Service

variable (st : AppState) (s₀ : Store) (reqs : Nat → ServiceRequest)

/-- Every entity that was ever there was there at the start, or was minted by a commit. -/
def Accounted (w : World Store) : Prop :=
  ∀ x t a, w.Visited t → rowCell x t = some a →
    (∃ b, rowCell x s₀ = some b) ∨ ∃ c ∈ w.log, (reqs c.who).mints st = some x

/--
The contract of the service.  As long as every claim was idle, every row has a
history, and nothing was there that nobody minted.
-/
def tagContract : Contract Store where
  inv w := ClaimsIdle reqs w.log →
    (∀ x, Versioned.History (rowCell x) w) ∧ Accounted st s₀ reqs w
  rely i w w' := World.SameCommits i w w'
  guar i w w' := w'.log = w.log ++ [⟨i, w.now, w'.now⟩] ∧ (ClaimsIdle reqs w'.log →
    (∀ x, Versioned.History (rowCell x) w') ∧ Accounted st s₀ reqs w')
  rely_refl _ _ := fun _ _ => Iff.rfl
  rely_trans h₁ h₂ := fun c hc => (h₂ c hc).trans (h₁ c hc)
  inv_guar _ h := h.2
  rely_guar hij _ h := World.sameCommits_commit hij h.1

variable {st s₀ reqs} {i : Nat} {w : World Store} {t : Store}

theorem ClaimsIdle.init {log : List (Commit Store)} {c : Commit Store}
    (h : ClaimsIdle reqs (log ++ [c])) : ClaimsIdle reqs log := by
  intro d hd
  exact h d (List.mem_append.mpr (Or.inl hd))

theorem ClaimsIdle.last {log : List (Commit Store)} {c : Commit Store}
    (h : ClaimsIdle reqs (log ++ [c])) : (reqs c.who).KeepsTag c.before :=
  h c (by simp)

/-- A commit accounts for what it leaves, when each entity in it was there before or is minted. -/
theorem Accounted.commit (h : Accounted st s₀ reqs w)
    (hnew : ∀ x a, rowCell x t = some a →
      (∃ b, rowCell x w.now = some b) ∨ (reqs i).mints st = some x) :
    Accounted st s₀ reqs (w.commit i fun _ => t) := by
  have hold : ∀ x u b, w.Visited u → rowCell x u = some b →
      (∃ b, rowCell x s₀ = some b) ∨
        ∃ c ∈ (w.commit i fun _ => t).log, (reqs c.who).mints st = some x := by
    intro x u b hu hb
    rcases h x u b hu hb with hstart | ⟨c, hc, hmints⟩
    · exact Or.inl hstart
    · exact Or.inr ⟨c, List.mem_append.mpr (Or.inl hc), hmints⟩
  intro x u a hu ha
  rcases World.visited_commit.mp hu with hnow | hu
  · rw [hnow] at ha
    rcases hnew x a ha with ⟨b, hb⟩ | hmints
    · exact hold x w.now b (Or.inl rfl) hb
    · exact Or.inr ⟨⟨i, w.now, t⟩, by simp [World.commit], hmints⟩
  · exact hold x u a hu ha

/-- A write that moves every row. -/
theorem tag_guar_moves (hinv : (tagContract st s₀ reqs).inv w)
    (hmoves : (reqs i).KeepsTag w.now → RowsMove w.now t) :
    (tagContract st s₀ reqs).guar i w (w.commit i fun _ => t) := by
  refine ⟨rfl, ?_⟩
  intro hidle
  obtain ⟨hhistory, haccount⟩ := hinv hidle.init
  have hmove := hmoves hidle.last
  refine ⟨fun x => (hhistory x).commit (hmove x), haccount.commit ?_⟩
  intro x a ha
  have hx := hmove x
  rw [ha] at hx
  obtain ⟨b, hb, -⟩ := hx.eq_or_lt
  exact Or.inl ⟨b, hb⟩

/-- The first write of a request that mints: the id was never there, the other rows stay. -/
theorem tag_guar_mints (hids : FreshIds st s₀ reqs) (hfresh : w.Fresh i) {id : String}
    (hid : (reqs i).mints st = some id) (hinv : (tagContract st s₀ reqs).inv w)
    (hothers : ∀ x, x ≠ id → rowCell x t = rowCell x w.now) :
    (tagContract st s₀ reqs).guar i w (w.commit i fun _ => t) := by
  refine ⟨rfl, ?_⟩
  intro hidle
  obtain ⟨hhistory, haccount⟩ := hinv hidle.init
  refine ⟨?_, haccount.commit ?_⟩
  · intro x
    by_cases hx : x = id
    · subst hx
      refine (hhistory x).born ?_
      intro u hu
      cases hcell : rowCell x u with
      | none => rfl
      | some a =>
          -- Who put it there would have minted the same id.
          rcases haccount x u a hu hcell with ⟨b, hb⟩ | ⟨c, hc, hmints⟩
          · rw [hids.untaken i x hid] at hb
            simp at hb
          · exact absurd (hids.distinct c.who i x hmints hid) (hfresh c hc)
    · refine (hhistory x).commit ?_
      show Versioned.Move (rowCell x w.now) (rowCell x t)
      rw [hothers x hx]
      exact .same _
  · intro x a ha
    by_cases hx : x = id
    · exact Or.inr (hx ▸ hid)
    · rw [hothers x hx] at ha
      exact Or.inl ⟨a, ha⟩

variable {α : Type} {Q : Except AppError α → World Store → Prop}

/-- A program all of whose writes move the rows keeps the contract. -/
theorem keepsF_tagged {R : Store → Store → Prop} {p : Handler α} (hp : Writes R p)
    (hR : ∀ s t, R s t → (reqs i).KeepsTag s → RowsMove s t) (hQ : ∀ r w', Q r w') :
    (tagContract st s₀ reqs).KeepsF i Q p w := by
  refine keepsF_of_writes (S := fun _ => True) hp (answers_true _) ?_ ?_ ?_ w trivial
  · intro _ _ _ _
    trivial
  · intro w' update hinv _ hmove
    exact ⟨tag_guar_moves hinv (hR _ _ hmove), trivial⟩
  · intro r w' _ _
    exact hQ r w'

/-- A transaction that mints, and what follows it. -/
theorem keepsF_mints (hids : FreshIds st s₀ reqs) (hfresh : w.Fresh i) {id : String}
    (hid : (reqs i).mints st = some id) {q : Stmt Unit} {f : Unit → Handler α}
    (hothers : ∀ s u t, q s = .ok (u, t) → ∀ x, x ≠ id → rowCell x t = rowCell x s)
    (hrest : Writes RowsMove (f ())) (hQ : ∀ r w', Q r w') :
    (tagContract st s₀ reqs).KeepsF i Q (execute q >>= f) w := by
  refine keepsF_execute_bind ?_ ?_
  · intro w' u t hr hinv hq
    refine ⟨tag_guar_mints hids (hfresh.rely hr) hid hinv (hothers _ u t hq), ?_⟩
    exact keepsF_tagged hrest (fun _ _ hmove _ => hmove) hQ
  · intro w' y _ hinv _
    exact ⟨tag_guar_moves hinv fun _ => RowsMove.refl _, fun _ _ _ => hQ _ _⟩

/-- Every request keeps the contract, started before it made any commit. -/
theorem ServiceRequest.keeps (hids : FreshIds st s₀ reqs) (hfresh : w.Fresh i) :
    (tagContract st s₀ reqs).KeepsF i (fun _ _ => True) ((reqs i).handle st) w := by
  have hmoves : ∀ s t, RowsMove s t → (reqs i).KeepsTag s → RowsMove s t :=
    fun _ _ hmove _ => hmove
  cases hreq : reqs i with
  | create ctx env caller typeId headers body =>
      refine keepsF_bind (keepsF_collCreate (fun _ _ _ _ => trivial) ?_)
      intro td payload resp w' htd _ hr _
      have hid : (reqs i).mints st = some (mint td env.uuid) := by
        rw [hreq, ServiceRequest.mints, htd]
        rfl
      refine keepsF_mints hids (hfresh.rely hr) hid ?_ ?_ ?_
      · intro s u t hq x hx
        exact rowCell_createTx hq hx
      · exact writes_bind (rowsMove_recordEvent _ _ _ _ _) fun _ => (readOnly_pure _).writes
      · intro r w''
        cases r with
        | ok a => exact keepsF_pure fun _ _ _ => trivial
        | error e => trivial
  | update v ctx env caller typeId id headers body =>
      have hp := rowsMove_itemUpdate v st ctx env caller typeId id headers body
      exact keepsF_tagged (writes_bind hp fun _ => (readOnly_pure _).writes) hmoves
        fun _ _ => trivial
  | delete ctx caller typeId id headers =>
      have hp := rowsMove_itemDelete st ctx caller typeId id headers
      exact keepsF_tagged (writes_bind hp fun _ => (readOnly_pure _).writes) hmoves
        fun _ _ => trivial
  | run ctx env caller fetch id =>
      have hp := rowsMove_runConnector st ctx env caller fetch id
      exact keepsF_tagged (writes_bind hp fun _ => (readOnly_pure _).writes) hmoves
        fun _ _ => trivial
  | claimAdmin caller =>
      have hp : Writes (fun s t => s.claimIdle caller.actorId = true → RowsMove s t)
          (Numu.claimAdmin caller) := by
        refine writes_bind (writes_execute (fun s _ => RowsMove.refl s) ?_) fun _ => ?_
        · intro s n t hq hidle
          exact rowsMove_promoteActor hidle hq
        · exact writes_bind (readOnly_ensure _ _).writes fun _ => (readOnly_pure _).writes
      refine keepsF_tagged (writes_bind hp fun _ => (readOnly_pure _).writes) ?_
        fun _ _ => trivial
      intro s t hmove hkeeps
      rw [hreq] at hkeeps
      exact hmove hkeeps
  | login env provider sub email name =>
      have hid : (reqs i).mints st = some ("USR_" ++ env.uuid) := by
        rw [hreq]
        rfl
      refine keepsF_bind (keepsF_query_bind ?_)
      intro w' hr _
      cases (w'.now.authIdentities.find? (provider, sub)).map AuthIdentity.actorId with
      | some actorId => exact keepsF_pure fun _ _ _ => keepsF_pure fun _ _ _ => trivial
      | none =>
          refine keepsF_mints hids (hfresh.rely hr) hid ?_ (readOnly_pure _).writes ?_
          · intro s u t hq x hx
            exact rowCell_loginTx hq hx
          · intro r w''
            cases r with
            | ok a => exact keepsF_pure fun _ _ _ => trivial
            | error e => trivial

end Service

/-! #### A claim that is not idle -/

/-- The write changes no data without the version. -/
def TagKept (s t : Store) : Prop :=
  ∀ x a b, rowCell x s = some a → rowCell x t = some b → a.version = b.version →
    a.content = b.content

/-- A claim that is not idle goes through, and sets a role that was not there. -/
theorem promoteActor_of_not_idle {actorId : String} {s : Store}
    (h : s.claimIdle actorId = false) :
    ∃ row m, s.row? actorId "actor" = some row ∧ row.data = .obj m ∧
      JsonMap.get? m "platform_role" ≠ some (.str "admin") ∧
      promoteActor actorId s = .ok (1, { s with
        entityData := s.entityData.upsert
          { row with data := .obj (JsonMap.insert m "platform_role" (.str "admin")) } }) := by
  have hnot : ¬ (s.hasAdmin = true ∨ ∀ row, s.row? actorId "actor" = some row →
      row.data.isObject = true → row.data.get? "platform_role" = some (.str "admin")) := by
    rw [← Store.claimIdle_iff, h]
    simp
  push Not at hnot
  obtain ⟨hadmin, row, hrow, hobj, hrole⟩ := hnot
  cases hdata : row.data with
  | obj m =>
      rw [hdata] at hrole
      refine ⟨row, m, hrow, hdata, hrole, ?_⟩
      simp only [promoteActor, hrow, hadmin, Bool.false_eq_true, if_false, hdata, jsonbSet]
  | null => simp [hdata, Json.isObject] at hobj
  | bool b => simp [hdata, Json.isObject] at hobj
  | num n => simp [hdata, Json.isObject] at hobj
  | str t => simp [hdata, Json.isObject] at hobj
  | arr items => simp [hdata, Json.isObject] at hobj

/-- Such a claim changes the data of its actor under the same version. -/
theorem claimIdle_of_tagKept {actorId : String} {s : Store}
    (h : TagKept s (settle (fun s => (promoteActor actorId s).mapError AppError.ofSqlx) s)) :
    s.claimIdle actorId = true := by
  by_contra hidle
  obtain ⟨row, m, hrow, hdata, hrole, hok⟩ :=
    promoteActor_of_not_idle (Bool.eq_false_iff.mpr hidle)
  have hid : row.entityId = actorId := Store.row?_entityId hrow
  simp only [settle, hok, Except.mapError] at h
  have hsame := h actorId _ _ (rowCell_eq_some (Store.row?_eq_some.mp hrow).1)
    (rowCell_upsert
      { row with data := .obj (JsonMap.insert m "platform_role" (.str "admin")) } hid rfl) rfl
  have hobj : Json.obj m = .obj (JsonMap.insert m "platform_role" (.str "admin")) :=
    hdata.symm.trans hsame
  have hget := JsonMap.get?_insert m "platform_role" (.str "admin") "platform_role"
  rw [← Json.obj.inj hobj, if_pos rfl] at hget
  exact hrole hget

theorem ServiceRequest.writes (st : AppState) (req : ServiceRequest) :
    Writes (fun s t => TagKept s t → req.KeepsTag s) (req.handle st) := by
  cases req with
  | claimAdmin caller =>
      refine writes_bind (writes_bind (writes_attempt ?_) fun _ => ?_) fun _ =>
        (readOnly_pure _).writes
      · intro s hkept
        exact claimIdle_of_tagKept hkept
      · exact writes_bind (readOnly_ensure _ _).writes fun _ => (readOnly_pure _).writes
  | create ctx env caller typeId headers body =>
      exact Resumption.writes_of_forall (fun _ _ _ => trivial) _
  | update v ctx env caller typeId id headers body =>
      exact Resumption.writes_of_forall (fun _ _ _ => trivial) _
  | delete ctx caller typeId id headers =>
      exact Resumption.writes_of_forall (fun _ _ _ => trivial) _
  | run ctx env caller fetch id =>
      exact Resumption.writes_of_forall (fun _ _ _ => trivial) _
  | login env provider sub email name =>
      exact Resumption.writes_of_forall (fun _ _ _ => trivial) _

end Numu
