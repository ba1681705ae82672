/-
What an answer tells.

A success says something of the database: what it holds, or what the request made of
it.  `Endpoint.Tells` lists, for every endpoint, what its answer says and what makes
that true.  A read shows rows as they were in a state that the request met, with some
of their fields left out.  A write answers for a statement that went through, and its
answer carries what the statement stored.

Nothing here depends on what the other requests do in between.  A listing reads its
rows in one state and the reach of its caller in another, and that is all that can be
said of it.
-/
import Numu.Lib.Lifetime
import Numu.Proofs.Sessions

namespace Numu

open Fallible Handler

/-! ### What is shown of a row -/

/-- The data with some of its fields left out. -/
def Shows (data shown : Json) : Prop :=
  shown = data ∨ ∃ m kept, data = .obj m ∧ shown = .obj kept ∧ kept.Sublist m

theorem answers_dropUnreadable {td : TypeDef} {rank : I32} (fields : List FieldDef) :
    ∀ m, Answers (fun kept => kept.Sublist m) (dropUnreadable td rank fields m) := by
  induction fields with
  | nil =>
      intro m
      exact answers_pure (List.Sublist.refl m)
  | cons f rest ih =>
      intro m
      refine answers_bind (answers_true _) fun floors _ => ?_
      refine answers_weaken (ih _) fun kept hkept => hkept.trans ?_
      split
      · exact List.filter_sublist
      · exact List.Sublist.refl m

/-- The read filter only leaves fields out. -/
theorem answers_filterReadable {caller : Caller} {td : TypeDef} {id : String} {data : Json} :
    Answers (Shows data) (filterReadable caller td id data) := by
  refine answers_bind (answers_true _) fun rank _ => answers_ite (answers_pure (Or.inl rfl)) ?_
  cases data with
  | obj m =>
      refine answers_bind (answers_dropUnreadable td.fields m) fun kept hkept => ?_
      exact answers_pure (Or.inr ⟨m, kept, rfl, rfl, hkept⟩)
  | null => exact answers_pure (Or.inl rfl)
  | bool b => exact answers_pure (Or.inl rfl)
  | num n => exact answers_pure (Or.inl rfl)
  | str t => exact answers_pure (Or.inl rfl)
  | arr items => exact answers_pure (Or.inl rfl)

/-- A row as an item of an answer. -/
def EntityData.ShownAs (row : EntityData) (item : Json) : Prop :=
  ∃ data, Shows row.data data ∧ item = entityJson row.entityId row.typeId data row.version

/-! ### The answers -/

section Answers

variable {ρ : Type} [LinearOrder ρ] (text : FullText ρ) (draws : Draws) (caller : Caller)
  (read : Store → Prop) (wrote : Store → Store → Prop)

/-- Endpoints that answer from the process or from the caller's rank alone. -/
def Endpoint.Untold : Endpoint → Prop
  | .collHead _ | .collOptions _ | .itemOptions _ _ | .listTypes | .getType _ | .echo _ _
  | .setLogLevel _ => True
  | _ => False

/-- The objects of a type that a caller reached in a state it met; none is all of them. -/
def Reached (reach : Store → List String) (ids : Option (List String)) : Prop :=
  caller.isPlatformAdmin = true ∧ ids = none ∨
    caller.isPlatformAdmin = false ∧ ∃ s, read s ∧ ids = some (reach s)

/-- A run and its history, as two statements loaded them. -/
def LoadedRun (id : String) (loaded : Option Json) : Prop :=
  (∃ s, read s ∧ s.featureRuns.find? id = none ∧ loaded = none) ∨
    ∃ s s' run, read s ∧ read s' ∧ s.featureRuns.find? id = some run ∧
      loaded = some (runJson run (s'.handoffsOf id))

/-- What the success of an endpoint says, and what makes it true. -/
inductive Endpoint.Tells : Endpoint → Response → Prop
  | listed {typeId : String} {q : ListParams} {s : Store} {ids : Option (List String)}
      {items : List Json} {limit offset : Int} (seen : read s)
      (reach : Reached caller read (fun s => s.reachableEntityIds caller.actorId typeId) ids)
      (bounds : limit = min (max (q.limit.getD 50) 1) 200 ∧ offset = max (q.offset.getD 0) 0)
      (shown : (s.listRows typeId ids limit offset).Forall₂ EntityData.ShownAs items) :
      Tells (.collGet typeId q) { status := 200, body := some (.mkObj [("items", .arr items),
        ("limit", .num (.int limit)), ("offset", .num (.int offset))]) }
  | got {typeId id : String} {headers : HeaderMap} {s : Store} {row : EntityData} {item : Json}
      (seen : read s) (found : s.row? id typeId = some row) (shown : row.ShownAs item) :
      Tells (.itemGet typeId id headers)
        { status := 200, etag := some (etag row.version), body := some item }
  | unmodified {typeId id : String} {headers : HeaderMap} {s : Store} {row : EntityData}
      (seen : read s) (found : s.row? id typeId = some row)
      (hit : ifNoneMatchHit headers row.version = true) :
      Tells (.itemGet typeId id headers) { status := 304, etag := some (etag row.version) }
  | headed {typeId id : String} {s : Store} {row : EntityData} (seen : read s)
      (found : s.row? id typeId = some row) :
      Tells (.itemHead typeId id) { status := 200, etag := some (etag row.version) }
  | created {typeId : String} {headers : HeaderMap} {body : Body} {td : TypeDef} {data : Json}
      {sp : Option String} {s t : Store} (type : td.typeId = typeId) (done : wrote s t)
      (h : createTx td typeId (mint td draws.uuid.text) caller.actorId data sp draws.now s =
        .ok ((), t)) :
      Tells (.collCreate typeId headers body)
        { status := 201, etag := some (etag 1),
          location := some ("/api/objects/" ++ typeId ++ "/" ++ mint td draws.uuid.text),
          body := some (entityJson (mint td draws.uuid.text) typeId data 1) }
  | updated {v : UpdateVerb} {typeId id : String} {headers : HeaderMap} {body : Body}
      {data : Json} {sp : Option String} {expected : I32} {n : Nat} {s t : Store}
      (done : wrote s t)
      (h : updateEntityData data sp id typeId expected draws.now s = .ok (n, t)) (hit : n ≠ 0)
      (mirror : typeId = "case" → ∃ s' t', wrote s' t' ∧
        upsertCaseMirror id data expected.succ s' = .ok ((), t')) :
      Tells (.itemUpdate v typeId id headers body)
        { status := 200, etag := some (etag expected.succ),
          body := some (entityJson id typeId data expected.succ) }
  | deleted {typeId id : String} {headers : HeaderMap} {expected : I32} {n : Nat} {s t : Store}
      (done : wrote s t) (h : deleteEntity id typeId expected s = .ok (n, t)) (hit : n ≠ 0) :
      Tells (.itemDelete typeId id headers) { status := 204 }
  | roster {typeId id : String} {s : Store} (seen : read s) :
      Tells (.listMembers typeId id)
        { status := 200, body := some (.mkObj [("members", .arr ((s.rosterOf id).map memberJson))]) }
  | granted {typeId id m role contextRole : String} {headers : HeaderMap} {body : Body}
      {s t : Store} (done : wrote s t)
      (h : upsertMembership id m role (some contextRole) s = .ok ((), t)) :
      Tells (.addMember typeId id headers body)
        { status := 201,
          body := some (.mkObj [("member_id", .str m), ("role", .str role),
            ("context_role", .str contextRole)]) }
  | regraded {typeId id m role : String} {contextRole : Option String} {headers : HeaderMap}
      {body : Body} {s t : Store} (done : wrote s t)
      (h : updateMembership id m role contextRole s = .ok ((), t)) :
      Tells (.setMember typeId id m headers body)
        { status := 200, body := some (.mkObj [("member_id", .str m), ("role", .str role)]) }
  | revoked {typeId id m : String} {s t : Store} (done : wrote s t)
      (h : deleteMembership id m s = .ok ((), t)) :
      Tells (.removeMember typeId id m) { status := 204 }
  | checked {typeId id name : String} {headers : HeaderMap} {body : Body} {passed : Bool}
      {note : Option String} {s t : Store} (done : wrote s t)
      (h : upsertCloseCheck { caseId := id, checkName := name, passed := passed, note := note } s =
        .ok ((), t)) :
      Tells (.recordCheck typeId id name headers body)
        { status := 200, body := some (.mkObj [("check", .str name), ("passed", .bool passed)]) }
  | related {input : RelInput} {row : RelationRow} {s t u : Store} (done : wrote s t)
      (h : insertRelation (newRelation draws caller input) s = .ok ((), t)) (seen : read u)
      (found : u.relations.find? (newRelation draws caller input).id = some row) :
      Tells (.createRelation (.ok input)) { status := 201, body := some (relationJson row) }
  | unrelated {id : String} {s t : Store} (done : wrote s t)
      (h : deleteRelationRow id s = .ok ((), t)) : Tells (.deleteRelation id) { status := 204 }
  | edges {q : RelationQuery} {entity : String} {s : Store} {ids : Option (List String)}
      (asked : q.entity = some entity) (seen : read s)
      (reach : Reached caller read (fun s => s.reachableEntityIdsAny caller.actorId) ids) :
      Tells (.listRelations q) { status := 200, body := some (.mkObj [("relations", .arr
        (((s.edgesOf entity q.relationType).filter fun r => ids.all fun set =>
          set.contains (r.other entity)).map relationJson))]) }
  | hits {qp : SearchQ} {s : Store} {ids : Option (List String)} (seen : read s)
      (reach : Reached caller read (fun s => s.reachableEntityIdsAny caller.actorId) ids) :
      Tells (.search qp) { status := 200, body := some (.mkObj [("query", .str (qp.q.getD "")),
        ("results", .arr ((text.rows s (qp.q.getD "") qp.typeId ids (searchLimit qp)).map
          (text.resultJson (qp.q.getD ""))))]) }
  | started {input : StartInput} {loaded : Option Json} {s t : Store} (done : wrote s t)
      (h : insertFeatureRun (startedRun draws input) s = .ok ((), t))
      (run : LoadedRun read (startedRun draws input).id loaded) :
      Tells (.startRun (.ok input)) { status := 201, body := some (loaded.getD .null) }
  | handed {id : String} {input : HandoffInput} {v : Verdict} {hop : Nat} {loaded : Option Json}
      {s t s' t' : Store} (done : wrote s t)
      (h : insertHandoff (handoffRow id input v hop draws.now) s = .ok ((), t)) (moved : wrote s' t')
      (h' : updateFeatureRun id v.phase v.status draws.now s' = .ok ((), t'))
      (run : LoadedRun read id loaded) :
      Tells (.recordHandoff id (.ok input)) { status := 200, body := some (loaded.getD .null) }
  | run {id : String} {loaded : Json} (h : LoadedRun read id (some loaded)) :
      Tells (.getRun id) { status := 200, body := some loaded }
  | runs {caseId : Option String} {s : Store} (seen : read s) :
      Tells (.listRuns caseId)
        { status := 200,
          body := some (.mkObj [("runs", .arr ((s.listRunRows caseId).map runSummaryJson))]) }
  | ran {id : String} {version : I32} {result : Json} {s t : Store} (done : wrote s t)
      (h : stampConnector id "active" draws.now s = .ok (version, t)) :
      Tells (.runConnector id)
        { status := 200, etag := some (etag version),
          body := some (.mkObj [("connector", .str id), ("ran", .bool true),
            ("version", .num (.int version.val)), ("result", result)]) }
  | registered {spec : TypeSpec} {s t u : Store} (done : wrote s t)
      (h : registerTx spec s = .ok ((), t)) (seen : read u) :
      Tells (.createType (.ok spec))
        { status := 201, location := some ("/api/types/" ++ spec.typeId),
          body := some (((TypeDefCache.get u.typeDefinitions spec.typeId).map typeDescriptor).getD
            .null) }
  | other {e : Endpoint} {resp : Response} (h : e.Untold) (plain : resp.etag = none) : Tells e resp

end Answers

/-- What an answer tells stays told when more is known to have been read and written. -/
theorem Endpoint.Tells.mono {ρ : Type} [LinearOrder ρ] {text : FullText ρ} {draws : Draws}
    {caller : Caller} {read read' : Store → Prop} {wrote wrote' : Store → Store → Prop}
    {e : Endpoint} {resp : Response} (h : e.Tells text draws caller read wrote resp)
    (hr : ∀ s, read s → read' s) (hw : ∀ s t, wrote s t → wrote' s t) :
    e.Tells text draws caller read' wrote' resp := by
  have hreach : ∀ {reach : Store → List String} {ids : Option (List String)},
      Reached caller read reach ids → Reached caller read' reach ids := by
    rintro reach ids (hadmin | ⟨hplain, s, hs, hids⟩)
    · exact Or.inl hadmin
    · exact Or.inr ⟨hplain, s, hr s hs, hids⟩
  have hloaded : ∀ {id : String} {loaded : Option Json}, LoadedRun read id loaded →
      LoadedRun read' id loaded := by
    rintro id loaded (⟨s, hs, hnone⟩ | ⟨s, s', run, hs, hs', hrun⟩)
    · exact Or.inl ⟨s, hr s hs, hnone⟩
    · exact Or.inr ⟨s, s', run, hr s hs, hr s' hs', hrun⟩
  cases h with
  | listed seen reach bounds shown => exact .listed (hr _ seen) (hreach reach) bounds shown
  | got seen found shown => exact .got (hr _ seen) found shown
  | unmodified seen found hit => exact .unmodified (hr _ seen) found hit
  | headed seen found => exact .headed (hr _ seen) found
  | created type done h => exact .created type (hw _ _ done) h
  | updated done h hit mirror =>
      refine .updated (hw _ _ done) h hit fun hcase => ?_
      obtain ⟨s', t', hdone, hmirror⟩ := mirror hcase
      exact ⟨s', t', hw _ _ hdone, hmirror⟩
  | deleted done h hit => exact .deleted (hw _ _ done) h hit
  | roster seen => exact .roster (hr _ seen)
  | granted done h => exact .granted (hw _ _ done) h
  | regraded done h => exact .regraded (hw _ _ done) h
  | revoked done h => exact .revoked (hw _ _ done) h
  | checked done h => exact .checked (hw _ _ done) h
  | related done h seen found => exact .related (hw _ _ done) h (hr _ seen) found
  | unrelated done h => exact .unrelated (hw _ _ done) h
  | edges asked seen reach => exact .edges asked (hr _ seen) (hreach reach)
  | hits seen reach => exact .hits (hr _ seen) (hreach reach)
  | started done h run => exact .started (hw _ _ done) h (hloaded run)
  | handed done h moved h' run => exact .handed (hw _ _ done) h (hw _ _ moved) h' (hloaded run)
  | run h => exact .run (hloaded h)
  | runs seen => exact .runs (hr _ seen)
  | ran done h => exact .ran (hw _ _ done) h
  | registered done h seen => exact .registered (hw _ _ done) h (hr _ seen)
  | other h plain => exact .other h plain

/-! ### The handlers -/

section Handlers

variable {ρ : Type} [LinearOrder ρ] {text : FullText ρ} {st : AppState} {draws : Draws}
  {ctx : RequestCtx} {caller : Caller} {typeId id : String} {headers : HeaderMap} {body : Body}

/-- The states of a memory, and its writes. -/
abbrev Told (text : FullText ρ) (draws : Draws) (caller : Caller) (e : Endpoint) (resp : Response)
    (m : List (Glance Store)) : Prop :=
  e.Tells text draws caller (fun s => .read s ∈ m) (fun s t => .write s t ∈ m) resp

/-- Every success of a handler tells what it met and did. -/
abbrev TellsOf (text : FullText ρ) (draws : Draws) (caller : Caller) (e : Endpoint)
    (h : Handler Response) : Prop :=
  ∀ m, Guarded (fun _ _ _ => True) (Told text draws caller e) h m

/-- A statement that goes through is remembered. -/
theorem guarded_done_bind {α β : Type} {q : Stmt α} {f : α → Handler β}
    {Q : β → List (Glance Store) → Prop} {m : List (Glance Store)}
    (h : ∀ s a t, q s = .ok (a, t) →
      Guarded (fun _ _ _ => True) Q (f a) (.write s t :: m)) :
    Guarded (fun _ _ _ => True) Q (execute q >>= f) m :=
  guarded_execute_bind (fun _ => trivial) fun s a t hq => ⟨trivial, h s a t hq⟩

theorem listRows_type {s : Store} {ids : Option (List String)} {limit offset : Int}
    {row : EntityData} (h : row ∈ s.listRows typeId ids limit offset) : row.typeId = typeId := by
  have hrow := List.mem_of_mem_drop (List.mem_of_mem_take h)
  rw [List.mem_insertionSort, List.mem_filter] at hrow
  have hboth := hrow.2
  simp only [Bool.and_eq_true, decide_eq_true_eq] at hboth
  exact hboth.1

theorem answers_listItems {td : TypeDef} (rows : List EntityData)
    (htype : ∀ row ∈ rows, row.typeId = typeId) :
    Answers (fun items => rows.Forall₂ EntityData.ShownAs items)
      (listItems caller td typeId rows) := by
  induction rows with
  | nil => exact answers_pure .nil
  | cons row rest ih =>
      have hrest := ih fun r hr => htype r (List.mem_cons_of_mem _ hr)
      refine answers_bind answers_filterReadable fun data hdata => ?_
      refine answers_bind hrest fun items hitems => answers_pure (.cons ⟨data, hdata, ?_⟩ hitems)
      rw [htype row List.mem_cons_self]

/-- The rows of a listing, as one state had them. -/
theorem guarded_visibleRows {limit offset : Int} (m : List (Glance Store)) :
    Guarded (fun _ _ _ => True) (fun rows m' => ∃ s ids, Glance.read s ∈ m' ∧
        Reached caller (fun s => .read s ∈ m') (fun s => s.reachableEntityIds caller.actorId typeId)
          ids ∧ rows = s.listRows typeId ids limit offset)
      (visibleRows caller typeId limit offset) m := by
  unfold visibleRows
  by_cases hadmin : caller.isPlatformAdmin = true
  · rw [if_pos hadmin]
    intro s rows hrows
    obtain rfl := Except.ok.inj hrows
    exact ⟨s, none, List.mem_cons_self, Or.inl ⟨hadmin, rfl⟩, rfl⟩
  · rw [if_neg hadmin]
    refine guarded_query_bind fun u => ?_
    intro s rows hrows
    obtain rfl := Except.ok.inj hrows
    refine ⟨s, _, List.mem_cons_self, Or.inr ⟨by simpa using hadmin, u, ?_, rfl⟩, rfl⟩
    exact List.mem_cons_of_mem _ List.mem_cons_self

theorem tells_collGet {q : ListParams} :
    TellsOf text draws caller (.collGet typeId q) (collGet st ctx caller typeId q) := by
  intro m
  refine guarded_getOr_bind fun td htd => guarded_skip_bind fun ok m₁ _ => ?_
  refine guarded_ensure_bind fun _ => ?_
  refine guarded_bind (guarded_weaken (guarded_visibleRows m₁) ?_)
  rintro rows m₂ ⟨s, ids, hs, hreach, rfl⟩
  refine guarded_readOnly_bind (readOnly_listItems _)
    (answers_listItems _ fun _ hrow => listRows_type hrow) fun items m₃ hitems hm₃ => ?_
  refine guarded_pure (.listed (hm₃.mem hs) ?_ ⟨rfl, rfl⟩ hitems)
  rcases hreach with hall | ⟨hplain, u, hu, hids⟩
  · exact Or.inl hall
  · exact Or.inr ⟨hplain, u, hm₃.mem hu, hids⟩

/-- What is read of an item is read of its row. -/
theorem guarded_rowed {α : Type} {Q : α → List (Glance Store) → Prop} {p : EntityData → Handler α}
    {m : List (Glance Store)}
    (hp : ∀ s row m', .read s ∈ m' → s.row? id typeId = some row →
      Guarded (fun _ _ _ => True) Q (p row) m') :
    Guarded (fun _ _ _ => True) Q (do
      let found ← query fun s => s.row? id typeId
      let row ← getOr found (deny404 ctx)
      p row) m :=
  guarded_query_bind fun s => guarded_getOr_bind fun row hrow => hp s row _ List.mem_cons_self hrow

theorem tells_itemGet :
    TellsOf text draws caller (.itemGet typeId id headers)
      (itemGet st ctx caller typeId id headers) := by
  intro m
  refine guarded_getOr_bind fun td _ => guarded_skip_bind fun ok m₁ _ => ?_
  refine guarded_ensure_bind fun _ => guarded_rowed fun s row m₂ hs hrow => ?_
  refine guarded_readOnly_bind readOnly_filterReadable answers_filterReadable
    fun data m₃ hdata hm₃ => ?_
  split
  · rename_i hhit
    exact guarded_pure (.unmodified (hm₃.mem hs) hrow hhit)
  · refine guarded_pure (.got (hm₃.mem hs) hrow ⟨data, hdata, ?_⟩)
    rw [Store.row?_entityId hrow, (Store.row?_eq_some.mp hrow).2]

theorem tells_itemHead :
    TellsOf text draws caller (.itemHead typeId id) (itemHead st ctx caller typeId id) := by
  intro m
  refine guarded_getOr_bind fun td _ => guarded_skip_bind fun ok m₁ _ => ?_
  refine guarded_ensure_bind fun _ => guarded_rowed fun s row m₂ hs hrow => ?_
  exact guarded_pure (.headed hs hrow)

theorem tells_collCreate :
    TellsOf text draws caller (.collCreate typeId headers body)
      (collCreate st ctx draws.ambient caller typeId headers body) := by
  intro m
  refine guarded_getOr_bind fun td htd => ?_
  refine guarded_check_bind fun payload _ => guarded_check_bind fun _ _ => ?_
  refine guarded_check_bind fun _ _ => guarded_check_bind fun _ _ => ?_
  refine guarded_check_bind fun _ _ => guarded_skip_bind fun ok m₁ _ => ?_
  refine guarded_ensure_bind fun _ => guarded_done_bind fun s u t h => ?_
  refine guarded_skip_bind fun _ m₂ hm₂ => guarded_pure ?_
  exact .created (TypeDefCache.get_typeId htd) (hm₂.mem List.mem_cons_self) h

theorem tells_itemUpdate {v : UpdateVerb} :
    TellsOf text draws caller (.itemUpdate v typeId id headers body)
      (itemUpdate v st ctx draws.ambient caller typeId id headers body) := by
  intro m
  refine guarded_getOr_bind fun td htd => guarded_skip_bind fun ok m₁ _ => ?_
  refine guarded_ensure_bind fun _ => guarded_rowed fun u row m₂ _ _ => ?_
  refine guarded_skip_bind fun checked m₃ _ => guarded_done_bind fun s n t h => ?_
  refine guarded_ensure_bind fun hit => ?_
  have hn : n ≠ 0 := of_decide_eq_true hit
  have htype : td.typeId = typeId := TypeDefCache.get_typeId htd
  by_cases hcase : td.typeId = "case"
  · rw [onlyIf, if_pos hcase]
    refine guarded_done_bind fun s' u' t' h' => guarded_skip_bind fun _ m₄ hm₄ => guarded_pure ?_
    refine .updated (hm₄.mem (List.mem_cons_of_mem _ List.mem_cons_self)) h hn fun _ => ?_
    exact ⟨s', t', hm₄.mem List.mem_cons_self, h'⟩
  · rw [onlyIf, if_neg hcase]
    refine guarded_skip_bind fun _ m₄ hm₄ => guarded_skip_bind fun _ m₅ hm₅ => guarded_pure ?_
    refine .updated (hm₅.mem (hm₄.mem List.mem_cons_self)) h hn fun hc => ?_
    exact absurd (htype.trans hc) hcase

theorem tells_itemDelete :
    TellsOf text draws caller (.itemDelete typeId id headers)
      (itemDelete st ctx caller typeId id headers) := by
  intro m
  refine guarded_getOr_bind fun td _ => guarded_skip_bind fun ok m₁ _ => ?_
  refine guarded_ensure_bind fun _ => guarded_query_bind fun u => guarded_ensure_bind fun _ => ?_
  refine guarded_check_bind fun expected _ => guarded_done_bind fun s n t h => ?_
  refine guarded_ensure_bind fun hit => guarded_skip_bind fun _ m₂ hm₂ => guarded_pure ?_
  exact .deleted (hm₂.mem List.mem_cons_self) h (of_decide_eq_true hit)

theorem tells_listMembers :
    TellsOf text draws caller (.listMembers typeId id) (listMembers ctx caller typeId id) := by
  intro m
  refine guarded_skip_bind fun _ m₁ _ => guarded_skip_bind fun _ m₂ _ => ?_
  exact guarded_query_bind fun s => guarded_pure (.roster List.mem_cons_self)

theorem tells_addMember :
    TellsOf text draws caller (.addMember typeId id headers body)
      (addMember ctx caller typeId id headers body) := by
  intro m
  refine guarded_skip_bind fun _ m₁ _ => guarded_skip_bind fun rank m₂ _ => ?_
  refine guarded_check_bind fun v _ => guarded_check_bind fun memberId _ => ?_
  refine guarded_check_bind fun role _ => guarded_skip_bind fun _ m₃ _ => ?_
  refine guarded_query_bind fun u => guarded_ensure_bind fun _ => guarded_done_bind fun s u t h => ?_
  refine guarded_skip_bind fun _ m₄ hm₄ => guarded_pure ?_
  exact .granted (hm₄.mem List.mem_cons_self) h

theorem tells_setMember {memberId : String} :
    TellsOf text draws caller (.setMember typeId id memberId headers body)
      (setMember ctx caller typeId id memberId headers body) := by
  intro m
  refine guarded_skip_bind fun _ m₁ _ => guarded_skip_bind fun rank m₂ _ => ?_
  refine guarded_check_bind fun v _ => guarded_check_bind fun role _ => ?_
  refine guarded_skip_bind fun _ m₃ _ => guarded_query_bind fun u => ?_
  refine guarded_getOr_bind fun current _ => guarded_skip_bind fun _ m₄ _ => ?_
  refine guarded_done_bind fun s u t h => guarded_skip_bind fun _ m₅ hm₅ => guarded_pure ?_
  exact .regraded (hm₅.mem List.mem_cons_self) h

theorem tells_removeMember {memberId : String} :
    TellsOf text draws caller (.removeMember typeId id memberId)
      (removeMember ctx caller typeId id memberId) := by
  intro m
  refine guarded_skip_bind fun _ m₁ _ => guarded_query_bind fun u => ?_
  refine guarded_getOr_bind fun current _ => guarded_skip_bind fun _ m₂ _ => ?_
  refine guarded_skip_bind fun _ m₃ _ => guarded_done_bind fun s u t h => ?_
  refine guarded_skip_bind fun _ m₄ hm₄ => guarded_pure ?_
  exact .revoked (hm₄.mem List.mem_cons_self) h

theorem tells_recordCheck {name : String} :
    TellsOf text draws caller (.recordCheck typeId id name headers body)
      (recordCheck ctx caller typeId id name headers body) := by
  intro m
  refine guarded_ensure_bind fun _ => guarded_skip_bind fun _ m₁ _ => ?_
  refine guarded_skip_bind fun rank m₂ _ => guarded_check_bind fun v _ => ?_
  refine guarded_done_bind fun s u t h => guarded_skip_bind fun _ m₃ hm₃ => guarded_pure ?_
  exact .checked (hm₃.mem List.mem_cons_self) h

theorem tells_createRelation {input : Except String RelInput} :
    TellsOf text draws caller (.createRelation input)
      (createRelation st ctx draws.ambient caller input) := by
  intro m
  refine guarded_check_bind fun i hi => ?_
  obtain rfl : input = .ok i := mapError_ok hi
  refine guarded_ensure_bind fun _ => guarded_ensure_bind fun _ => ?_
  refine guarded_skip_bind fun ok m₁ _ => guarded_ensure_bind fun _ => ?_
  refine guarded_done_bind fun s u t h => guarded_skip_bind fun _ m₂ hm₂ => ?_
  refine guarded_query_bind fun u => guarded_getOr_bind fun row hrow => guarded_pure ?_
  exact .related (List.mem_cons_of_mem _ (hm₂.mem List.mem_cons_self)) h List.mem_cons_self hrow

theorem tells_deleteRelation :
    TellsOf text draws caller (.deleteRelation id) (deleteRelation st ctx caller id) := by
  intro m
  refine guarded_query_bind fun u => guarded_getOr_bind fun subject _ => ?_
  refine guarded_skip_bind fun ok m₁ _ => guarded_ensure_bind fun _ => ?_
  refine guarded_done_bind fun s u t h => guarded_skip_bind fun _ m₂ hm₂ => guarded_pure ?_
  exact .unrelated (hm₂.mem List.mem_cons_self) h

/-- What the caller reaches, in the state the closure was evaluated in. -/
theorem guarded_reachableOf (m : List (Glance Store)) :
    Guarded (fun _ _ _ => True) (fun ids m' => m <:+ m' ∧ Reached caller (fun s => .read s ∈ m')
        (fun s => s.reachableEntityIdsAny caller.actorId) ids)
      (reachableOf caller) m := by
  unfold reachableOf
  by_cases hadmin : caller.isPlatformAdmin = true
  · rw [if_pos hadmin]
    exact guarded_pure ⟨List.suffix_refl m, Or.inl ⟨hadmin, rfl⟩⟩
  · rw [if_neg hadmin]
    refine guarded_query_bind fun u => guarded_pure ⟨List.suffix_cons _ m, Or.inr ?_⟩
    exact ⟨by simpa using hadmin, u, List.mem_cons_self, rfl⟩

theorem tells_listRelations {q : RelationQuery} :
    TellsOf text draws caller (.listRelations q) (listRelations st ctx caller q) := by
  intro m
  refine guarded_getOr_bind fun entity hentity => guarded_skip_bind fun ok m₁ _ => ?_
  refine guarded_ensure_bind fun _ => guarded_query_bind fun s => ?_
  refine guarded_bind (guarded_weaken (guarded_reachableOf _) fun ids m₂ hids => guarded_pure ?_)
  exact .edges hentity (hids.1.mem List.mem_cons_self) hids.2

theorem tells_search {qp : SearchQ} :
    TellsOf text draws caller (.search qp) (search text ctx caller qp) := by
  intro m
  refine guarded_ensure_bind fun _ => ?_
  by_cases hadmin : caller.isPlatformAdmin = true
  · rw [if_pos hadmin]
    refine guarded_query_bind fun s => guarded_pure ?_
    exact .hits List.mem_cons_self (Or.inl ⟨hadmin, rfl⟩)
  · rw [if_neg hadmin]
    refine guarded_query_bind fun u => guarded_query_bind fun s => guarded_pure ?_
    refine .hits List.mem_cons_self (Or.inr ⟨by simpa using hadmin, u, ?_, rfl⟩)
    exact List.mem_cons_of_mem _ List.mem_cons_self

/-- A run is loaded in one state and its history in another. -/
theorem guarded_loadRun (m : List (Glance Store)) :
    Guarded (fun _ _ _ => True)
      (fun loaded m' => m <:+ m' ∧ LoadedRun (fun s => .read s ∈ m') id loaded) (loadRun id) m := by
  refine guarded_query_bind fun s => ?_
  cases hfound : s.featureRuns.find? id with
  | none =>
      refine guarded_pure ⟨List.suffix_cons _ m, Or.inl ⟨s, List.mem_cons_self, hfound, rfl⟩⟩
  | some run =>
      refine guarded_query_bind fun s' => guarded_pure ⟨?_, Or.inr ⟨s, s', run, ?_, ?_, hfound, rfl⟩⟩
      · exact (List.suffix_cons _ m).trans (List.suffix_cons _ _)
      · exact List.mem_cons_of_mem _ List.mem_cons_self
      · exact List.mem_cons_self

theorem tells_startRun {input : Except String StartInput} :
    TellsOf text draws caller (.startRun input) (startRun st ctx draws.ambient caller input) := by
  intro m
  refine guarded_check_bind fun i hi => ?_
  obtain rfl : input = .ok i := mapError_ok hi
  refine guarded_skip_bind fun _ m₁ _ => guarded_done_bind fun s u t h => ?_
  refine guarded_skip_bind fun _ m₂ hm₂ => ?_
  refine guarded_bind (guarded_weaken (guarded_loadRun m₂) fun loaded m₃ hrun => guarded_pure ?_)
  exact .started (hrun.1.mem (hm₂.mem List.mem_cons_self)) h hrun.2

theorem tells_recordHandoff {input : Except String HandoffInput} :
    TellsOf text draws caller (.recordHandoff id input)
      (recordHandoff st ctx draws.ambient caller id input) := by
  intro m
  refine guarded_check_bind fun i hi => ?_
  obtain rfl : input = .ok i := mapError_ok hi
  refine guarded_ensure_bind fun _ => guarded_query_bind fun u => ?_
  refine guarded_getOr_bind fun run _ => guarded_skip_bind fun _ m₁ _ => ?_
  refine guarded_ensure_bind fun _ => guarded_ensure_bind fun _ => guarded_query_bind fun _ => ?_
  refine guarded_skip_bind fun retries m₂ _ => guarded_done_bind fun s _ t h => ?_
  refine guarded_done_bind fun s' _ t' h' => guarded_skip_bind fun _ m₃ hm₃ => ?_
  refine guarded_bind (guarded_weaken (guarded_loadRun m₃) fun loaded m₄ hrun => guarded_pure ?_)
  exact .handed (hrun.1.mem (hm₃.mem (List.mem_cons_of_mem _ List.mem_cons_self))) h
    (hrun.1.mem (hm₃.mem List.mem_cons_self)) h' hrun.2

theorem tells_getRun : TellsOf text draws caller (.getRun id) (getRun st ctx caller id) := by
  intro m
  refine guarded_query_bind fun u => guarded_getOr_bind fun caseId _ => ?_
  refine guarded_skip_bind fun _ m₁ _ => ?_
  refine guarded_bind (guarded_weaken (guarded_loadRun m₁) fun loaded m₂ hrun => ?_)
  refine guarded_getOr_bind fun run hsome => guarded_pure (.run ?_)
  rw [← hsome]
  exact hrun.2

theorem tells_listRuns {caseId : Option String} :
    TellsOf text draws caller (.listRuns caseId) (listRuns st ctx caller caseId) := by
  intro m
  unfold listRuns
  have hrows : ∀ {p : Handler Unit}, Guarded (fun _ _ _ => True)
      (Told text draws caller (.listRuns caseId)) (do
        p
        let rows ← query fun s => s.listRunRows caseId
        pure { status := 200, body := some (.mkObj [("runs", .arr (rows.map runSummaryJson))]) }) m :=
    guarded_skip_bind fun _ m₁ _ => guarded_query_bind fun s =>
      guarded_pure (.runs List.mem_cons_self)
  cases caseId with
  | none => exact hrows
  | some x => exact hrows

theorem tells_runConnector {fetch : String → Except AppError Json} :
    TellsOf text draws caller (.runConnector id)
      (runConnector st ctx draws.ambient caller fetch id) := by
  intro m
  refine guarded_rowed fun u row m₁ _ _ => guarded_skip_bind fun ok m₂ _ => ?_
  refine guarded_ensure_bind fun _ => guarded_ensure_bind fun _ => guarded_ensure_bind fun _ => ?_
  cases fetch ((row.data.str? "target").getD "") with
  | error e => exact guarded_skip_bind fun _ _ _ => guarded_throw _
  | ok result =>
      refine guarded_done_bind fun s version t h => guarded_skip_bind fun _ m₃ hm₃ => guarded_pure ?_
      exact .ran (hm₃.mem List.mem_cons_self) h

/-- The endpoints that are not told of answer without a tag. -/
theorem tells_untold {e : Endpoint} {h : Handler Response} (he : e.Untold)
    (hplain : Answers (fun resp => resp.etag = none) h) : TellsOf text draws caller e h := by
  intro m
  exact guarded_weaken (guarded_of_answers hplain) fun resp _ hresp => .other he hresp

theorem answers_gated {P : Response → Prop} {objectId : Option String} {action : Action}
    {p : TypeDef → Handler Response} (hp : ∀ td, Answers P (p td)) :
    Answers P (do
      let td ← resolve st typeId ctx
      let ok ← requireAction caller td objectId action
      ensure ok (deny404 ctx)
      p td) :=
  answers_bind (answers_true _) fun td _ => answers_bind (answers_true _) fun _ _ =>
    answers_bind (answers_true _) fun _ _ => hp td

theorem tells_collHead :
    TellsOf text draws caller (.collHead typeId) (collHead st ctx caller typeId) :=
  tells_untold trivial (answers_gated fun _ => answers_pure rfl)

theorem tells_collOptions :
    TellsOf text draws caller (.collOptions typeId) (collOptions st ctx caller typeId) :=
  tells_untold trivial (answers_gated fun _ => answers_bind (answers_true _) fun _ _ =>
    answers_bind (answers_true _) fun _ _ => answers_pure rfl)

theorem tells_itemOptions :
    TellsOf text draws caller (.itemOptions typeId id) (itemOptions st ctx caller typeId id) :=
  tells_untold trivial (answers_gated fun _ => answers_bind (answers_true _) fun _ _ =>
    answers_bind (answers_true _) fun _ _ => answers_bind (answers_true _) fun _ _ =>
      answers_bind (answers_true _) fun _ _ => answers_pure rfl)

theorem tells_listTypes : TellsOf text draws caller .listTypes (listTypes st) :=
  tells_untold trivial (answers_pure rfl)

theorem tells_getType :
    TellsOf text draws caller (.getType typeId) (getType st ctx typeId) :=
  tells_untold trivial (answers_bind (answers_true _) fun _ _ => answers_pure rfl)

theorem tells_echo {debug : Bool} {hs : List (String × List UInt8)} {text' : String} :
    TellsOf text draws caller (.echo hs text') (echo debug ctx caller hs text') :=
  tells_untold trivial (answers_bind (answers_true _) fun _ _ =>
    answers_bind (answers_true _) fun _ _ => answers_pure rfl)

theorem tells_setLogLevel {reload : Option (String → Bool)} {level : Except String String} :
    TellsOf text draws caller (.setLogLevel level) (setLogLevel reload ctx caller level) :=
  tells_untold trivial (answers_bind (answers_true _) fun _ _ =>
    answers_bind (answers_true _) fun _ _ => answers_bind (answers_true _) fun _ _ =>
      answers_bind (answers_true _) fun _ _ => answers_bind (answers_true _) fun _ _ =>
        answers_pure rfl)

/-- A verb that is not offered has no success. -/
theorem tells_m405 {e : Endpoint} {isItem : Bool} :
    TellsOf text draws caller e (m405 st ctx caller typeId isItem) := by
  intro m
  exact guarded_getOr_bind fun td _ => guarded_skip_bind fun _ _ _ => guarded_throw _

end Handlers

/-! ### The server -/

/-- A problem document; it has no tag. -/
def HttpReply.Failed (reply : HttpReply) : Prop :=
  reply.contentType = some "application/problem+json" ∧ reply.etag = none

namespace Server

variable {ρ : Type} [LinearOrder ρ] {D : Deployment ρ} {req : Incoming} {ctx : RequestCtx}
  {caller : Caller}

/-- What may be said of an answer, by the states that were met and the writes that were done: it
stays true when more of them are known. -/
structure Account where
  Says : (Service → Prop) → (Service → Service → Prop) → Response → Prop
  mono : ∀ {met met' : Service → Prop} {did did' : Service → Service → Prop} {resp : Response},
    Says met did resp → (∀ σ, met σ → met' σ) → (∀ σ τ, did σ τ → did' σ τ) → Says met' did' resp

/-- What is said of an answer by a memory of the service. -/
abbrev Account.Of (A : Account) (resp : Response) (m : List (Glance Service)) : Prop :=
  A.Says (Seen m) (fun σ τ => .write σ τ ∈ m) resp

/-- An account of the whole server's. -/
abbrev Account.Within (A : Account) (met : Server → Prop) (did : Server → Server → Prop)
    (resp : Response) : Prop :=
  A.Says (services met) (fun σ τ => ∃ π π', did π π' ∧ π.toService = σ ∧ π'.toService = τ) resp

/-- What the success of an endpoint tells. -/
def telling (D : Deployment ρ) (draws : Draws) (e : Endpoint) (caller : Caller) : Account where
  Says met did resp := e.Tells D.text draws caller (fun s => ∃ σ, met σ ∧ σ.store = s)
    (fun s t => ∃ σ τ, did σ τ ∧ σ.store = s ∧ τ.store = t) resp
  mono h hmet hdid := by
    refine h.mono ?_ ?_
    · rintro s ⟨σ, hσ, rfl⟩
      exact ⟨σ, hmet σ hσ, rfl⟩
    · rintro s t ⟨σ, τ, hστ, rfl, rfl⟩
      exact ⟨σ, τ, hdid σ τ hστ, rfl, rfl⟩

theorem told_handle {e : Endpoint} {h : AppState → Handler Response}
    (hh : ∀ st, TellsOf D.text req.draws caller e (h st)) (m : List (Glance Service)) :
    Guarded (fun _ _ _ => True) (telling D req.draws e caller).Of (Service.handle h) m := by
  refine guarded_query_bind fun σ => ?_
  have hzoom := guarded_zoom (z := Service.database) (m := .read σ :: m)
    (hh σ.toAppState ((Glance.read σ :: m).map (Glance.zoom Service.database)))
  refine guarded_justify (guarded_weaken hzoom fun resp m' hresp => ?_) fun _ _ _ _ _ => trivial
  refine hresp.mono (fun s hs => ?_) fun s t hst => ?_
  · exact Seen.of_zoom (z := Service.database) ⟨_, hs, rfl⟩
  · obtain ⟨g, hg, hgs⟩ := List.mem_map.mp hst
    cases g with
    | read τ => cases hgs
    | write τ υ =>
        obtain ⟨hbefore, hafter⟩ := Glance.write.inj hgs
        exact ⟨τ, υ, hg, hbefore, hafter⟩

theorem told_createType {spec : Except String TypeSpec} (m : List (Glance Service)) :
    Guarded (fun _ _ _ => True) (telling D req.draws (.createType spec) caller).Of
      (createType D.display ctx caller spec) m := by
  refine guarded_ensure_bind fun _ => guarded_check_bind fun input hinput => ?_
  obtain rfl : spec = .ok input := mapError_ok hinput
  refine guarded_query_bind fun υ => guarded_check_bind fun _ _ => ?_
  refine guarded_attempt_bind (fun σ _ τ h => ⟨trivial, ?_⟩) fun _ _ _ => trivial
  have hdone : registerTx input σ.store = .ok ((), τ.store) := by
    split at h
    · rename_i hq
      obtain ⟨-, rfl⟩ := Prod.mk.inj (Except.ok.inj h)
      exact hq
    · cases h
  refine guarded_query_bind fun loaded => guarded_skip_bind fun _ m₁ hm₁ => ?_
  refine guarded_skip_bind fun _ m₂ hm₂ => guarded_pure ?_
  have hm : Glance.read loaded :: .write σ τ :: .read υ :: m <:+ m₂ := hm₁.trans hm₂
  refine .registered ⟨σ, τ, hm.mem ?_, rfl, rfl⟩ hdone ⟨loaded, Seen.read.mono hm, rfl⟩
  exact List.mem_cons_of_mem _ List.mem_cons_self

/-- Every success of an endpoint tells what the process met and did. -/
theorem told_endpoint (e : Endpoint) (m : List (Glance Service)) :
    Guarded (fun _ _ _ => True) (telling D req.draws e caller).Of
      (endpoint D req ctx caller e) m := by
  cases e with
  | collGet => exact told_handle (fun _ => tells_collGet) m
  | collHead => exact told_handle (fun _ => tells_collHead) m
  | collCreate => exact told_handle (fun _ => tells_collCreate) m
  | collOptions => exact told_handle (fun _ => tells_collOptions) m
  | m405Coll => exact told_handle (fun _ => tells_m405) m
  | itemGet => exact told_handle (fun _ => tells_itemGet) m
  | itemHead => exact told_handle (fun _ => tells_itemHead) m
  | itemUpdate => exact told_handle (fun _ => tells_itemUpdate) m
  | itemDelete => exact told_handle (fun _ => tells_itemDelete) m
  | itemOptions => exact told_handle (fun _ => tells_itemOptions) m
  | m405Item => exact told_handle (fun _ => tells_m405) m
  | listMembers => exact told_handle (fun _ => tells_listMembers) m
  | addMember => exact told_handle (fun _ => tells_addMember) m
  | setMember => exact told_handle (fun _ => tells_setMember) m
  | removeMember => exact told_handle (fun _ => tells_removeMember) m
  | recordCheck => exact told_handle (fun _ => tells_recordCheck) m
  | listTypes => exact told_handle (fun _ => tells_listTypes) m
  | getType => exact told_handle (fun _ => tells_getType) m
  | createType => exact told_createType m
  | createRelation => exact told_handle (fun _ => tells_createRelation) m
  | listRelations => exact told_handle (fun _ => tells_listRelations) m
  | deleteRelation => exact told_handle (fun _ => tells_deleteRelation) m
  | search => exact told_handle (fun _ => tells_search) m
  | startRun => exact told_handle (fun _ => tells_startRun) m
  | listRuns => exact told_handle (fun _ => tells_listRuns) m
  | getRun => exact told_handle (fun _ => tells_getRun) m
  | recordHandoff => exact told_handle (fun _ => tells_recordHandoff) m
  | runConnector => exact told_handle (fun _ => tells_runConnector) m
  | echo => exact told_handle (fun _ => tells_echo) m
  | setLogLevel => exact told_handle (fun _ => tells_setLogLevel) m

/-! ### Every request -/

/-- What is sent is the answer of the handler, or the problem document of an error. -/
theorem respond_cases (reason : Nat → Option String) (ctx : RequestCtx) (r : Except AppError Reply) :
    (∃ e, r = .error e ∧ (respond reason ctx r).Failed) ∨
      ∃ reply, r = .ok reply ∧ (respond reason ctx r).toReply = reply := by
  unfold respond
  cases r with
  | error e =>
      refine Or.inl ⟨e, rfl, ?_⟩
      cases headerValue? ctx.requestId <;> exact ⟨rfl, rfl⟩
  | ok reply =>
      refine Or.inr ⟨reply, rfl, ?_⟩
      cases headerValue? ctx.requestId <;> rfl

/-- What is said of the answer of a program of the service is said of it in the server. -/
theorem account_onService {A : Account} {p : Fallible AppError Service Response}
    {m : List (Glance Server)}
    (hp : Guarded (fun _ _ _ => True) A.Of p (m.map (Glance.zoom service))) :
    Guarded (fun _ _ _ => True) (fun reply m' => m <:+ m' ∧
      A.Within (Seen m') (fun π π' => .write π π' ∈ m') reply.toResponse) (onService p) m := by
  have hzoom := guarded_zoom (z := service) (m := m) hp
  refine guarded_bind (guarded_weaken (guarded_suffix_of hzoom) fun resp m' hresp => ?_)
  refine guarded_pure ⟨hresp.2, A.mono hresp.1 (fun σ hσ => Seen.of_zoom hσ) fun σ τ hστ => ?_⟩
  obtain ⟨g, hg, hgs⟩ := List.mem_map.mp hστ
  cases g with
  | read π => cases hgs
  | write π π' =>
      obtain ⟨rfl, rfl⟩ := Glance.write.inj hgs
      exact ⟨π, π', hg, rfl, rfl⟩

/-- An account of the endpoint, for every caller and on any memory. -/
abbrev Accounts (D : Deployment ρ) (req : Incoming) (e : Endpoint) (A : Caller → Account) : Prop :=
  ∀ ctx caller m, Guarded (fun _ _ _ => True) (A caller).Of (endpoint D req ctx caller e) m

theorem account_serve {e : Endpoint} {A : Caller → Account} (hroute : req.route = .api e)
    (hA : Accounts D req e A) (m : List (Glance Server)) :
    (serve D req).Guarded (fun _ _ _ => True) (fun out m => ∀ reply, out = some reply →
      reply.Failed ∨ ∃ caller, Known D req (Seen m) caller ∧
        (A caller).Within (Seen m) (fun π π' => .write π π' ∈ m) reply.toResponse) m := by
  have hp : program D req (requestCtx req.requestId req.draws) = .ok (authed D req fun caller =>
      onService (endpoint D req (requestCtx req.requestId req.draws) caller e)) := by
    simp only [program, hroute]
  rw [serve_ok hp]
  refine Resumption.Guarded.bind ?_
  have hprogram : Guarded (fun _ _ _ => True) (fun reply m' => ∃ caller,
      Known D req (Seen m') caller ∧
        (A caller).Within (Seen m') (fun π π' => .write π π' ∈ m') reply.toResponse)
      (authed D req fun caller =>
        onService (endpoint D req (requestCtx req.requestId req.draws) caller e)) m := by
    refine guarded_bind (guarded_getOr_bind fun token htoken => guarded_query_bind fun π => ?_)
    cases hcaller : π.sessionCaller (sha256Hex D.sha token) req.draws.now with
    | none => exact guarded_throw _
    | some caller =>
        refine guarded_pure (guarded_weaken (account_onService (hA _ caller _)) ?_)
        intro reply m' hreply
        exact ⟨caller, ⟨token, π, htoken, Seen.read.mono hreply.1, hcaller⟩, hreply.2⟩
  refine Resumption.Guarded.weaken (fun r m' hr => ?_) hprogram
  rintro reply ⟨rfl⟩
  rcases respond_cases D.reason (requestCtx req.requestId req.draws) r with
    ⟨err, -, hfailed⟩ | ⟨out, rfl, hout⟩
  · exact Or.inl hfailed
  · have hresp : (respond D.reason (requestCtx req.requestId req.draws) (.ok out)).toResponse =
        out.toResponse := congrArg Reply.toResponse hout
    rw [hresp]
    exact Or.inr (hr out rfl)

section Runs

variable {reqs : Nat → Incoming} {p q : Pool Server (Option HttpReply)} {i : Nat}
  {reply : HttpReply} {e : Endpoint}

/-- A later pool of the same run. -/
abbrev Later (D : Deployment ρ) (reqs : Nat → Incoming) (p q : Pool Server (Option HttpReply)) :
    Prop :=
  Pool.Run (fun n => serve D (reqs n)) (fun _ _ => True) p q

/-- The states of the database between two pools. -/
def Between (p q : Pool Server (Option HttpReply)) (s : Store) : Prop :=
  ∃ π, (p.world.since q.world).Visited π ∧ π.store = s

/-- What a request committed between two pools. -/
def Committed (p q : Pool Server (Option HttpReply)) (i : Nat) (s t : Store) : Prop :=
  ∃ c ∈ (p.world.since q.world).log, c.who = i ∧ c.before.store = s ∧ c.after.store = t

/-- What is said of a success is said of the time between the start of its request and its end. -/
theorem Later.account {A : Caller → Account} (hlater : Later D reqs p q)
    (hstart : p.threads.length ≤ i) (hdone : q.Finished i (some reply))
    (hroute : (reqs i).route = .api e) (hfine : ¬ reply.Failed) (hA : Accounts D (reqs i) e A) :
    ∃ caller, Known D (reqs i) (p.world.since q.world).Visited caller ∧
      (A caller).Within (p.world.since q.world).Visited
        (fun π π' => ⟨i, π, π'⟩ ∈ (p.world.since q.world).log) reply.toResponse := by
  have hcode : ∀ n, (serve D (reqs n)).Guarded (fun _ _ _ => True)
      (fun out m => n = i → ∀ reply, out = some reply → reply.Failed ∨
        ∃ caller, Known D (reqs n) (Seen m) caller ∧
          (A caller).Within (Seen m) (fun π π' => .write π π' ∈ m) reply.toResponse) [] := by
    intro n
    by_cases hn : n = i
    · subst hn
      exact (account_serve hroute hA []).weaken fun out m h _ => h
    · have hany := (Resumption.writes_of_forall (fun _ _ => trivial) (serve D (reqs n))).guarded
        (R := fun _ _ => True) (fun _ _ _ _ => trivial) []
      exact hany.weaken fun out m _ hc => absurd hc hn
  obtain ⟨m, hheard, hseen, hwrote⟩ := Pool.Run.lived hlater hcode hstart hdone
  obtain ⟨caller, hknown, hsaid⟩ := (hheard rfl reply rfl).resolve_left hfine
  refine ⟨caller, hknown.mono hseen, (A caller).mono hsaid ?_ ?_⟩
  · rintro σ ⟨π, hπ, rfl⟩
    exact ⟨π, hseen π hπ, rfl⟩
  · rintro σ τ ⟨π, π', hdid, rfl, rfl⟩
    exact ⟨π, π', hwrote π π' hdid, rfl, rfl⟩

/-- A success tells of that time. -/
theorem Later.tells (hlater : Later D reqs p q) (hstart : p.threads.length ≤ i)
    (hdone : q.Finished i (some reply)) (hroute : (reqs i).route = .api e)
    (hfine : ¬ reply.Failed) :
    ∃ caller, Known D (reqs i) (p.world.since q.world).Visited caller ∧
      e.Tells D.text (reqs i).draws caller (Between p q) (Committed p q i) reply.toResponse := by
  obtain ⟨caller, hknown, htells⟩ := hlater.account (A := telling D (reqs i).draws e) hstart hdone
    hroute hfine fun ctx caller m => told_endpoint e m
  refine ⟨caller, hknown, Endpoint.Tells.mono htells ?_ ?_⟩
  · rintro s ⟨σ, ⟨π, hπ, rfl⟩, rfl⟩
    exact ⟨π, hπ, rfl⟩
  · rintro s t ⟨σ, τ, ⟨π, π', hdid, rfl, rfl⟩, rfl, rfl⟩
    exact ⟨_, hdid, rfl, rfl, rfl⟩

/-- A moment since another one is a moment. -/
theorem Later.visited (hlater : Later D reqs p q) {π : Server}
    (hπ : (p.world.since q.world).Visited π) : q.world.Visited π := by
  rcases hπ with rfl | ⟨c, hc, rfl⟩
  · exact Or.inl rfl
  · exact Or.inr ⟨c, Pool.Run.mem_since hlater hc, rfl⟩

end Runs

/-! ### A day with pauses -/

/-- Ada's day, but each request is started when the one before it was answered. -/
def morning : Pool Server (Option HttpReply) :=
  Pool.play (fun n => serve hosted (adasDay n)) (Pool.start booted)
    (.spawn :: List.replicate 4 (.advance 0))

def noon : Pool Server (Option HttpReply) :=
  Pool.play (fun n => serve hosted (adasDay n)) morning (.spawn :: List.replicate 9 (.advance 1))

def evening : Pool Server (Option HttpReply) :=
  Pool.play (fun n => serve hosted (adasDay n)) noon (.spawn :: List.replicate 12 (.advance 2))

theorem morning_runs : Runs hosted adasDay morning := Pool.play_run _ _ _

theorem noon_later : Later hosted adasDay morning noon := Pool.play_run _ _ _

theorem evening_later : Later hosted adasDay noon evening := Pool.play_run _ _ _

/-- The project's id, and what the answers of that day say of it. -/
def launchId : String := "PRJ_" ++ (adasDay 1).draws.uuid.text

theorem pauses_facts : morning.threads.length = 1 ∧ noon.threads.length = 2 ∧
    ((noon.answer? 1).join.map fun reply => (reply.status, reply.etag, reply.location,
      reply.contentType)) = some (201, some (etag 1),
        some ("/api/objects/" ++ "project" ++ "/" ++ launchId), some "application/json") ∧
    ((evening.answer? 2).join.map fun reply => (reply.status, reply.etag)) =
      some (200, some (etag 2)) := by
  decide +kernel

theorem noon_answer : ∃ reply, noon.Finished 1 (some reply) ∧ reply.status = 201 ∧
    reply.etag = some (etag 1) ∧
    reply.location = some ("/api/objects/" ++ "project" ++ "/" ++ launchId) ∧ ¬ reply.Failed := by
  obtain ⟨reply, hjoin, hfields⟩ := Option.map_eq_some_iff.mp pauses_facts.2.2.1
  simp only [Prod.mk.injEq] at hfields
  obtain ⟨hstatus, htag, hlocation, htype⟩ := hfields
  refine ⟨reply, Pool.finished_of_answer (Option.join_eq_some_iff.mp hjoin), hstatus, htag,
    hlocation, ?_⟩
  rintro ⟨-, hnone⟩
  rw [hnone] at htag
  cases htag

theorem evening_answer : ∃ reply, evening.Finished 2 (some reply) ∧ reply.status = 200 ∧
    reply.etag = some (etag 2) := by
  obtain ⟨reply, hjoin, hfields⟩ := Option.map_eq_some_iff.mp pauses_facts.2.2.2
  simp only [Prod.mk.injEq] at hfields
  exact ⟨reply, Pool.finished_of_answer (Option.join_eq_some_iff.mp hjoin), hfields⟩

end Server

end Numu
