/-
What an update leaves alone, and what a PUT makes of the rest.

A PUT is a true replace: the writable fields come from the payload and the
defaults, whatever was stored, and every other field is the stored one.  So a PUT
repeated changes nothing, and the writable part of its result can be put back.

The fields that are not writable are out of a client's reach altogether.  The
check of the input refuses their names and the two builders leave what they do not
name, so no sequence of updates moves one.
-/
import Numu.Lib.Canonical
import Numu.Proofs.ScopeForest

namespace Numu

open Fallible

/-! ### A true replace -/

section Put

variable {td : TypeDef} {f : FieldDef}

theorem sorted_putField {m : JsonMap} (payload : Json) (h : m.Sorted) (f : FieldDef) :
    (putField payload m f).Sorted := by
  unfold putField
  split
  · exact h
  cases given payload f with
  | some v => exact h.insert f.field v
  | none =>
      cases f.default? with
      | some d => exact h.insert f.field d
      | none => exact h.remove f.field

theorem sorted_buildPutData (td : TypeDef) {existing : Json} (payload : Json)
    (h : existing.asMap.Sorted) : (buildPutData td existing payload).asMap.Sorted := by
  unfold buildPutData
  rw [Json.asMap_obj]
  generalize td.fields = fields
  generalize existing.asMap = m at h
  induction fields generalizing m with
  | nil => exact h
  | cons f rest ih => exact ih _ (sorted_putField payload h f)

/-- The fields of a value that a client may write. -/
def TypeDef.writablePart (td : TypeDef) (data : Json) : Json :=
  .obj (data.asMap.filter fun g => (td.field g.1).any FieldDef.writable)

theorem get?_writablePart (hf : f ∈ td.fields) (data : Json) :
    (td.writablePart data).get? f.field = if f.writable = true then data.get? f.field else none := by
  unfold TypeDef.writablePart
  rw [Json.get?_obj, JsonMap.get?_filter_key data.asMap (fun k => (td.field k).any FieldDef.writable),
    TypeDef.field_eq_some.mpr ⟨hf, rfl⟩]
  rfl

/-- Of a field's value after a PUT, a second PUT makes the same. -/
theorem given_again {d : Json} {payload : Json}
    (h : d.get? f.field = (given payload f).or f.default?) :
    (given d f).or f.default? = (given payload f).or f.default? := by
  unfold given at h ⊢
  rw [h]
  cases hgiven : (payload.get? f.field).filter fun v => !v.isNull with
  | some v =>
      have hvalue : (!v.isNull) = true := (Option.filter_eq_some_iff.mp hgiven).2
      rw [Option.some_or, Option.filter_some, if_pos hvalue, Option.some_or]
  | none =>
      rw [Option.none_or]
      cases f.default? with
      | none => rfl
      | some d =>
          by_cases hnull : (!d.isNull) = true
          · rw [Option.filter_some, if_pos hnull, Option.some_or]
          · rw [Option.filter_some, if_neg hnull, Option.none_or]

/-- Two results of a PUT that agree on every field, over the same stored object, are the same. -/
theorem buildPutData_ext {existing existing' payload payload' : Json}
    (hsorted : existing.asMap.Sorted) (hsorted' : existing'.asMap.Sorted)
    (hother : ∀ k, td.field k = none → existing.get? k = existing'.get? k)
    (hfield : ∀ f ∈ td.fields, (buildPutData td existing payload).get? f.field =
      (buildPutData td existing' payload').get? f.field) :
    buildPutData td existing payload = buildPutData td existing' payload' := by
  have hmaps : (buildPutData td existing payload).asMap =
      (buildPutData td existing' payload').asMap := by
    refine (sorted_buildPutData td payload hsorted).ext
      (sorted_buildPutData td payload' hsorted') fun k => ?_
    show (buildPutData td existing payload).get? k = (buildPutData td existing' payload').get? k
    cases hk : td.field k with
    | none =>
        rw [get?_buildPutData_undeclared _ _ hk, get?_buildPutData_undeclared _ _ hk]
        exact hother k hk
    | some f =>
        obtain ⟨hf, rfl⟩ := TypeDef.field_eq_some.mp hk
        exact hfield f hf
  exact congrArg Json.obj hmaps

/-- What a client gets back of a PUT is accepted as the input of the next. -/
theorem checkInput_writablePart (td : TypeDef) (data : Json) :
    checkInput td (td.writablePart data) false = .ok () := by
  unfold checkInput
  refine (forM_ok _).mpr fun k hk => ?_
  obtain ⟨g, hg, rfl⟩ := List.mem_map.mp hk
  have hwritable := (List.mem_filter.mp hg).2
  obtain ⟨f, hf, hw⟩ := (Option.any_eq_true _ _).mp hwritable
  simp [hf, hw]

/--
**A PUT is a true replace.**  Putting the same payload again changes nothing, the writable fields do
not depend on what was stored, and the writable part of the result can be put back.
-/
theorem put_replaces (td : TypeDef) (e e' p : Json) (he : e.asMap.Sorted) :
    buildPutData td (buildPutData td e p) p = buildPutData td e p ∧
      (∀ f ∈ td.fields, f.writable = true →
        (buildPutData td e p).get? f.field = (buildPutData td e' p).get? f.field) ∧
      buildPutData td e (td.writablePart (buildPutData td e p)) = buildPutData td e p := by
  refine ⟨?_, fun f hf hw => ?_, ?_⟩
  · refine buildPutData_ext (sorted_buildPutData td p he) he
      (fun k hk => get?_buildPutData_undeclared e p hk) fun f hf => ?_
    rw [get?_buildPutData _ p hf, get?_buildPutData e p hf]
    by_cases hw : f.writable = true
    · rw [if_pos hw, if_pos hw]
    · rw [if_neg hw, if_neg hw]
  · rw [get?_buildPutData e p hf, get?_buildPutData e' p hf, if_pos hw, if_pos hw]
  · refine buildPutData_ext he he (fun _ _ => rfl) fun f hf => ?_
    rw [get?_buildPutData e _ hf, get?_buildPutData e p hf]
    by_cases hw : f.writable = true
    · rw [if_pos hw, if_pos hw]
      refine given_again ?_
      rw [get?_writablePart hf, if_pos hw, get?_buildPutData e p hf, if_pos hw]
    · rw [if_neg hw, if_neg hw]

end Put

/-- A PUT of a new title on the first case, and the writable part of its result put back. -/
theorem retitled_case_put_again :
    (buildPutData caseType firstCase.data (.obj [("title", .str "Hang")])).get? "title" =
        some (.str "Hang") ∧
      buildPutData caseType firstCase.data (caseType.writablePart
          (buildPutData caseType firstCase.data (.obj [("title", .str "Hang")]))) =
        buildPutData caseType firstCase.data (.obj [("title", .str "Hang")]) :=
  ⟨by decide, (put_replaces caseType firstCase.data .null (.obj [("title", .str "Hang")])
    (by decide)).2.2⟩

/-! ### Fields out of reach -/

/-- The request is a PUT or a PATCH of the entity. -/
inductive Request.Updates (x : String) : Request → Prop
  | intro (v : UpdateVerb) (ctx : RequestCtx) (env : Ambient) (caller : Caller) (typeId : String)
      (headers : HeaderMap) (body : Body) :
      Updates x (.update v ctx env caller typeId x headers body)

section Frozen

variable {σ τ : Service} {x typeId : String} {td : TypeDef} {row : EntityData} {r : Request}

/-- The row of an entity is of one type. -/
theorem Store.row?_unique {s : Store} {t u : String} {d e : EntityData}
    (hd : s.row? x t = some d) (he : s.row? x u = some e) : d = e ∧ t = u := by
  obtain ⟨hfind, rfl⟩ := Store.row?_eq_some.mp hd
  obtain ⟨hfind', rfl⟩ := Store.row?_eq_some.mp he
  obtain rfl := Option.some.inj (hfind.symm.trans hfind')
  exact ⟨rfl, rfl⟩

theorem Store.fieldValue_row {s : Store} (h : s.row? x typeId = some row) (k : String) :
    s.fieldValue x k = row.data.get? k := by
  unfold Store.fieldValue
  rw [(Store.row?_eq_some.mp h).1]
  rfl

theorem find?_updatedRow {s : Store} (h : s.row? x typeId = some row) (td : TypeDef) (data : Json)
    (ver : I32) (now : Timestamp) :
    (s.entityData.upsert (updatedRow td row data ver now)).find? x =
      some (updatedRow td row data ver now) := by
  have hid : row.entityId = x := Store.row?_entityId h
  exact (Table.find?_upsert _ _ _).trans (if_pos hid)

/-- An update of the entity leaves the registry and keeps the entity's type. -/
theorem Effect.kept (he : Effect σ r τ) (hr : r.Updates x) (hrow : σ.store.row? x typeId = some row) :
    τ.registry = σ.registry ∧ ∃ row', τ.store.row? x typeId = some row' := by
  cases hr with
  | intro v ctx env caller typeId' headers body =>
      cases he with
      | nothing => exact ⟨rfl, row, hrow⟩
      | @updated _ _ _ _ _ _ _ _ td' row' payload _ ver _ evs checked succ parent mirror =>
          obtain ⟨rfl, rfl⟩ := Store.row?_unique hrow checked.found
          refine ⟨rfl, updatedRow td' row (v.build td' row.data payload) ver env.now,
            Store.row?_eq_some.mpr ⟨?_, ?_⟩⟩
          · exact find?_updatedRow hrow ..
          · exact (Store.row?_eq_some.mp hrow).2

/-- What an update of the entity leaves in a field: what its verb builds there, or what was there. -/
theorem Effect.fieldValue {v : UpdateVerb} {ctx : RequestCtx} {env : Ambient} {caller : Caller}
    {typeId' : String} {headers : HeaderMap} {body : Body}
    (he : Effect σ (.update v ctx env caller typeId' x headers body) τ)
    (hrow : σ.store.row? x typeId = some row) :
    (∀ k, τ.store.fieldValue x k = σ.store.fieldValue x k) ∨
      ∃ td payload expected,
        UpdateChecked v σ.toAppState ctx caller typeId x headers body σ.store td row payload
          expected ∧
        ∀ k, τ.store.fieldValue x k = (v.build td row.data payload).get? k := by
  cases he with
  | nothing => exact Or.inl fun _ => rfl
  | @updated _ _ _ _ _ _ _ _ td' row' payload expected ver _ evs checked succ parent mirror =>
      obtain ⟨rfl, rfl⟩ := Store.row?_unique hrow checked.found
      refine Or.inr ⟨td', payload, expected, checked, fun k => ?_⟩
      show ((σ.store.entityData.upsert _).find? x).bind _ = _
      rw [find?_updatedRow hrow]
      rfl

/-- An update of the entity leaves every field that is not writable. -/
theorem Service.perform_frozen (hr : r.Updates x) (hrow : σ.store.row? x typeId = some row)
    (htd : TypeDefCache.get σ.registry typeId = some td) {f : FieldDef} (hf : f ∈ td.fields)
    (hw : f.writable = false) :
    (σ.perform r).store.fieldValue x f.field = σ.store.fieldValue x f.field := by
  cases hr with
  | intro v ctx env caller typeId' headers body =>
      rcases (σ.perform_effect _).fieldValue hrow with hsame | ⟨td', payload, _, checked, hbuilt⟩
      · exact hsame f.field
      · obtain rfl : td = td' := Option.some.inj (htd.symm.trans checked.typed)
        rw [hbuilt, checked.frozen hf hw, Store.fieldValue_row hrow]

/-- A PATCH leaves every key that its payload does not name. -/
theorem Service.patch_unnamed (ctx : RequestCtx) (env : Ambient) (caller : Caller)
    (typeId' : String) (headers : HeaderMap) (body : Body)
    (hrow : σ.store.row? x typeId = some row) {k : String}
    (hk : ∀ doc : Document, body = .ok doc → k ∉ JsonMap.keys doc.1.asMap) :
    (σ.perform (.update .patch ctx env caller typeId' x headers body)).store.fieldValue x k =
      σ.store.fieldValue x k := by
  rcases (σ.perform_effect _).fieldValue hrow with hsame | ⟨td', payload, _, checked, hbuilt⟩
  · exact hsame k
  · obtain ⟨doc, hdoc, rfl⟩ := readJson_body checked.parsed
    obtain ⟨pm, hobj, -⟩ := readJson_ok checked.parsed
    have hunnamed := hk doc hdoc
    rw [hobj] at hunnamed
    rw [hbuilt, Store.fieldValue_row hrow, hobj]
    show (mergePatch row.data (.obj pm)).get? k = _
    rw [mergePatch]
    exact get?_mergeFields_other k pm _ hunnamed

/-- Some updates of the entity leave the registry and keep the entity's type. -/
theorem Service.run_kept (reqs : List Request) (hreqs : ∀ r ∈ reqs, r.Updates x) :
    ∀ σ : Service, ∀ row, σ.store.row? x typeId = some row →
      (σ.run reqs).registry = σ.registry ∧ ∃ row', (σ.run reqs).store.row? x typeId = some row' := by
  induction reqs with
  | nil => intro σ row hrow; exact ⟨rfl, row, hrow⟩
  | cons r rest ih =>
      intro σ row hrow
      obtain ⟨hreg, row', hrow'⟩ :=
        (σ.perform_effect r).kept (hreqs r List.mem_cons_self) hrow
      obtain ⟨hreg', hlast⟩ := ih (fun q hq => hreqs q (List.mem_cons_of_mem _ hq)) _ row' hrow'
      exact ⟨hreg'.trans hreg, hlast⟩

/-- Some updates of the entity leave every field that is not writable. -/
theorem Service.run_frozen (reqs : List Request) (hreqs : ∀ r ∈ reqs, r.Updates x) {f : FieldDef}
    (hf : f ∈ td.fields) (hw : f.writable = false) :
    ∀ σ : Service, ∀ row, σ.store.row? x typeId = some row →
      TypeDefCache.get σ.registry typeId = some td →
      (σ.run reqs).store.fieldValue x f.field = σ.store.fieldValue x f.field := by
  induction reqs with
  | nil => intro σ row _ _; rfl
  | cons r rest ih =>
      intro σ row hrow htd
      have hr := hreqs r List.mem_cons_self
      obtain ⟨hreg, row', hrow'⟩ := (σ.perform_effect r).kept hr hrow
      rw [← hreg] at htd
      have hrest := ih (fun q hq => hreqs q (List.mem_cons_of_mem _ hq)) _ row' hrow' htd
      rw [hreg] at htd
      exact hrest.trans (Service.perform_frozen hr hrow htd hf hw)

end Frozen

/--
**Fields that are not writable are frozen.**  Any sequence of updates of an entity, by any callers
and with any bodies, leaves them as they were, and a PATCH at any point of it leaves every key its
payload does not name.
-/
theorem frozen_fields_kept (σ : Service) (x typeId : String) (td : TypeDef) (row : EntityData)
    (reqs : List Request) (hrow : σ.store.row? x typeId = some row)
    (htd : TypeDefCache.get σ.registry typeId = some td) (hreqs : ∀ r ∈ reqs, r.Updates x) :
    (∀ f ∈ td.fields, f.writable = false →
      (σ.run reqs).store.fieldValue x f.field = σ.store.fieldValue x f.field) ∧
    ∀ (ctx : RequestCtx) (env : Ambient) (caller : Caller) (typeId' : String)
      (headers : HeaderMap) (body : Body) (k : String),
      (∀ doc : Document, body = .ok doc → k ∉ JsonMap.keys doc.1.asMap) →
      ((σ.run reqs).perform
          (.update .patch ctx env caller typeId' x headers body)).store.fieldValue x k =
        (σ.run reqs).store.fieldValue x k := by
  refine ⟨fun f hf hw => Service.run_frozen reqs hreqs hf hw σ row hrow htd, ?_⟩
  intro ctx env caller typeId' headers body k hk
  obtain ⟨-, row', hrow'⟩ := Service.run_kept reqs hreqs σ row hrow
  exact Service.patch_unnamed ctx env caller typeId' headers body hrow' hk

/-- Alice changes the priority, and then tries to move the case to another workflow. -/
def boldRequests : List Request :=
  [.update .patch plainCtx {} alice "case" "CAS_1" versionOne (oneField "priority" "high"),
    .update .patch plainCtx {} alice "case" "CAS_1"
      { versionOne with ifMatch := some (some (etag 2)) } (oneField "workflow_id" "fast")]

/-- The priority is changed and the workflow is not. -/
theorem workflow_out_of_reach :
    ((Service.mk caseState caseStore).run boldRequests).store.fieldValue "CAS_1" "priority" =
        some (.str "high") ∧
      ((Service.mk caseState caseStore).run boldRequests).store.fieldValue "CAS_1" "workflow_id" =
        some (.str "default") := by
  refine ⟨by decide, ?_⟩
  have hreqs : ∀ r ∈ boldRequests, r.Updates "CAS_1" := by
    intro r hr
    rcases List.mem_cons.mp hr with rfl | hr
    · exact .intro ..
    · obtain rfl := List.mem_singleton.mp hr
      exact .intro ..
  have hkept := (frozen_fields_kept ⟨caseState, caseStore⟩ "CAS_1" "case" caseType firstCase
    boldRequests rfl rfl hreqs).1 workflowField (by decide) (by decide)
  exact hkept.trans rfl

end Numu
