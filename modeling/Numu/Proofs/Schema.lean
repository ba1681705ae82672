/-
Every stored object fits its type.

The data of a row is an object of declared fields that passes the final check of
its type: what a create builds, what a PUT or a PATCH builds over the existing
data, what the two raw statements set and what a first login assembles.  Only the
first two are checked; the others rest on the seeded types of connectors and
actors, which no registration replaces.

The same induction carries the foreign keys: every state the service reaches is
`Valid`.
-/
import Numu.Proofs.Effects
import Numu.Proofs.Deletion

namespace Numu

open Fallible Handler

/-! ### Fitting a type -/

/-- A field is there when it is required, and its value is null or of its kind. -/
structure FieldOk (f : FieldDef) (data : Json) : Prop where
  present : f.required = true → ∃ v, data.get? f.field = some v ∧ v.isNull = false
  ofKind : ∀ v, data.get? f.field = some v → v.isNull = true ∨ kindOk f v = true

theorem coerceCheck_ok {f : FieldDef} {v : Json} :
    coerceCheck f v = .ok () ↔ v.isNull = true ∨ kindOk f v = true := by
  unfold coerceCheck
  split
  · rename_i h
    simpa using h
  · rename_i h
    simpa using h

/-- The final check of one field. -/
def finalField (data : Json) (f : FieldDef) : Except AppError Unit := do
  if f.required && !((data.get? f.field).any fun v => !v.isNull) then
    .error (.unprocessable ("missing required field: " ++ f.field))
  match data.get? f.field with
  | some v => (coerceCheck f v).mapError AppError.unprocessable
  | none => .ok ()

theorem validateFinal_eq (td : TypeDef) (data : Json) :
    validateFinal td data =
      if !data.isObject then .error (.badRequest "data must be an object")
      else td.fields.forM (finalField data) := rfl

theorem finalField_ok {data : Json} {f : FieldDef} :
    finalField data f = .ok () ↔ FieldOk f data := by
  unfold finalField
  cases hget : data.get? f.field with
  | none =>
      by_cases hreq : f.required = true
      · refine ⟨fun h => ?_, fun h => ?_⟩
        · simp [hreq, bind, Except.bind] at h
        · obtain ⟨v, hv, -⟩ := h.present hreq
          rw [hget] at hv
          simp at hv
      · refine ⟨fun _ => ⟨fun hc => absurd hc hreq, ?_⟩, fun _ => ?_⟩
        · intro v hv
          rw [hget] at hv
          simp at hv
        · simp [hreq]
  | some v =>
      have hmap : (coerceCheck f v).mapError AppError.unprocessable = .ok () ↔
          coerceCheck f v = .ok () := by
        cases coerceCheck f v <;> simp [Except.mapError]
      by_cases hmiss : (f.required && !((some v).any fun v => !v.isNull)) = true
      · rw [if_pos hmiss]
        refine ⟨fun h => ?_, fun h => ?_⟩
        · simp [bind, Except.bind] at h
        · simp only [Bool.and_eq_true, Option.any_some, Bool.not_not] at hmiss
          obtain ⟨w, hw, hnull⟩ := h.present hmiss.1
          rw [hget] at hw
          rw [← Option.some.inj hw, hmiss.2] at hnull
          simp at hnull
      · rw [if_neg hmiss]
        show (coerceCheck f v).mapError AppError.unprocessable = .ok () ↔ _
        rw [hmap, coerceCheck_ok]
        refine ⟨fun h => ⟨fun hreq => ⟨v, hget, ?_⟩, fun w hw => ?_⟩, fun h => h.ofKind v hget⟩
        · simpa [hreq] using hmiss
        · rw [hget] at hw
          exact Option.some.inj hw ▸ h

/-- **What the final check says: an object, and every field as the type has it.** -/
theorem validateFinal_ok {td : TypeDef} {data : Json} :
    validateFinal td data = .ok () ↔
      (∃ m, data = .obj m) ∧ ∀ f ∈ td.fields, FieldOk f data := by
  rw [validateFinal_eq]
  cases data with
  | obj m =>
      rw [if_neg (by simp [Json.isObject]), forM_ok]
      simp only [finalField_ok]
      exact ⟨fun h => ⟨⟨m, rfl⟩, h⟩, fun h => h.2⟩
  | null => simp [Json.isObject]
  | bool b => simp [Json.isObject]
  | num n => simp [Json.isObject]
  | str t => simp [Json.isObject]
  | arr items => simp [Json.isObject]

/-- The data fits the type: every key is declared, and the final check passes. -/
structure Fits (td : TypeDef) (data : Json) : Prop where
  declared : ∀ k ∈ JsonMap.keys data.asMap, ∃ f ∈ td.fields, f.field = k
  final : validateFinal td data = .ok ()

section Fits

variable {td : TypeDef} {st : AppState} {ctx : RequestCtx} {caller : Caller} {typeId id : String}
  {headers : HeaderMap} {body : Body} {s : Store} {payload : Json}

theorem Fits.object {data : Json} (h : Fits td data) : ∃ m, data = .obj m :=
  (validateFinal_ok.mp h.final).1

/-- A key with a value is declared, when data without a declaration has none. -/
theorem declared_of_undeclared {data : Json} (h : ∀ k, td.field k = none → data.get? k = none) :
    ∀ k ∈ JsonMap.keys data.asMap, ∃ f ∈ td.fields, f.field = k := by
  intro k hk
  obtain ⟨v, hv⟩ := JsonMap.mem_keys.mp hk
  cases hf : td.field k with
  | none =>
      have hnone : JsonMap.get? data.asMap k = none := h k hf
      rw [hnone] at hv
      simp at hv
  | some f => exact ⟨f, TypeDef.field_eq_some.mp hf⟩

theorem Fits.undeclared {data : Json} (h : Fits td data) {k : String} (hk : td.field k = none) :
    data.get? k = none := by
  cases hget : data.get? k with
  | none => rfl
  | some v =>
      obtain ⟨f, hf, hfield⟩ := h.declared k (JsonMap.mem_keys.mpr ⟨v, hget⟩)
      exact absurd hfield (td.field_ne hk f hf)

/-- Setting a declared field to a value of its kind keeps the fit. -/
theorem Fits.insert {m : JsonMap} (h : Fits td (.obj m)) {f : FieldDef} (hf : f ∈ td.fields)
    {v : Json} (hnull : v.isNull = false) (hkind : kindOk f v = true) :
    Fits td (.obj (JsonMap.insert m f.field v)) where
  declared := by
    refine declared_of_undeclared fun k hk => ?_
    rw [Json.get?_obj, JsonMap.get?_insert, if_neg (td.field_ne hk f hf)]
    exact h.undeclared hk
  final := by
    refine validateFinal_ok.mpr ⟨⟨_, rfl⟩, fun g hg => ?_⟩
    have hget : (Json.obj (JsonMap.insert m f.field v)).get? g.field =
        if f.field = g.field then some v else (Json.obj m).get? g.field :=
      JsonMap.get?_insert m f.field v g.field
    by_cases hsame : f.field = g.field
    · obtain rfl : f = g := by
        have hfield := TypeDef.field_eq_some.mpr ⟨hf, hsame⟩
        exact Option.some.inj (hfield.symm.trans (TypeDef.field_eq_some.mpr ⟨hg, rfl⟩))
      rw [if_pos rfl] at hget
      refine ⟨fun _ => ⟨v, hget, hnull⟩, fun w hw => Or.inr ?_⟩
      rw [hget] at hw
      exact Option.some.inj hw ▸ hkind
    · rw [if_neg hsame] at hget
      have hold := (validateFinal_ok.mp h.final).2 g hg
      exact ⟨fun hreq => hget ▸ hold.present hreq, fun w hw => hold.ofKind w (hget ▸ hw)⟩

/-- What a create that passed its checks builds fits. -/
theorem CreateChecked.fits
    (h : CreateChecked st ctx caller typeId headers body s td payload) :
    Fits td (buildCreateData td payload) where
  declared := declared_of_undeclared fun _ hk => get?_buildCreateData_undeclared payload hk
  final := h.wellFormed

/-- What an update that passed its checks builds over fitting data fits. -/
theorem UpdateChecked.fits {v : UpdateVerb} {row : EntityData} {expected : I32}
    (h : UpdateChecked v st ctx caller typeId id headers body s td row payload expected)
    (hrow : Fits td row.data) : Fits td (v.build td row.data payload) where
  declared := by
    refine declared_of_undeclared fun k hk => ?_
    by_cases hchanged : (v.build td row.data payload).get? k = row.data.get? k
    · exact hchanged.trans (hrow.undeclared hk)
    · obtain ⟨pm, hobj, -⟩ := readJson_ok h.parsed
      rcases build_changed ⟨pm, hobj⟩ hchanged with hkey | ⟨-, f, hf, hfield, -⟩
      · obtain ⟨f, hf, -⟩ := checkInput_ok h.editable hkey
        rw [hk] at hf
        simp at hf
      · exact absurd hfield (td.field_ne hk f hf)
  final := h.wellFormed

end Fits

/-! ### The raw writers -/

/-- A run leaves a connector that fits. -/
theorem fits_stampedData {m : JsonMap} (h : Fits connectorType (.obj m)) (now : String)
    {status : String} (hstatus : status ∈ ["active", "error"]) :
    Fits connectorType (stampedData m now status) := by
  have hrun : Fits connectorType (.obj (JsonMap.insert m "last_run_at" (.str now))) :=
    h.insert (f := typeField "last_run_at" "Last run" "date" false false 7 "readonly" (.obj []))
      (by decide) rfl rfl
  refine hrun.insert (f := typeField "status" "Status" "enum" true true 5 "standard"
    (enumOptions ["draft", "active", "disabled", "error"] "draft")) (by decide) rfl ?_
  have hcases : status = "active" ∨ status = "error" := by simpa using hstatus
  rcases hcases with rfl | rfl
  · decide
  · decide

/-- A claim leaves an actor that fits. -/
theorem fits_promoted {m : JsonMap} (h : Fits actorType (.obj m)) :
    Fits actorType (.obj (JsonMap.insert m "platform_role" (.str "admin"))) :=
  h.insert (f := typeField "platform_role" "Platform role" "enum" true true 5 "owner_grade"
    (enumOptions ["member", "admin"] "member")) (by decide) rfl (by decide)

/-- The fields of an actor, in the order of their keys. -/
theorem mkObj_actor (name handle email kind role status : Json) :
    Json.mkObj [("display_name", name), ("handle", handle), ("email", email), ("kind", kind),
        ("platform_role", role), ("status", status)] =
      .obj [("display_name", name), ("email", email), ("handle", handle), ("kind", kind),
        ("platform_role", role), ("status", status)] := by
  simp only [Json.mkObj, List.foldl_cons, JsonMap.insert, String.reduceEq, ↓reduceIte,
    String.reduceLT, JsonMap.keys, List.map_nil, List.not_mem_nil, not_false_eq_true, and_true,
    List.map_cons, List.mem_cons, or_self, and_self, List.foldl_nil]

/-- A first login assembles an actor that fits. -/
theorem fits_loginActorData (actorId name : String) (email : Option String) :
    Fits actorType (loginActorData actorId name email) := by
  unfold loginActorData
  rw [mkObj_actor]
  refine ⟨?_, ?_⟩
  · show ∀ k ∈ ["display_name", "email", "handle", "kind", "platform_role", "status"],
      ∃ f ∈ actorType.fields, f.field = k
    decide
  · cases email with
    | none => rfl
    | some e => rfl

/-! ### The data of a case -/

/-- The seeded field that names the workflow. -/
def workflowField : FieldDef :=
  typeField "workflow_id" "Workflow" "ref" true false 8 "readonly"
    (.obj [("default", .str "default"), ("ref", .str "workflows")])

/-- A new case is in the default workflow, whatever its payload. -/
theorem workflow_created (payload : Json) :
    (buildCreateData caseType payload).str? "workflow_id" = some "default" := by
  have hfield : workflowField ∈ caseType.fields := by decide
  have hget := get?_buildCreateData payload hfield
  have hunset : workflowField.settable = false := by decide
  rw [hunset] at hget
  unfold Json.str?
  exact (congrArg (Option.bind · Json.asStr?) hget).trans rfl

/-- The status of a case is a state of the seeded workflow. -/
theorem caseStatus_of_final {data : Json} (h : validateFinal caseType data = .ok ()) :
    ∃ state ∈ defaultWorkflow.states, data.str? "status" = some state := by
  have hfield : typeField "status" "Status" "enum" true true 4 "standard"
      (enumOptions ["backlog", "todo", "in_progress", "in_review", "done"] "backlog") ∈
        caseType.fields := by decide
  have hok := (validateFinal_ok.mp h).2 _ hfield
  obtain ⟨v, hv, hnull⟩ := hok.present rfl
  rcases hok.ofKind v hv with hc | hkind
  · rw [hnull] at hc
    simp at hc
  obtain ⟨hstr, hmem⟩ := Bool.and_eq_true_iff.mp
    (show (v.asStr?.isSome && (defaultWorkflow.states.map Json.str).contains v) = true from hkind)
  rw [List.contains_iff_mem] at hmem
  obtain ⟨state, hstate, rfl⟩ := List.mem_map.mp hmem
  exact ⟨state, hstate, Option.bind_eq_some_iff.mpr ⟨.str state, hv, rfl⟩⟩

/-! ### References of a store that grows -/

/-- Nothing a reference can name has gone. -/
structure Store.Grows (s t : Store) : Prop where
  types : ∀ k, s.typeDefinitions.has k = true → t.typeDefinitions.has k = true
  entities : ∀ k, s.entities.has k = true → t.entities.has k = true
  roles : t.roles = s.roles
  workflows : t.workflows = s.workflows

section Grows

variable {s t : Store}

/-- A store with the same entities, types, roles and workflows. -/
theorem Store.Grows.of_eq (htypes : t.typeDefinitions = s.typeDefinitions)
    (hents : t.entities = s.entities) (hroles : t.roles = s.roles)
    (hworkflows : t.workflows = s.workflows) : s.Grows t :=
  ⟨fun _ h => htypes ▸ h, fun _ h => hents ▸ h, hroles, hworkflows⟩

theorem Store.Grows.refOk (hg : s.Grows t) {r : Option String} (h : s.refOk r = true) :
    t.refOk r = true := by
  cases r with
  | none => rfl
  | some id => exact hg.entities id h

theorem Store.Grows.memberEdgeOk (hg : s.Grows t) {m : MemberEdge}
    (h : memberEdgeOk s m = true) : memberEdgeOk t m = true := by
  unfold Numu.memberEdgeOk at h ⊢
  rw [hg.roles]
  simp only [Bool.and_eq_true] at h ⊢
  exact ⟨⟨hg.entities _ h.1.1, hg.entities _ h.1.2⟩, h.2⟩

theorem Store.Grows.caseRefsOk (hg : s.Grows t) {c : CaseRow} (h : caseRefsOk s c = true) :
    caseRefsOk t c = true := by
  unfold Numu.caseRefsOk at h ⊢
  rw [hg.workflows]
  simp only [Bool.and_eq_true] at h ⊢
  exact ⟨⟨⟨hg.entities _ h.1.1.1, h.1.1.2⟩, hg.refOk h.1.2⟩, hg.refOk h.2⟩

/-- A store that grows keeps its foreign keys, when the rows that are new have theirs. -/
theorem Store.Valid.grows (hs : s.Valid) (hg : s.Grows t)
    (hents : ∀ e ∈ t.entities, e ∈ s.entities ∨ t.typeDefinitions.has e.type = true)
    (hdata : ∀ d ∈ t.entityData, d ∈ s.entityData ∨
      t.entities.has d.entityId = true ∧ t.refOk d.scopeParentId = true)
    (hedges : ∀ m ∈ t.memberships, m ∈ s.memberships ∨ Numu.memberEdgeOk t m = true)
    (hcases : ∀ c ∈ t.cases, c ∈ s.cases ∨ Numu.caseRefsOk t c = true) : t.Valid where
  entityType := by
    intro e he
    rcases hents e he with hold | hnew
    · exact hg.types _ (hs.entityType e hold)
    · exact hnew
  dataEntity := by
    intro d hd
    rcases hdata d hd with hold | hnew
    · exact hg.entities _ (hs.dataEntity d hold)
    · exact hnew.1
  dataParent := by
    intro d hd
    rcases hdata d hd with hold | hnew
    · exact hg.refOk (hs.dataParent d hold)
    · exact hnew.2
  edgeRefs := by
    intro m hm
    rcases hedges m hm with hold | hnew
    · exact hg.memberEdgeOk (hs.edgeRefs m hold)
    · exact hnew
  caseRefs := by
    intro c hc
    rcases hcases c hc with hold | hnew
    · exact hg.caseRefsOk (hs.caseRefs c hold)
    · exact hnew

/-- The rows of a store that put one object row anew, under a parent that exists. -/
theorem Store.Valid.rowUpdated (hs : s.Valid) {row d : EntityData} (hrow : row ∈ s.entityData)
    (hdata : t.entityData = s.entityData.upsert d) (hid : d.entityId = row.entityId)
    (hparent : s.refOk d.scopeParentId = true) (hg : s.Grows t)
    (hents : t.entities = s.entities) (hedges : t.memberships = s.memberships)
    (hcases : ∀ c ∈ t.cases, c ∈ s.cases ∨ Numu.caseRefsOk t c = true) : t.Valid := by
  refine hs.grows hg ?_ ?_ ?_ hcases
  · intro e he
    exact Or.inl (hents ▸ he)
  · rw [hdata]
    refine Table.upsert_or ⟨?_, hg.refOk hparent⟩
    rw [hid]
    exact hg.entities _ (hs.dataEntity row hrow)
  · intro m hm
    exact Or.inl (hedges ▸ hm)

end Grows

/-! ### The service -/

/-- The service is sound: the published registry is the stored one and has the seeded types,
every object fits its type, and the foreign keys hold. -/
structure Service.Sound (σ : Service) : Prop where
  synced : σ.registry = σ.store.typeDefinitions
  builtin : ∀ td ∈ seededTypes, TypeDefCache.get σ.registry td.typeId = some td
  fits : ∀ d ∈ σ.store.entityData, ∃ td,
    TypeDefCache.get σ.registry d.typeId = some td ∧ Fits td d.data
  valid : σ.store.Valid

namespace Service.Sound

variable {σ τ : Service}

theorem actor (h : σ.Sound) : TypeDefCache.get σ.registry "actor" = some actorType :=
  h.builtin actorType (by decide)

theorem connector (h : σ.Sound) : TypeDefCache.get σ.registry "connector" = some connectorType :=
  h.builtin connectorType (by decide)

theorem case (h : σ.Sound) : TypeDefCache.get σ.registry "case" = some caseType :=
  h.builtin caseType (by decide)

theorem row_mem {s : Store} {id typeId : String} {row : EntityData}
    (hrow : s.row? id typeId = some row) : row ∈ s.entityData :=
  Table.mem_of_find? (Store.row?_eq_some.mp hrow).1

/-- The type of a row is the one it was asked for under. -/
theorem row_typed {s : Store} {reg : TypeDefCache} {id typeId : String} {row : EntityData}
    {td td' : TypeDef} (hrow : s.row? id typeId = some row)
    (htd : TypeDefCache.get reg typeId = some td)
    (htd' : TypeDefCache.get reg row.typeId = some td') : td = td' := by
  rw [(Store.row?_eq_some.mp hrow).2, htd] at htd'
  exact Option.some.inj htd'

/-- The row of an id fits the type it is asked for under. -/
theorem row_fits (h : σ.Sound) {id typeId : String} {row : EntityData}
    (hrow : σ.store.row? id typeId = some row) {td : TypeDef}
    (htd : TypeDefCache.get σ.registry typeId = some td) : Fits td row.data := by
  obtain ⟨td', htd', hfits⟩ := h.fits row (row_mem hrow)
  obtain rfl := row_typed hrow htd htd'
  exact hfits

/-- The rows still fit when one of them is put anew and fits. -/
theorem fits_upsert (h : σ.Sound) {row d : EntityData} {id typeId : String} {td : TypeDef}
    (hrow : σ.store.row? id typeId = some row) (htype : d.typeId = row.typeId)
    (htd : TypeDefCache.get σ.registry typeId = some td) (hfits : Fits td d.data) :
    ∀ q ∈ σ.store.entityData.upsert d, ∃ td,
      TypeDefCache.get σ.registry q.typeId = some td ∧ Fits td q.data := by
  intro q hq
  rcases Table.mem_upsert.mp hq with rfl | ⟨hold, -⟩
  · exact ⟨td, by rw [htype, (Store.row?_eq_some.mp hrow).2, htd], hfits⟩
  · exact h.fits q hold

theorem fits_insert (h : σ.Sound) {d : EntityData} {rows : Table EntityData.entityId}
    (hrows : σ.store.entityData.insert d = some rows) {td : TypeDef}
    (htd : TypeDefCache.get σ.registry d.typeId = some td) (hfits : Fits td d.data) :
    ∀ q ∈ rows, ∃ td, TypeDefCache.get σ.registry q.typeId = some td ∧ Fits td q.data := by
  intro q hq
  rcases (Table.mem_insert hrows).mp hq with hold | rfl
  · exact h.fits q hold
  · exact ⟨td, htd, hfits⟩

/-- A registration leaves the types there are. -/
theorem get_registered {reg types : TypeDefCache} {td : TypeDef} (h : reg.insert td = some types)
    {k : String} {td' : TypeDef} (hk : TypeDefCache.get reg k = some td') :
    TypeDefCache.get types k = some td' := by
  unfold TypeDefCache.get at hk ⊢
  rw [Table.find?_insert h]
  split
  · rename_i hsame
    have hfree := (Table.insert_eq_some h).1
    rw [hsame, Table.has_eq_false] at hfree
    rw [hfree] at hk
    simp at hk
  · exact hk

/-- **Every effect keeps the service sound.** -/
theorem effect {r : Request} (h : σ.Sound) (he : Effect σ r τ) : τ.Sound := by
  cases he with
  | nothing => exact h
  | created evs checked tx =>
      obtain ⟨ents, rows, e, cases, hents, hrows, -, -, -, hedge, hcases, htype, hparent, hrefs,
        rfl⟩ := createTx_ok tx
      have hgrows : ∀ k, σ.store.entities.has k = true → ents.has k = true :=
        fun k hk => (Table.has_insert hents).mpr (Or.inl hk)
      refine ⟨h.synced, h.builtin, h.fits_insert hrows checked.typed checked.fits, ?_⟩
      refine h.valid.grows ⟨fun _ hk => hk, hgrows, rfl, rfl⟩ (Table.insert_or hents htype)
        (Table.insert_or hrows ⟨(Table.has_insert hents).mpr (Or.inr rfl), hparent⟩)
        (Table.upsert_or hedge) ?_
      intro c hc
      rw [show cases = _ from hcases] at hc
      split at hc
      · rename_i hcase
        rcases Table.mem_upsert.mp hc with rfl | ⟨hold, -⟩
        · exact Or.inr (hrefs hcase)
        · exact Or.inl hold
      · exact Or.inl hc
  | updated evs checked succ parent mirror =>
      have hfits := checked.fits (h.row_fits checked.found checked.typed)
      refine ⟨h.synced, h.builtin, h.fits_upsert checked.found rfl checked.typed hfits, ?_⟩
      refine h.valid.rowUpdated (row_mem checked.found) rfl rfl parent
        (Store.Grows.of_eq rfl rfl rfl rfl) rfl rfl ?_
      intro c hc
      rcases mirror with hrows | ⟨-, hrefs, hrows⟩
      · exact Or.inl (hrows ▸ hc)
      · rw [hrows] at hc
        rcases Table.mem_upsert.mp hc with rfl | ⟨hold, -⟩
        · exact Or.inr hrefs
        · exact Or.inl hold
  | @deleted _ _ _ id _ evs =>
      have hleft := h.valid.deleted id
      refine ⟨h.synced, h.builtin, ?_, hleft.entityType, hleft.dataEntity, hleft.dataParent,
        hleft.edgeRefs, hleft.caseRefs⟩
      intro d hd
      obtain ⟨q, hq, -, rfl⟩ := Store.mem_entityData_deleted.mp hd
      rw [EntityData.orphaned_typeId, EntityData.orphaned_data]
      exact h.fits q hq
  | registered evs valid tx =>
      obtain ⟨hnodup, types, htypes, rfl⟩ := registerTx_ok tx
      have hget : ∀ k td, TypeDefCache.get σ.registry k = some td →
          TypeDefCache.get types k = some td := by
        intro k td hk
        rw [h.synced] at hk
        exact get_registered htypes hk
      refine ⟨rfl, fun td htd => hget _ td (h.builtin td htd), ?_, ?_⟩
      · intro d hd
        obtain ⟨td, htd, hfits⟩ := h.fits d hd
        exact ⟨td, hget _ td htd, hfits⟩
      · have hgrows : ∀ k, σ.store.typeDefinitions.has k = true → types.has k = true :=
          fun k hk => (Table.has_insert htypes).mpr (Or.inl hk)
        exact h.valid.grows ⟨hgrows, fun _ hk => hk, rfl, rfl⟩ (fun _ he => Or.inl he)
          (fun _ hd => Or.inl hd) (fun _ hm => Or.inl hm) fun _ hc => Or.inl hc
  | @stamped _ env _ _ _ status row m ver evs run found obj =>
      have hfits := fits_stampedData (obj ▸ h.row_fits found h.connector) env.now.text run
      have hparent := h.valid.dataParent row (row_mem found)
      refine ⟨h.synced, h.builtin, h.fits_upsert found rfl h.connector hfits, ?_⟩
      exact h.valid.rowUpdated (row_mem found) rfl rfl hparent
        (Store.Grows.of_eq rfl rfl rfl rfl) rfl rfl fun _ hc => Or.inl hc
  | @promoted _ row m found obj =>
      have hfits := fits_promoted (obj ▸ h.row_fits found h.actor)
      have hparent := h.valid.dataParent row (row_mem found)
      refine ⟨h.synced, h.builtin, h.fits_upsert found rfl h.actor hfits, ?_⟩
      exact h.valid.rowUpdated (row_mem found) rfl rfl hparent
        (Store.Grows.of_eq rfl rfl rfl rfl) rfl rfl fun _ hc => Or.inl hc
  | minted tx =>
      obtain ⟨ents, rows, ids, hents, hrows, htype, -, rfl⟩ := loginTx_ok tx
      have hgrows : ∀ k, σ.store.entities.has k = true → ents.has k = true :=
        fun k hk => (Table.has_insert hents).mpr (Or.inl hk)
      refine ⟨h.synced, h.builtin, h.fits_insert hrows h.actor (fits_loginActorData _ _ _), ?_⟩
      exact h.valid.grows ⟨fun _ hk => hk, hgrows, rfl, rfl⟩ (Table.insert_or hents htype)
        (Table.insert_or hrows ⟨(Table.has_insert hents).mpr (Or.inr rfl), rfl⟩)
        (fun _ hm => Or.inl hm) fun _ hc => Or.inl hc

theorem perform (h : σ.Sound) (r : Request) : (σ.perform r).Sound := h.effect (σ.perform_effect r)

/-- **Every run keeps the service sound.** -/
theorem run (h : σ.Sound) (reqs : List Request) : (σ.run reqs).Sound := by
  induction reqs generalizing σ with
  | nil => exact h
  | cons r rest ih => exact ih (h.perform r)

theorem seeded : Service.seeded.Sound where
  synced := rfl
  builtin := fun td htd => Table.find?_eq_some.mpr ⟨htd, rfl⟩
  fits := by
    intro d hd
    obtain rfl : d = devActor := List.mem_singleton.mp hd
    exact ⟨actorType, by decide, by decide, rfl⟩
  valid := ⟨by decide, by decide, by decide, by decide, by decide⟩

end Service.Sound

/--
**Whatever requests came, every stored object is an object of declared fields that
passes the final check of its type.**
-/
theorem stored_objects_fit (reqs : List Request) :
    ∀ d ∈ (Service.seeded.run reqs).store.entityData, ∃ td,
      TypeDefCache.get (Service.seeded.run reqs).registry d.typeId = some td ∧
        td ∈ (Service.seeded.run reqs).store.typeDefinitions ∧ (∃ m, d.data = .obj m) ∧
        (∀ k ∈ JsonMap.keys d.data.asMap, (td.field k).isSome = true) ∧
        validateFinal td d.data = .ok () := by
  intro d hd
  have hsound := Service.Sound.seeded.run reqs
  obtain ⟨td, htd, hfits⟩ := hsound.fits d hd
  refine ⟨td, htd, ?_, hfits.object, fun k hk => ?_, hfits.final⟩
  · rw [← hsound.synced]
    exact Table.mem_of_find? htd
  · obtain ⟨f, hf, rfl⟩ := hfits.declared k hk
    rw [TypeDef.field_eq_some.mpr ⟨hf, rfl⟩]
    rfl

/-- The first admin. -/
def dev : Caller := ⟨"USR_dev", true⟩

/-- Tickets, in a project. -/
def ticketSpec : TypeSpec where
  typeId := "ticket"
  idPrefix := "TIC"
  displayName := "Ticket"
  scopeParents := ["project_id"]
  fields :=
    [{ field := "project_id", kind := "ref", editable := false, options := refOptions "PRJ" },
      { field := "title", kind := "text", required := true }]

/-- A project to launch. -/
def launchBody : Body :=
  .ok ⟨.obj [("name", .str "Launch"), ("slug", .str "launch")], by simp [JsonMap.keys]⟩

/-- A type is registered, objects are written, a connector fails, an actor logs in and claims the
first admin. -/
def firstDay : List Request :=
  [.createType (fun _ => "") plainCtx dev (.ok ticketSpec),
    .create plainCtx { uuid := "1" } dev "project" versionOne launchBody,
    .create plainCtx { uuid := "1" } dev "ticket" versionOne
      (.ok ⟨.obj [("project_id", .str "PRJ_1"), ("title", .str "Broken")],
        by simp [JsonMap.keys]⟩),
    .update .patch plainCtx {} dev "ticket" "TIC_1" versionOne
      (.ok ⟨.obj [("title", .str "Fixed")], by simp [JsonMap.keys]⟩),
    .create plainCtx { uuid := "1" } dev "connector" versionOne
      (.ok ⟨.obj [("name", .str "Feed"), ("target", .str "https://feed")],
        by simp [JsonMap.keys]⟩),
    .runConnector plainCtx {} dev (fun _ => .error (AppError.unprocessable "blocked")) "CON_1",
    .login { uuid := "1" } "github" "7" none "",
    .claimAdmin ⟨"USR_1", false⟩]

/-- The ticket at the end of the day. -/
def ticketRow : EntityData where
  entityId := "TIC_1"
  typeId := "ticket"
  data := .obj [("project_id", .str "PRJ_1"), ("title", .str "Fixed")]
  scopeParentId := some "PRJ_1"
  version := 2

/-- The ticket fits the type that was registered that day. -/
theorem ticket_fits : ticketRow ∈ (Service.seeded.run firstDay).store.entityData ∧ ∃ td,
    TypeDefCache.get (Service.seeded.run firstDay).registry "ticket" = some td ∧
      td ∈ (Service.seeded.run firstDay).store.typeDefinitions ∧
      (∃ m, ticketRow.data = .obj m) ∧
      (∀ k ∈ JsonMap.keys ticketRow.data.asMap, (td.field k).isSome = true) ∧
      validateFinal td ticketRow.data = .ok () :=
  ⟨by decide, stored_objects_fit firstDay ticketRow (by decide)⟩

end Numu
