/-
The field plane: which stored fields an update touches, and which it shows.

The write gate looks at the keys of the payload; what is stored is built by
another function from the payload, the defaults and the existing data.  The two
agree for a PATCH.  A PUT also resets the writable fields the payload leaves out,
and no gate looks at those.

The read filter runs on the value a GET or a listing answers with.  An update
answers with the data it stored, which is the existing data with the payload laid
over it, and that value was never filtered.

Both results are equivalences: each names the fields at which the gate and the
value part, over the inputs of the request alone.
-/
import Numu.Proofs.Reach
import Numu.Proofs.Steps

namespace Numu

open Fallible Handler

/-! ### What the two ways of building data do to one field -/

section Fields

variable {g : JsonMap → FieldDef → JsonMap} {val : FieldDef → Option Json → Option Json}

/-- A fold that sets one field at a time leaves the keys that are no field. -/
theorem get?_foldl_other
    (hg : ∀ m f k, JsonMap.get? (g m f) k =
      if f.field = k then val f (JsonMap.get? m k) else JsonMap.get? m k) (k : String) :
    ∀ (fields : List FieldDef) (m : JsonMap), (∀ f ∈ fields, f.field ≠ k) →
      JsonMap.get? (fields.foldl g m) k = JsonMap.get? m k := by
  intro fields
  induction fields with
  | nil => intro m _; rfl
  | cons e rest ih =>
      intro m hk
      have he : e.field ≠ k := hk e (by simp)
      rw [List.foldl_cons, ih _ fun f hf => hk f (List.mem_cons_of_mem _ hf), hg, if_neg he]

/-- A fold that sets one field at a time sets each of them once. -/
theorem get?_foldl_field
    (hg : ∀ m f k, JsonMap.get? (g m f) k =
      if f.field = k then val f (JsonMap.get? m k) else JsonMap.get? m k) {f : FieldDef} :
    ∀ (fields : List FieldDef) (m : JsonMap), (fields.map FieldDef.field).Nodup → f ∈ fields →
      JsonMap.get? (fields.foldl g m) f.field = val f (JsonMap.get? m f.field) := by
  intro fields
  induction fields with
  | nil => intro m _ hf; simp at hf
  | cons e rest ih =>
      intro m hnodup hf
      rw [List.map_cons, List.nodup_cons] at hnodup
      rw [List.foldl_cons]
      rcases List.mem_cons.mp hf with rfl | hf
      · have hother : ∀ e ∈ rest, e.field ≠ f.field := by
          intro e he hc
          exact hnodup.1 (List.mem_map.mpr ⟨e, he, hc⟩)
        rw [get?_foldl_other hg _ rest _ hother, hg, if_pos rfl]
      · have hne : e.field ≠ f.field := by
          intro hc
          exact hnodup.1 (List.mem_map.mpr ⟨f, hf, hc.symm⟩)
        rw [ih _ hnodup.2 hf, hg, if_neg hne]

end Fields

theorem TypeDef.field_ne {td : TypeDef} {k : String} (hk : td.field k = none) :
    ∀ f ∈ td.fields, f.field ≠ k := by
  intro f hf hc
  rw [TypeDef.field_eq_some.mpr ⟨hf, hc⟩] at hk
  simp at hk

/-- What a PUT makes of the value of a field. -/
def putValue (payload : Json) (f : FieldDef) (old : Option Json) : Option Json :=
  if f.writable = true then (given payload f).or f.default? else old

theorem get?_putField (payload : Json) (m : JsonMap) (f : FieldDef) (k : String) :
    JsonMap.get? (putField payload m f) k =
      if f.field = k then putValue payload f (JsonMap.get? m k) else JsonMap.get? m k := by
  unfold putField putValue
  by_cases hw : f.writable = true
  · rw [if_neg (by simp [hw]), if_pos hw]
    cases given payload f with
    | some v => simp [JsonMap.get?_insert]
    | none =>
        cases f.default? with
        | some d => simp [JsonMap.get?_insert]
        | none => simp [JsonMap.get?_remove]
  · rw [if_pos (by simpa using hw), if_neg hw, ite_self]

/-- A PUT keeps a field that is not writable and sets any other to the given value or its default. -/
theorem get?_buildPutData (existing payload : Json) {td : TypeDef} {f : FieldDef}
    (hf : f ∈ td.fields) :
    (buildPutData td existing payload).get? f.field =
      if f.writable = true then (given payload f).or f.default? else existing.get? f.field := by
  unfold buildPutData
  rw [Json.get?_obj, get?_foldl_field (get?_putField payload) td.fields _ td.nodup hf]
  rfl

theorem get?_buildPutData_undeclared (existing payload : Json) {td : TypeDef} {k : String}
    (hk : td.field k = none) :
    (buildPutData td existing payload).get? k = existing.get? k := by
  unfold buildPutData
  rw [Json.get?_obj, get?_foldl_other (get?_putField payload) k td.fields _ (td.field_ne hk)]
  rfl

/-- What a create makes of the value of a field. -/
def createValue (payload : Json) (f : FieldDef) (old : Option Json) : Option Json :=
  ((if f.settable = true then given payload f else none).or f.default?).or old

/-- One field of a create. -/
def createField (payload : Json) (out : JsonMap) (f : FieldDef) : JsonMap :=
  if f.settable then
    match given payload f with
    | some v => JsonMap.insert out f.field v
    | none =>
      match f.default? with
      | some d => JsonMap.insert out f.field d
      | none => out
  else
    match f.default? with
    | some d => JsonMap.insert out f.field d
    | none => out

theorem buildCreateData_eq (td : TypeDef) (payload : Json) :
    buildCreateData td payload = .obj (td.fields.foldl (createField payload) []) := rfl

theorem get?_createField (payload : Json) (m : JsonMap) (f : FieldDef) (k : String) :
    JsonMap.get? (createField payload m f) k =
      if f.field = k then createValue payload f (JsonMap.get? m k) else JsonMap.get? m k := by
  unfold createField createValue
  by_cases hs : f.settable = true
  · rw [if_pos hs, if_pos hs]
    cases given payload f with
    | some v => simp [JsonMap.get?_insert]
    | none =>
        cases f.default? with
        | some d => simp [JsonMap.get?_insert]
        | none => simp
  · rw [if_neg hs, if_neg hs]
    cases f.default? with
    | some d => simp [JsonMap.get?_insert]
    | none => simp

/-- A create sets a field to the given value, where a client may give one, or to its default. -/
theorem get?_buildCreateData (payload : Json) {td : TypeDef} {f : FieldDef} (hf : f ∈ td.fields) :
    (buildCreateData td payload).get? f.field =
      (if f.settable = true then given payload f else none).or f.default? := by
  rw [buildCreateData_eq, Json.get?_obj,
    get?_foldl_field (get?_createField payload) td.fields _ td.nodup hf]
  simp [createValue]

theorem get?_buildCreateData_undeclared (payload : Json) {td : TypeDef} {k : String}
    (hk : td.field k = none) : (buildCreateData td payload).get? k = none := by
  rw [buildCreateData_eq, Json.get?_obj,
    get?_foldl_other (get?_createField payload) k td.fields _ (td.field_ne hk)]
  rfl

theorem mergeFields_null (t : JsonMap) (k : String) (rest : List (String × Json)) :
    mergeFields t ((k, .null) :: rest) = mergeFields (JsonMap.remove t k) rest := by
  rw [mergeFields]

theorem mergeFields_value (t : JsonMap) (k : String) {v : Json} (rest : List (String × Json))
    (hv : v ≠ .null) :
    mergeFields t ((k, v) :: rest) =
      mergeFields (JsonMap.insert (JsonMap.remove t k) k
        (mergePatch ((JsonMap.get? t k).getD .null) v)) rest := by
  rw [mergeFields]
  exact hv

/-- A merge leaves the keys it does not name. -/
theorem get?_mergeFields_other (k : String) :
    ∀ (pm : List (String × Json)) (t : JsonMap), k ∉ JsonMap.keys pm →
      JsonMap.get? (mergeFields t pm) k = JsonMap.get? t k := by
  intro pm
  induction pm with
  | nil => intro t _; rw [mergeFields]
  | cons g rest ih =>
      intro t hk
      obtain ⟨l, w⟩ := g
      have hl : l ≠ k := by rintro rfl; exact hk (by simp [JsonMap.keys])
      have hrest : k ∉ JsonMap.keys rest := fun hc => hk (List.mem_cons_of_mem _ hc)
      by_cases hw : w = .null
      · rw [hw, mergeFields_null, ih _ hrest, JsonMap.get?_remove, if_neg hl]
      · rw [mergeFields_value t l rest hw, ih _ hrest, JsonMap.get?_insert, if_neg hl,
          JsonMap.get?_remove, if_neg hl]

/-- A merge removes a key it names null, and merges any other value into what was there. -/
theorem get?_mergeFields_named {k : String} {w : Json} :
    ∀ (pm : List (String × Json)) (t : JsonMap), (JsonMap.keys pm).Nodup →
      JsonMap.get? pm k = some w →
      JsonMap.get? (mergeFields t pm) k =
        if w = .null then none else some (mergePatch ((JsonMap.get? t k).getD .null) w) := by
  intro pm
  induction pm with
  | nil => intro t _ hk; simp at hk
  | cons g rest ih =>
      intro t hnodup hk
      obtain ⟨l, w'⟩ := g
      have hcons : l ∉ JsonMap.keys rest ∧ (JsonMap.keys rest).Nodup := List.nodup_cons.mp hnodup
      rw [JsonMap.get?_cons] at hk
      by_cases hl : l = k
      · subst hl
        rw [if_pos rfl, Option.some.injEq] at hk
        subst hk
        by_cases hw : w' = .null
        · rw [hw, mergeFields_null, get?_mergeFields_other _ _ _ hcons.1, JsonMap.get?_remove,
            if_pos rfl, if_pos rfl]
        · rw [mergeFields_value t l rest hw, get?_mergeFields_other _ _ _ hcons.1,
            JsonMap.get?_insert, if_pos rfl, if_neg hw]
      · rw [if_neg hl] at hk
        by_cases hw : w' = .null
        · rw [hw, mergeFields_null, ih _ hcons.2 hk, JsonMap.get?_remove, if_neg hl]
        · rw [mergeFields_value t l rest hw, ih _ hcons.2 hk, JsonMap.get?_insert, if_neg hl,
            JsonMap.get?_remove, if_neg hl]

/-- A merge leaves a value under a key it names, unless it names it null. -/
theorem isSome_get?_mergeFields {k : String} {w : Json} (pm : List (String × Json)) (t : JsonMap)
    (hnodup : (JsonMap.keys pm).Nodup) (hk : JsonMap.get? pm k = some w) :
    (JsonMap.get? (mergeFields t pm) k).isSome = true ↔ w ≠ .null := by
  rw [get?_mergeFields_named pm t hnodup hk]
  by_cases hw : w = .null
  · simp [hw]
  · simp [hw]

/-! ### What the checks of a request say about its payload -/

theorem readJson_ok {headers : HeaderMap} {body : Body} {allowMerge : Bool} {payload : Json}
    (h : readJson headers body allowMerge = .ok payload) :
    ∃ pm, payload = .obj pm ∧ (JsonMap.keys pm).Nodup := by
  simp only [readJson] at h
  split at h
  · simp at h
  cases body with
  | error e => simp at h
  | ok v =>
      obtain ⟨value, hnodup⟩ := v
      cases value with
      | obj pm =>
          obtain rfl : Json.obj pm = payload := by simpa [Json.isObject] using h
          exact ⟨pm, rfl, hnodup⟩
      | null => simp [Json.isObject] at h
      | bool b => simp [Json.isObject] at h
      | num n => simp [Json.isObject] at h
      | str t => simp [Json.isObject] at h
      | arr items => simp [Json.isObject] at h

/-- An accepted payload is the body. -/
theorem readJson_body {headers : HeaderMap} {body : Body} {allowMerge : Bool} {payload : Json}
    (h : readJson headers body allowMerge = .ok payload) :
    ∃ doc : Document, body = .ok doc ∧ doc.1 = payload := by
  simp only [readJson] at h
  split at h
  · simp at h
  cases body with
  | error e => simp at h
  | ok doc =>
      by_cases hobj : doc.1.isObject = true
      · exact ⟨doc, rfl, by simpa [hobj] using h⟩
      · simp [hobj] at h

theorem seq_ok {ε : Type} {x y : Except ε Unit} :
    (x >>= fun _ => y) = .ok () ↔ x = .ok () ∧ y = .ok () := by
  cases x with
  | error e => simp [bind, Except.bind]
  | ok u => simp [bind, Except.bind]

theorem forM_ok {α ε : Type} {f : α → Except ε Unit} (l : List α) :
    l.forM f = .ok () ↔ ∀ a ∈ l, f a = .ok () := by
  induction l with
  | nil => simp [List.forM, pure, Except.pure]
  | cons a rest ih =>
      show (f a >>= fun _ => rest.forM f) = .ok () ↔ _
      rw [seq_ok, ih, List.forall_mem_cons]

/-- Every key of an accepted payload is a writable field of the type. -/
theorem checkInput_ok {td : TypeDef} {payload : Json} (h : checkInput td payload false = .ok ())
    {k : String} (hk : k ∈ JsonMap.keys payload.asMap) :
    ∃ f, td.field k = some f ∧ f.writable = true := by
  unfold checkInput at h
  have hone := (forM_ok _).mp h k hk
  cases hf : td.field k with
  | none => simp [hf] at hone
  | some f =>
      simp only [hf, Bool.false_and, Bool.not_false, Bool.true_and] at hone
      by_cases hw : f.writable = true
      · exact ⟨f, rfl, hw⟩
      · simp [hw] at hone

/-! ### Writing -/

/-- The stored value of a field. -/
def Store.fieldValue (s : Store) (id k : String) : Option Json :=
  (s.entityData.find? id).bind fun d => d.data.get? k

/-- Every field that changed is one the rank may write. -/
def WriteSafe (s s' : Store) (td : TypeDef) (id : String) (rank : I32) : Prop :=
  ∀ k, s'.fieldValue id k ≠ s.fieldValue id k →
    ∃ f, td.field k = some f ∧ (s.fieldFloors td.typeId k f.permClass).2 ≤ rank

/--
A PUT that leaves out a writable field whose write floor is above the rank and
whose stored value is not its default.
-/
def SilentReset (v : UpdateVerb) (s : Store) (td : TypeDef) (existing payload : Json)
    (rank : I32) : Prop :=
  v = .put ∧ ∃ f ∈ td.fields, f.writable = true ∧ payload.get? f.field = none ∧
    existing.get? f.field ≠ f.default? ∧ rank < (s.fieldFloors td.typeId f.field f.permClass).2

theorem given_eq_none {payload : Json} {f : FieldDef} (h : payload.get? f.field = none) :
    given payload f = none := by
  unfold given
  rw [h]
  rfl

/-- A key that an update changes is named by the payload, or is reset by a PUT. -/
theorem build_changed {v : UpdateVerb} {td : TypeDef} {existing payload : Json} {k : String}
    (hobj : ∃ pm, payload = .obj pm)
    (h : (v.build td existing payload).get? k ≠ existing.get? k) :
    k ∈ JsonMap.keys payload.asMap ∨
      (v = .put ∧ ∃ f ∈ td.fields, f.field = k ∧ f.writable = true ∧
        payload.get? f.field = none ∧ existing.get? f.field ≠ f.default?) := by
  by_cases hk : k ∈ JsonMap.keys payload.asMap
  · exact Or.inl hk
  have hnone : payload.get? k = none := by
    cases hget : payload.get? k with
    | none => rfl
    | some w => exact absurd (JsonMap.mem_keys.mpr ⟨w, hget⟩) hk
  refine Or.inr ?_
  cases v with
  | patch =>
      obtain ⟨pm, rfl⟩ := hobj
      refine absurd ?_ h
      show (mergePatch existing (.obj pm)).get? k = existing.get? k
      rw [mergePatch, Json.get?_obj, get?_mergeFields_other k pm _ hk]
      rfl
  | put =>
      cases hf : td.field k with
      | none => exact absurd (get?_buildPutData_undeclared existing payload hf) h
      | some f =>
          obtain ⟨hmem, rfl⟩ := TypeDef.field_eq_some.mp hf
          refine ⟨rfl, f, hmem, rfl, ?_⟩
          have hbuild := get?_buildPutData existing payload hmem
          rw [given_eq_none hnone, Option.none_or] at hbuild
          by_cases hw : f.writable = true
          · rw [if_pos hw] at hbuild
            exact ⟨hw, hnone, fun hc => h (hbuild.trans hc.symm)⟩
          · rw [if_neg hw] at hbuild
            exact absurd hbuild h

/-- A field that is not writable is left by every accepted update. -/
theorem build_frozen {v : UpdateVerb} {td : TypeDef} {existing payload : Json}
    (hobj : ∃ pm, payload = .obj pm) (heditable : checkInput td payload false = .ok ())
    {f : FieldDef} (hf : f ∈ td.fields) (hw : f.writable = false) :
    (v.build td existing payload).get? f.field = existing.get? f.field := by
  by_contra hchanged
  have hfield : td.field f.field = some f := TypeDef.field_eq_some.mpr ⟨hf, rfl⟩
  rcases build_changed hobj hchanged with hkey | ⟨-, g, hg, hname, hwrite, -⟩
  · obtain ⟨g, hg, hwrite⟩ := checkInput_ok heditable hkey
    obtain rfl : f = g := Option.some.inj (hfield.symm.trans hg)
    rw [hw] at hwrite
    simp at hwrite
  · obtain rfl : g = f :=
      Option.some.inj ((TypeDef.field_eq_some.mpr ⟨hg, hname⟩).symm.trans hfield)
    rw [hw] at hwrite
    simp at hwrite

/-- An update that was answered stored what its verb built. -/
theorem itemUpdate_stored {v : UpdateVerb} {st : AppState} {ctx : RequestCtx} {env : Ambient}
    {caller : Caller} {typeId id : String} {headers : HeaderMap} {body : Body} {s s' : Store}
    {resp : Response}
    (h : exec (itemUpdate v st ctx env caller typeId id headers body) s = (.ok resp, s')) :
    ∃ td row payload expected,
      UpdateChecked v st ctx caller typeId id headers body s td row payload expected ∧
      (∀ k, s.fieldValue id k = row.data.get? k) ∧
      (∀ k, s'.fieldValue id k = (v.build td row.data payload).get? k) ∧
      ∃ ver, resp = { status := 200, etag := some (etag ver),
                      body := some (entityJson id typeId (v.build td row.data payload) ver) } := by
  rcases itemUpdate_cases with ⟨e, hfail⟩ | ⟨td, row, payload, expected, hchecked⟩
  · rw [hfail] at h
    simp at h
  rw [hchecked.exec_eq] at h
  obtain ⟨row', ver, s₂, evs, hrow', -, -, -, hmirror, rfl, rfl⟩ := updateWrites_ok h
  obtain rfl : row = row' := Option.some.inj (hchecked.found.symm.trans hrow')
  have hid := Store.row?_entityId hrow'
  have hdata : s₂.entityData = s.entityData.upsert
      (updatedRow td row (v.build td row.data payload) ver env.now) := by
    rcases exec_onlyIf_ok.mp hmirror with ⟨-, hmirror⟩ | ⟨-, rfl⟩
    · rw [(upsertCase_ok (exec_execute_ok.mp hmirror)).2]
    · rfl
  refine ⟨td, row, payload, expected, hchecked, ?_, ?_, ver, rfl⟩
  · intro k
    unfold Store.fieldValue
    rw [(Store.row?_eq_some.mp hrow').1]
    rfl
  · intro k
    show (s₂.entityData.find? id).bind _ = _
    have hkey : (updatedRow td row (v.build td row.data payload) ver env.now).entityId = id := hid
    rw [hdata, Table.find?_upsert, if_pos hkey]
    rfl

/--
**An update changes only fields the caller may write, exactly unless it is a PUT
that leaves out a field above the caller's write floor that is not at its
default.**
-/
theorem update_writeSafe_iff (v : UpdateVerb) (st : AppState) (ctx : RequestCtx) (env : Ambient)
    (caller : Caller) (typeId id : String) (headers : HeaderMap) (body : Body) (s s' : Store)
    (resp : Response) (td : TypeDef) (row : EntityData) (payload : Json) (rank : I32)
    (hadmin : caller.isPlatformAdmin = false)
    (hrank : s.effectiveRank caller.actorId id = some rank)
    (htd : TypeDefCache.get st.registry typeId = some td) (hrow : s.row? id typeId = some row)
    (hbody : readJson headers body v.allowMerge = .ok payload)
    (h : exec (itemUpdate v st ctx env caller typeId id headers body) s = (.ok resp, s')) :
    WriteSafe s s' td id rank ↔ ¬ SilentReset v s td row.data payload rank := by
  obtain ⟨td', row', payload', expected, hchecked, hbefore, hafter, -⟩ := itemUpdate_stored h
  obtain rfl : td = td' := Option.some.inj (htd.symm.trans hchecked.typed)
  obtain rfl : row = row' := Option.some.inj (hrow.symm.trans hchecked.found)
  obtain rfl : payload = payload' := Except.ok.inj (hbody.symm.trans hchecked.parsed)
  have hcallerRank : s.callerRank caller id = rank := by
    unfold Store.callerRank
    rw [if_neg (by simp [hadmin]), hrank]
    rfl
  obtain ⟨pm, hpm, -⟩ := readJson_ok hbody
  unfold WriteSafe
  simp only [hbefore, hafter]
  refine ⟨fun hsafe => ?_, fun hkept => ?_⟩
  · intro hreset
    obtain ⟨rfl, f, hf, hw, habsent, hvalue, hlt⟩ := hreset
    have hbuild := get?_buildPutData row.data payload hf
    rw [if_pos hw, given_eq_none habsent, Option.none_or] at hbuild
    obtain ⟨g, hg, hfloor⟩ := hsafe f.field fun hc => hvalue (hc.symm.trans hbuild)
    obtain rfl : f = g := by
      have hfield := TypeDef.field_eq_some.mpr ⟨hf, rfl⟩
      exact Option.some.inj (hfield.symm.trans hg)
    exact absurd hfloor (not_le.mpr hlt)
  · intro k hk
    rcases build_changed ⟨pm, hpm⟩ hk with hkey | ⟨rfl, f, hf, rfl, hw, habsent, hvalue⟩
    · -- A key of the payload went through the gate.
      obtain ⟨f, hf, -⟩ := checkInput_ok hchecked.editable hkey
      exact ⟨f, hf, hcallerRank ▸ requireWrite_ok hchecked.permitted k hkey f hf⟩
    · refine ⟨f, TypeDef.field_eq_some.mpr ⟨hf, rfl⟩, ?_⟩
      by_contra hlt
      exact hkept ⟨rfl, f, hf, hw, habsent, hvalue, not_le.mp hlt⟩

/-! #### A member's PUT erases an owner-grade field -/

/-- The actor another actor is a member on. -/
def sharedActor : EntityData where
  entityId := "USR_x"
  typeId := "actor"
  data := .obj [("display_name", .str "X"), ("email", .str "x@example.com"), ("handle", .str "x"),
    ("kind", .str "human"), ("platform_role", .str "member"), ("status", .str "active")]

def sharedActorStore : Store where
  typeDefinitions := ⟨[actorType], by decide⟩
  entities := ⟨[⟨"USR_alice", "actor", none⟩, ⟨"USR_x", "actor", none⟩], by decide⟩
  entityData := ⟨[sharedActor], by decide⟩
  memberships := ⟨[{ objectId := "USR_x", memberId := "USR_alice", role := "member" }], by decide⟩
  roles := seededRoles

def actorState : AppState := ⟨⟨[actorType], by decide⟩, ∅⟩

def plainCtx : RequestCtx := ⟨"req", "trace"⟩

def alice : Caller := ⟨"USR_alice", false⟩

/-- A JSON request that expects version one. -/
def versionOne : HeaderMap where
  contentType := some (some "application/json")
  ifMatch := some (some "W/\"1\"")

/-- A new name and nothing else. -/
def renameBody : Body :=
  .ok ⟨.obj [("display_name", .str "Y"), ("handle", .str "x")], by decide⟩

theorem sharedActorStore_valid : sharedActorStore.Valid where
  entityType := by decide
  dataEntity := by decide
  dataParent := by decide
  edgeRefs := by decide
  caseRefs := by decide

/-- A member's PUT of two standard fields erases the email only an owner may write. -/
theorem member_put_erases_email :
    sharedActorStore.Valid ∧ sharedActorStore.effectiveRank "USR_alice" "USR_x" = some 2 ∧
      ∃ resp s', exec (itemPut actorState plainCtx {} alice "actor" "USR_x" versionOne renameBody)
          sharedActorStore = (.ok resp, s') ∧
        ¬ WriteSafe sharedActorStore s' actorType "USR_x" 2 := by
  refine ⟨sharedActorStore_valid, by decide, _, _, rfl, ?_⟩
  intro h
  obtain ⟨f, hf, hfloor⟩ := h "email" (by decide)
  obtain rfl := Option.some.inj (hf.symm.trans (by rfl : actorType.field "email" = some _))
  exact absurd hfloor (by decide)

/-- The same two fields as a PATCH touch nothing else. -/
theorem member_patch_writeSafe :
    ∃ resp s', exec (itemPatch actorState plainCtx {} alice "actor" "USR_x" versionOne renameBody)
        sharedActorStore = (.ok resp, s') ∧ WriteSafe sharedActorStore s' actorType "USR_x" 2 := by
  refine ⟨_, _, rfl, ?_⟩
  refine (update_writeSafe_iff .patch actorState plainCtx {} alice "actor" "USR_x" versionOne
    renameBody sharedActorStore _ _ actorType sharedActor _ 2 rfl (by decide) rfl rfl rfl rfl).mpr ?_
  intro h
  exact absurd h.1 (by decide)

/-! ### Reading -/

/-- The requests that answer with entity data. -/
inductive ObjectRequest where
  | get (id : String) (headers : HeaderMap)
  | list (q : ListParams)
  | update (v : UpdateVerb) (env : Ambient) (id : String) (headers : HeaderMap) (body : Body)

def ObjectRequest.handle (st : AppState) (ctx : RequestCtx) (caller : Caller) (typeId : String) :
    ObjectRequest → Handler Response
  | .get id headers => itemGet st ctx caller typeId id headers
  | .list q => collGet st ctx caller typeId q
  | .update v env id headers body => itemUpdate v st ctx env caller typeId id headers body

/-- The value is an entity `x` with this data. -/
def ShowsEntity (b : Json) (x : String) (data : Json) : Prop :=
  b.get? "id" = some (.str x) ∧ b.get? "data" = some data

/-- The response shows the entity `x` with this data, alone or as an item of a listing. -/
def Response.Shows (resp : Response) (x : String) (data : Json) : Prop :=
  ∃ b, resp.body = some b ∧ (ShowsEntity b x data ∨
    ∃ items item, b.get? "items" = some (.arr items) ∧ item ∈ items ∧ ShowsEntity item x data)

/-- No entity in the response has a field the caller's rank on it may not read. -/
def Confidential (s : Store) (caller : Caller) (td : TypeDef) (resp : Response) : Prop :=
  ∀ x data, resp.Shows x data → ∀ f ∈ td.fields,
    (s.effectiveRank caller.actorId x).getD 0 < (s.fieldFloors td.typeId f.field f.permClass).1 →
      data.get? f.field = none

/-- What an update answers with has the field: from the payload, a default or the existing data. -/
def UpdateVerb.Echoes (v : UpdateVerb) (existing payload : Json) (f : FieldDef) : Prop :=
  match v with
  | .put =>
    if f.writable = true then (given payload f).isSome = true ∨ f.default?.isSome = true
    else (existing.get? f.field).isSome = true
  | .patch =>
    match payload.get? f.field with
    | some w => w ≠ .null
    | none => (existing.get? f.field).isSome = true

/-- The request is an update whose answer has a field the caller may not read. -/
def ObjectRequest.EchoesHidden (s : Store) (caller : Caller) (td : TypeDef) (typeId : String) :
    ObjectRequest → Prop
  | .get _ _ => False
  | .list _ => False
  | .update v _ id headers body =>
    ∃ row payload, s.row? id typeId = some row ∧
      readJson headers body v.allowMerge = .ok payload ∧
      ∃ f ∈ td.fields, (s.effectiveRank caller.actorId id).getD 0 <
          (s.fieldFloors td.typeId f.field f.permClass).1 ∧ v.Echoes row.data payload f

theorem isSome_get?_build {v : UpdateVerb} (td : TypeDef) {existing : Json} {f : FieldDef}
    {pm : JsonMap} (hnodup : (JsonMap.keys pm).Nodup) (hf : f ∈ td.fields) :
    ((v.build td existing (.obj pm)).get? f.field).isSome = true ↔
      v.Echoes existing (.obj pm) f := by
  cases v with
  | put =>
      show ((buildPutData td existing (.obj pm)).get? f.field).isSome = true ↔ _
      rw [get?_buildPutData existing (.obj pm) hf]
      simp only [UpdateVerb.Echoes]
      by_cases hw : f.writable = true
      · rw [if_pos hw, if_pos hw]
        cases given (.obj pm) f <;> simp
      · rw [if_neg hw, if_neg hw]
  | patch =>
      show ((mergePatch existing (.obj pm)).get? f.field).isSome = true ↔ _
      rw [mergePatch]
      simp only [UpdateVerb.Echoes, Json.get?_obj]
      cases hget : JsonMap.get? pm f.field with
      | some w => exact isSome_get?_mergeFields pm _ hnodup hget
      | none =>
          have hk : f.field ∉ JsonMap.keys pm := by
            intro hc
            obtain ⟨w, hw⟩ := JsonMap.mem_keys.mp hc
            rw [hget] at hw
            simp at hw
          rw [get?_mergeFields_other f.field pm _ hk]
          rfl

theorem showsEntity_entityJson {id typeId x : String} {data d : Json} {ver : I32} :
    ShowsEntity (entityJson id typeId data ver) x d ↔ x = id ∧ d = data := by
  unfold ShowsEntity entityJson
  simp [Json.mkObj, JsonMap.get?_insert, eq_comm]

theorem entityJson_no_items {id typeId : String} {data : Json} {ver : I32} :
    (entityJson id typeId data ver).get? "items" = none := by
  simp [entityJson, Json.mkObj, JsonMap.get?_insert]

theorem shows_entityJson {status : Nat} {tag location allow : Option String}
    {id typeId x : String} {data d : Json} {ver : I32} :
    Response.Shows ⟨status, tag, location, allow, some (entityJson id typeId data ver)⟩ x d ↔
      x = id ∧ d = data := by
  unfold Response.Shows
  refine ⟨fun h => ?_, fun h => ?_⟩
  · obtain ⟨b, hb, hshow⟩ := h
    obtain rfl : entityJson id typeId data ver = b := by simpa using hb
    rcases hshow with hshow | ⟨items, item, hitems, -⟩
    · exact showsEntity_entityJson.mp hshow
    · rw [entityJson_no_items] at hitems
      simp at hitems
  · exact ⟨_, rfl, Or.inl (showsEntity_entityJson.mpr h)⟩

theorem callerRank_of_not_admin {s : Store} {caller : Caller} {id : String}
    (h : caller.isPlatformAdmin = false) :
    s.callerRank caller id = (s.effectiveRank caller.actorId id).getD 0 := by
  unfold Store.callerRank
  rw [if_neg (by simp [h])]

/-- Every item of a listing went through the read filter. -/
theorem listItems_ok {caller : Caller} {td : TypeDef} {typeId : String} {s : Store}
    (rows : List EntityData) :
    ∀ items s', exec (listItems caller td typeId rows) s = (.ok items, s') →
      ∀ item ∈ items, ∃ id data shown ver, item = entityJson id typeId shown ver ∧
        exec (filterReadable caller td id data) s = (.ok shown, s) := by
  induction rows with
  | nil =>
      intro items s' h
      simp only [listItems, exec_pure, Prod.mk.injEq, Except.ok.injEq] at h
      simp [← h.1]
  | cons r rest ih =>
      intro items s' h item hitem
      rw [listItems] at h
      obtain ⟨shown, t, hfilter, hrest⟩ := exec_bind_ok.mp h
      obtain rfl := exec_snd_of_readOnly readOnly_filterReadable hfilter
      obtain ⟨tail, t', htail, hanswer⟩ := exec_bind_ok.mp hrest
      simp only [exec_pure, Prod.mk.injEq, Except.ok.injEq] at hanswer
      rw [← hanswer.1] at hitem
      rcases List.mem_cons.mp hitem with rfl | hitem
      · exact ⟨r.entityId, r.data, shown, r.version, rfl, hfilter⟩
      · exact ih tail t' htail item hitem

section Confidential

variable {st : AppState} {ctx : RequestCtx} {caller : Caller} {typeId : String} {s s' : Store}
  {resp : Response} {td : TypeDef}

/-- A value that went through the read filter keeps the caller's secrets. -/
theorem filterReadable_confidential {id : String} {data shown : Json}
    (hadmin : caller.isPlatformAdmin = false)
    (h : exec (filterReadable caller td id data) s = (.ok shown, s')) :
    ∀ f ∈ td.fields, (s.effectiveRank caller.actorId id).getD 0 <
      (s.fieldFloors td.typeId f.field f.permClass).1 → shown.get? f.field = none := by
  intro f hf hlt
  rw [← callerRank_of_not_admin hadmin] at hlt
  exact filterReadable_ok h f hf hlt

/-- A handler that answered went on behind its gate, with the store as it was. -/
theorem behind_gate {α : Type} {objectId : Option String} {action : Action}
    {rest : TypeDef → Handler α} {a : α} (htd : TypeDefCache.get st.registry typeId = some td)
    (h : exec (do
      let td ← resolve st typeId ctx
      let ok ← requireAction caller td objectId action
      ensure ok (deny404 ctx)
      rest td) s = (.ok a, s')) : exec (rest td) s = (.ok a, s') := by
  unfold resolve at h
  obtain ⟨td', t₁, hresolve, h₁⟩ := exec_bind_ok.mp h
  obtain ⟨htd', rfl⟩ := exec_getOr_ok.mp hresolve
  obtain rfl : td = td' := Option.some.inj (htd.symm.trans htd')
  obtain ⟨ok, t₂, hgate, h₂⟩ := exec_bind_ok.mp h₁
  obtain rfl := exec_snd_of_readOnly readOnly_requireAction hgate
  obtain ⟨_, t₃, hensure, h₃⟩ := exec_bind_ok.mp h₂
  obtain ⟨-, rfl⟩ := exec_ensure_ok.mp hensure
  exact h₃

theorem itemGet_confidential {id : String} {headers : HeaderMap}
    (hadmin : caller.isPlatformAdmin = false)
    (htd : TypeDefCache.get st.registry typeId = some td)
    (h : exec (itemGet st ctx caller typeId id headers) s = (.ok resp, s')) :
    Confidential s caller td resp := by
  intro x data hshow
  unfold itemGet at h
  obtain ⟨found, t₁, hfound, h₁⟩ := exec_bind_ok.mp (behind_gate htd h)
  obtain rfl := exec_snd_of_readOnly (readOnly_query _) hfound
  obtain ⟨row, t₂, hrow, h₂⟩ := exec_bind_ok.mp h₁
  obtain ⟨-, rfl⟩ := exec_getOr_ok.mp hrow
  obtain ⟨shown, t₃, hfilter, h₃⟩ := exec_bind_ok.mp h₂
  split at h₃
  · -- A 304 has no body.
    simp only [exec_pure, Prod.mk.injEq, Except.ok.injEq] at h₃
    obtain ⟨b, hb, -⟩ := hshow
    rw [← h₃.1] at hb
    simp at hb
  · simp only [exec_pure, Prod.mk.injEq, Except.ok.injEq] at h₃
    rw [← h₃.1] at hshow
    obtain ⟨rfl, rfl⟩ := shows_entityJson.mp hshow
    exact filterReadable_confidential hadmin hfilter

theorem readOnly_visibleRows {limit offset : Int} :
    ReadOnly (visibleRows caller typeId limit offset) :=
  readOnly_ite (readOnly_query _) (readOnly_bind (readOnly_query _) fun _ => readOnly_query _)

theorem collGet_confidential {q : ListParams} (hadmin : caller.isPlatformAdmin = false)
    (htd : TypeDefCache.get st.registry typeId = some td)
    (h : exec (collGet st ctx caller typeId q) s = (.ok resp, s')) :
    Confidential s caller td resp := by
  intro x data hshow
  simp only [collGet] at h
  obtain ⟨rows, t₁, hrows, h₁⟩ := exec_bind_ok.mp (behind_gate htd h)
  obtain rfl := exec_snd_of_readOnly readOnly_visibleRows hrows
  obtain ⟨items, t₂, hitems, h₂⟩ := exec_bind_ok.mp h₁
  simp only [exec_pure, Prod.mk.injEq, Except.ok.injEq] at h₂
  rw [← h₂.1] at hshow
  obtain ⟨b, hb, hshow⟩ := hshow
  simp only [Option.some.injEq] at hb
  subst hb
  rcases hshow with ⟨hid, -⟩ | ⟨items', item, hitems', hmem, hshow⟩
  · simp [Json.mkObj, JsonMap.get?_insert] at hid
  · obtain rfl : items = items' := by
      simpa [Json.mkObj, JsonMap.get?_insert] using hitems'
    obtain ⟨id, d, shown, ver, rfl, hfilter⟩ := listItems_ok rows items t₂ hitems item hmem
    obtain ⟨rfl, rfl⟩ := showsEntity_entityJson.mp hshow
    exact filterReadable_confidential hadmin hfilter

/--
**A response shows no field above the caller's read floor, exactly unless it
answers an update that carries such a field over.**
-/
theorem request_confidential_iff (st : AppState) (ctx : RequestCtx) (caller : Caller)
    (typeId : String) (req : ObjectRequest) (s s' : Store) (resp : Response) (td : TypeDef)
    (hadmin : caller.isPlatformAdmin = false)
    (htd : TypeDefCache.get st.registry typeId = some td)
    (h : exec (req.handle st ctx caller typeId) s = (.ok resp, s')) :
    Confidential s caller td resp ↔ ¬ req.EchoesHidden s caller td typeId := by
  cases req with
  | get id headers => exact iff_of_true (itemGet_confidential hadmin htd h) not_false
  | list q => exact iff_of_true (collGet_confidential hadmin htd h) not_false
  | update v env id headers body =>
      obtain ⟨td', row, payload, expected, hchecked, -, -, ver, rfl⟩ := itemUpdate_stored h
      obtain rfl : td = td' := Option.some.inj (htd.symm.trans hchecked.typed)
      obtain ⟨pm, rfl, hnodup⟩ := readJson_ok hchecked.parsed
      refine ⟨fun hsafe => ?_, fun hclean => ?_⟩
      · intro hecho
        obtain ⟨row', payload, hrow, hbody, f, hf, hlt, hecho⟩ := hecho
        obtain rfl : row = row' := Option.some.inj (hchecked.found.symm.trans hrow)
        obtain rfl : Json.obj pm = payload := Except.ok.inj (hchecked.parsed.symm.trans hbody)
        have hnone := hsafe id _ (shows_entityJson.mpr ⟨rfl, rfl⟩) f hf hlt
        have hsome := (isSome_get?_build td hnodup hf).mpr hecho
        rw [hnone] at hsome
        simp at hsome
      · intro x data hshow f hf hlt
        obtain ⟨rfl, rfl⟩ := shows_entityJson.mp hshow
        by_contra hne
        refine hclean ⟨row, .obj pm, hchecked.found, hchecked.parsed, f, hf, hlt, ?_⟩
        exact (isSome_get?_build td hnodup hf).mp (Option.isSome_iff_ne_none.mpr hne)

end Confidential

/-- A member's PATCH of a name answers with the email a GET hides from the member. -/
theorem member_patch_shows_email :
    sharedActorStore.Valid ∧ sharedActorStore.effectiveRank "USR_alice" "USR_x" = some 2 ∧
      ∃ resp s', exec (itemPatch actorState plainCtx {} alice "actor" "USR_x" versionOne renameBody)
          sharedActorStore = (.ok resp, s') ∧
        ¬ Confidential sharedActorStore alice actorType resp := by
  refine ⟨sharedActorStore_valid, by decide, _, _, rfl, ?_⟩
  intro h
  have hemail := h "USR_x" _ (shows_entityJson.mpr ⟨rfl, rfl⟩)
    (typeField "email" "Email" "text" false true 3 "owner_grade" (.obj [])) (by decide) (by decide)
  exact absurd hemail (by decide)

/-- A member's GET of the same actor leaves the email out. -/
theorem member_get_confidential :
    ∃ resp s', exec (itemGet actorState plainCtx alice "actor" "USR_x" {}) sharedActorStore =
        (.ok resp, s') ∧ Confidential sharedActorStore alice actorType resp := by
  refine ⟨_, _, rfl, ?_⟩
  exact (request_confidential_iff actorState plainCtx alice "actor" (.get "USR_x" {})
    sharedActorStore _ _ actorType rfl rfl rfl).mpr not_false

end Numu
