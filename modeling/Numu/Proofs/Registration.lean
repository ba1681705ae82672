/-
Which registered types can be created.

A specification is checked so that no type is registered that no create can
satisfy.  A field that clients set is never in the way: every kind has a value,
and an accepted enumeration lists one.  What is left are the fields that no
client sets.  Their data is their default whatever the payload says, so the type
is usable exactly when each of these defaults fits, and that is more than the
check asks: it only wants a default to be there.
-/
import Numu.Proofs.ScopeForest

namespace Numu

/-! ### What an accepted specification satisfies -/

/-- An accepted vocabulary: some strings, and the default one of them. -/
def Vocabulary (options : Json) (a : Json) (rest : List Json) : Prop :=
  (options.get? "enum").bind Json.asArray? = some (a :: rest) ∧
    (∀ v ∈ a :: rest, v.asStr?.isSome = true) ∧
    ∀ d, options.get? "default" = some d → d ∈ a :: rest

theorem checkEnum_ok {display : Json → String} {f : FieldSpec}
    (h : checkEnum display f = .ok ()) : ∃ a rest, Vocabulary f.options a rest := by
  unfold checkEnum at h
  split at h
  · rename_i a rest henum
    split at h
    · rename_i hstrings
      refine ⟨a, rest, henum, by simpa using hstrings, ?_⟩
      intro d hd
      simp only [hd] at h
      split at h
      · rename_i hmem
        exact List.contains_iff_mem.mp hmem
      · simp at h
    · simp at h
  · simp at h

/-- The checks of a field's names: its own, its kind and its class. -/
def checkFieldName (seen : List String) (f : FieldSpec) : Except AppError Unit :=
  if !identOk f.field 63 then
    .error (.unprocessable ("invalid field name '" ++ f.field ++ "'"))
  else if reservedFields.contains f.field then
    .error (.unprocessable ("'" ++ f.field ++ "' is a reserved field name"))
  else if seen.contains f.field then
    .error (.unprocessable ("duplicate field '" ++ f.field ++ "'"))
  else if !kinds.contains f.kind then
    .error (.unprocessable ("field '" ++ f.field ++ "': unknown kind '" ++ f.kind ++ "'"))
  else if !permClasses.contains f.permClass then
    .error (.unprocessable ("field '" ++ f.field ++ "': unknown perm_class '" ++ f.permClass ++
      "'"))
  else .ok ()

/-- The check of the default of a field that no client sets. -/
def checkDefault (f : FieldSpec) : Except AppError Unit :=
  if f.required && (f.permClass = "readonly" || f.permClass = "system") &&
      (f.options.get? "default").isNone then
    .error (.unprocessable ("field '" ++ f.field ++ "' is required + " ++ f.permClass ++
      " but has no options.default — every create would 422"))
  else .ok ()

section Field

variable {display : Json → String} {spec : TypeSpec} {current : TypeDefCache}
  {seen : List String} {f : FieldSpec}

theorem ite_seq {ε : Type} {c : Prop} [Decidable c] (x y : Except ε Unit) (k : Unit → Except ε Unit) :
    (if c then x else y) >>= k = if c then x >>= k else y >>= k :=
  apply_ite (· >>= k) c x y

theorem checkField_eq :
    checkField display spec current seen f = (do
      checkFieldName seen f
      (if f.kind = "enum" then checkEnum display f else .ok ())
      (if f.kind = "ref" then checkRef spec current f else .ok ())
      checkDefault f) := by
  unfold checkField checkFieldName
  simp only [ite_seq]
  rfl

/-- No client sets the field. -/
def FieldSpec.EngineOwned (f : FieldSpec) : Prop :=
  f.permClass = "readonly" ∨ f.permClass = "system"

instance (f : FieldSpec) : Decidable f.EngineOwned := inferInstanceAs (Decidable (_ ∨ _))

/-- What the check of a field leaves behind. -/
structure FieldSpec.Checked (f : FieldSpec) (seen : List String) : Prop where
  /-- No earlier field has the name. -/
  fresh : f.field ∉ seen
  /-- An enumeration lists its values. -/
  vocabulary : f.kind = "enum" → ∃ a rest, Vocabulary f.options a rest
  /-- A required field that no client sets has a default. -/
  defaulted : f.required = true → f.EngineOwned → ∃ d, f.options.get? "default" = some d

theorem checkFieldName_fresh (h : checkFieldName seen f = .ok ()) : f.field ∉ seen := by
  intro hmem
  unfold checkFieldName at h
  rw [List.contains_iff_mem.mpr hmem] at h
  split at h
  · simp at h
  · split at h
    · simp at h
    · simp at h

theorem checkDefault_ok (h : checkDefault f = .ok ()) (hreq : f.required = true)
    (hown : f.EngineOwned) : ∃ d, f.options.get? "default" = some d := by
  unfold checkDefault at h
  cases hdefault : f.options.get? "default" with
  | some d => exact ⟨d, rfl⟩
  | none =>
      rcases hown with hclass | hclass
      · simp [hreq, hclass, hdefault] at h
      · simp [hreq, hclass, hdefault] at h

theorem checkField_ok (h : checkField display spec current seen f = .ok ()) :
    f.Checked seen := by
  rw [checkField_eq] at h
  obtain ⟨hname, hrest⟩ := seq_ok.mp h
  obtain ⟨henum, hrest⟩ := seq_ok.mp hrest
  obtain ⟨-, hdefault⟩ := seq_ok.mp hrest
  refine ⟨checkFieldName_fresh hname, ?_, checkDefault_ok hdefault⟩
  intro hkind
  rw [if_pos hkind] at henum
  exact checkEnum_ok henum

end Field

/-- The checks of the fields, one after the other: each is checked and no two share a name. -/
theorem checkFields_ok {display : Json → String} {spec : TypeSpec} {current : TypeDefCache} :
    ∀ {fields : List FieldSpec} {seen : List String},
      checkFields display spec current seen fields = .ok () →
      (∀ f ∈ fields, ∃ seen', f.Checked seen' ∧ ∀ k ∈ seen, k ∈ seen') ∧
        (fields.map FieldSpec.field).Nodup := by
  intro fields
  induction fields with
  | nil => simp
  | cons f rest ih =>
      intro seen h
      unfold checkFields at h
      obtain ⟨hf, hrest⟩ := seq_ok.mp h
      obtain ⟨hall, hnodup⟩ := ih hrest
      refine ⟨?_, ?_⟩
      · intro g hg
        rcases List.mem_cons.mp hg with rfl | hg
        · exact ⟨seen, checkField_ok hf, fun k hk => hk⟩
        · obtain ⟨seen', hchecked, hsub⟩ := hall g hg
          exact ⟨seen', hchecked, fun k hk => hsub k (List.mem_cons_of_mem f.field hk)⟩
      · rw [List.map_cons, List.nodup_cons]
        refine ⟨?_, hnodup⟩
        intro hmem
        obtain ⟨g, hg, hname⟩ := List.mem_map.mp hmem
        obtain ⟨seen', hchecked, hsub⟩ := hall g hg
        exact hchecked.fresh (hsub _ (by simp [hname]))

theorem TypeSpec.map_fieldDefs (spec : TypeSpec) :
    spec.fieldDefs.map FieldDef.field = spec.fields.map FieldSpec.field := by
  unfold TypeSpec.fieldDefs
  rw [List.map_map]
  have h : (FieldDef.field ∘ fun p : FieldSpec × Nat => p.1.fieldDef p.2) =
      FieldSpec.field ∘ Prod.fst := rfl
  rw [h, ← List.map_map, List.zipIdx_map_fst]

section Accepted

variable {display : Json → String} {reg : TypeDefCache} {spec : TypeSpec}

/-- An accepted specification takes a type id and a prefix that no registered type has. -/
theorem names_of_valid (h : validateSpec display spec reg = .ok ()) :
    TypeDefCache.get reg spec.typeId = none ∧ reg.takes spec.idPrefix = false := by
  have hnames : checkNames spec reg = .ok () := (seq_ok.mp h).1
  unfold checkNames at hnames
  split at hnames
  · simp at hnames
  split at hnames
  · simp at hnames
  split at hnames
  · simp at hnames
  rename_i hfree
  split at hnames
  · simp at hnames
  split at hnames
  · simp at hnames
  rename_i hheld
  exact ⟨by simpa using hfree, by simpa using hheld⟩

theorem fields_of_valid (h : validateSpec display spec reg = .ok ()) :
    checkFields display spec reg [] spec.fields = .ok () := (seq_ok.mp (seq_ok.mp h).2).1

theorem nodup_of_valid (h : validateSpec display spec reg = .ok ()) :
    (spec.fieldDefs.map FieldDef.field).Nodup := by
  rw [spec.map_fieldDefs]
  exact (checkFields_ok (fields_of_valid h)).2

theorem checked_of_valid (h : validateSpec display spec reg = .ok ()) {f : FieldSpec}
    (hf : f ∈ spec.fields) : ∃ seen, f.Checked seen := by
  obtain ⟨seen, hchecked, -⟩ := (checkFields_ok (fields_of_valid h)).1 f hf
  exact ⟨seen, hchecked⟩

end Accepted

/-! ### A value of every kind -/

namespace FieldDef

/-- A value of the field's kind: for an enumeration, the first it lists. -/
def sample (f : FieldDef) : Json :=
  if f.kind = "int" then .num (.int 0)
  else if f.kind = "bool" then .bool false
  else if f.kind = "enum" then
    (((f.options.get? "enum").bind Json.asArray?).bind List.head?).getD .null
  else .str ""

/-- An enumeration lists its values. -/
def Listed (f : FieldDef) : Prop := f.kind = "enum" → ∃ a rest, Vocabulary f.options a rest

theorem sample_ok {f : FieldDef} (h : f.Listed) :
    f.sample.isNull = false ∧ kindOk f f.sample = true := by
  unfold sample
  by_cases hint : f.kind = "int"
  · rw [if_pos hint]
    exact ⟨rfl, by simp [kindOk, hint]⟩
  rw [if_neg hint]
  by_cases hbool : f.kind = "bool"
  · rw [if_pos hbool]
    exact ⟨rfl, by simp [kindOk, hbool, Json.asBool?]⟩
  rw [if_neg hbool]
  by_cases henum : f.kind = "enum"
  · obtain ⟨a, rest, hlist, hstrings, -⟩ := h henum
    have ha := hstrings a (List.mem_cons_self ..)
    rw [if_pos henum, hlist]
    show a.isNull = false ∧ kindOk f a = true
    refine ⟨?_, by simp [kindOk, henum, hlist, ha]⟩
    cases a with
    | null => simp [Json.asStr?] at ha
    | _ => rfl
  · rw [if_neg henum]
    refine ⟨rfl, ?_⟩
    unfold kindOk
    split
    · rfl
    · rfl
    · rfl
    · rename_i hkind
      exact absurd hkind hint
    · rename_i hkind
      exact absurd hkind hbool
    · rfl
    · rename_i hkind
      exact absurd hkind henum
    · rfl

end FieldDef

/-- A value for each of the fields a client sets. -/
def samples (fields : List FieldDef) : JsonMap :=
  (fields.filter FieldDef.settable).map fun f => (f.field, f.sample)

theorem keys_samples (fields : List FieldDef) :
    JsonMap.keys (samples fields) = (fields.filter FieldDef.settable).map FieldDef.field := by
  unfold JsonMap.keys samples
  rw [List.map_map]
  rfl

theorem get?_samples : ∀ {fields : List FieldDef}, (fields.map FieldDef.field).Nodup →
    ∀ {f : FieldDef}, f ∈ fields → f.settable = true →
      JsonMap.get? (samples fields) f.field = some f.sample := by
  intro fields
  induction fields with
  | nil => simp
  | cons g rest ih =>
      intro hnodup f hf hset
      rw [List.map_cons, List.nodup_cons] at hnodup
      rcases List.mem_cons.mp hf with rfl | hf
      · unfold samples
        rw [List.filter_cons_of_pos hset, List.map_cons, JsonMap.get?_cons, if_pos rfl]
      · have hne : g.field ≠ f.field := fun hc => hnodup.1 (hc ▸ List.mem_map_of_mem hf)
        have hrest := ih hnodup.2 hf hset
        unfold samples at hrest ⊢
        by_cases hg : g.settable = true
        · rw [List.filter_cons_of_pos hg, List.map_cons, JsonMap.get?_cons, if_neg hne]
          exact hrest
        · rw [List.filter_cons_of_neg hg]
          exact hrest

/-! ### Usable types -/

/-- Some object passes the checks of a create. -/
def TypeDef.Usable (td : TypeDef) : Prop :=
  ∃ body : Document, body.1.isObject = true ∧ checkInput td body.1 true = .ok () ∧
    validateFinal td (buildCreateData td body.1) = .ok ()

/-- The document that sets every field a client sets. -/
def TypeDef.sampleDocument (td : TypeDef) : Document :=
  ⟨.obj (samples td.fields), by
    rw [Json.asMap_obj, keys_samples]
    exact td.nodup.sublist (List.filter_sublist.map FieldDef.field)⟩

theorem checkInput_sample (td : TypeDef) : checkInput td td.sampleDocument.1 true = .ok () := by
  unfold checkInput
  refine (forM_ok _).mpr fun k hk => ?_
  have hk' : k ∈ JsonMap.keys (samples td.fields) := hk
  rw [keys_samples] at hk'
  obtain ⟨f, hf, rfl⟩ := List.mem_map.mp hk'
  obtain ⟨hmem, hset⟩ := List.mem_filter.mp hf
  simp [TypeDef.field_eq_some.mpr ⟨hmem, rfl⟩, hset]

/-- What a create makes of a field that no client sets: its default fits, or nothing does. -/
theorem fieldOk_engine {td : TypeDef} {f : FieldDef} (hf : f ∈ td.fields)
    (hset : f.settable = false) (payload : Json) :
    FieldOk f (buildCreateData td payload) ↔
      (f.required = true → ∃ d, f.default? = some d) ∧
        ∀ d, f.default? = some d → (d.isNull = true → f.required = false) ∧
          (d.isNull = false → kindOk f d = true) := by
  have hget : (buildCreateData td payload).get? f.field = f.default? := by
    rw [get?_buildCreateData payload hf, if_neg (by simp [hset])]
    rfl
  refine ⟨fun h => ⟨fun hreq => ?_, fun d hd => ⟨fun hnull => ?_, fun hnull => ?_⟩⟩, fun h => ⟨?_, ?_⟩⟩
  · obtain ⟨v, hv, -⟩ := h.present hreq
    exact ⟨v, hget ▸ hv⟩
  · by_contra hreq
    obtain ⟨v, hv, hsome⟩ := h.present (by simpa using hreq)
    rw [hget, hd] at hv
    rw [← Option.some.inj hv, hnull] at hsome
    simp at hsome
  · rcases h.ofKind d (hget.trans hd) with hc | hkind
    · rw [hnull] at hc
      simp at hc
    · exact hkind
  · intro hreq
    obtain ⟨d, hd⟩ := h.1 hreq
    refine ⟨d, hget.trans hd, ?_⟩
    by_contra hnull
    have hfalse := (h.2 d hd).1 (by simpa using hnull)
    rw [hreq] at hfalse
    simp at hfalse
  · intro v hv
    by_cases hnull : v.isNull = true
    · exact Or.inl hnull
    · exact Or.inr ((h.2 v (hget ▸ hv)).2 (by simpa using hnull))

/-- A field that a client sets is as the type has it once it is given its sample. -/
theorem fieldOk_sample {td : TypeDef} {f : FieldDef} (hf : f ∈ td.fields)
    (hset : f.settable = true) (hlist : f.Listed) :
    FieldOk f (buildCreateData td td.sampleDocument.1) := by
  obtain ⟨hnull, hkind⟩ := FieldDef.sample_ok hlist
  have hgiven : given td.sampleDocument.1 f = some f.sample := by
    unfold given
    have hget : td.sampleDocument.1.get? f.field = some f.sample :=
      get?_samples td.nodup hf hset
    rw [hget, Option.filter_some, if_pos (by simp [hnull])]
  have hget : (buildCreateData td td.sampleDocument.1).get? f.field = some f.sample := by
    rw [get?_buildCreateData _ hf, if_pos hset, hgiven]
    rfl
  refine ⟨fun _ => ⟨f.sample, hget, hnull⟩, fun v hv => ?_⟩
  rw [hget] at hv
  exact Or.inr (Option.some.inj hv ▸ hkind)

/-- **A type is usable exactly when the fields that no client sets have defaults that fit.** -/
theorem usable_iff {td : TypeDef} (hlist : ∀ f ∈ td.fields, f.Listed) :
    td.Usable ↔ ∀ f ∈ td.fields, f.settable = false →
      (f.required = true → ∃ d, f.default? = some d) ∧
        ∀ d, f.default? = some d → (d.isNull = true → f.required = false) ∧
          (d.isNull = false → kindOk f d = true) := by
  refine ⟨fun h => ?_, fun h => ?_⟩
  · intro f hf hset
    obtain ⟨body, -, -, hfinal⟩ := h
    exact (fieldOk_engine hf hset body.1).mp ((validateFinal_ok.mp hfinal).2 f hf)
  · refine ⟨td.sampleDocument, rfl, checkInput_sample td, ?_⟩
    refine validateFinal_ok.mpr ⟨⟨_, rfl⟩, fun f hf => ?_⟩
    by_cases hset : f.settable = true
    · exact fieldOk_sample hf hset (hlist f hf)
    · have hset : f.settable = false := by simpa using hset
      exact (fieldOk_engine hf hset _).mpr (h f hf hset)

/-! ### Registered types -/

/-- The default of a field that no client sets: null where nothing is required, or of the kind. -/
def FieldSpec.DefaultFits (f : FieldSpec) : Prop :=
  f.EngineOwned → ∀ d, f.options.get? "default" = some d →
    (d.isNull = true → f.required = false) ∧ (d.isNull = false → kindOk (f.fieldDef 0) d = true)

theorem FieldSpec.fieldDef_option (f : FieldSpec) (i : Nat) (k : String) :
    (f.fieldDef i).options.get? k = f.options.get? k := by
  show (if f.options.isNull = true then Json.obj [] else f.options).get? k = _
  cases f.options with
  | null => rfl
  | _ => rfl

/-- The kind of a field is not a matter of its place. -/
theorem FieldSpec.kindOk_fieldDef (f : FieldSpec) (i : Nat) (v : Json) :
    kindOk (f.fieldDef i) v = kindOk (f.fieldDef 0) v := by
  unfold kindOk
  rfl

theorem FieldSpec.settable_fieldDef (f : FieldSpec) (i : Nat) :
    (f.fieldDef i).settable = false ↔ f.EngineOwned := by
  unfold FieldDef.settable FieldSpec.EngineOwned
  show (decide (f.permClass ≠ "system") && decide (f.permClass ≠ "readonly")) = false ↔ _
  by_cases hsys : f.permClass = "system"
  · simp [hsys]
  · simp [hsys]

section Registered

variable {display : Json → String} {reg : TypeDefCache} {spec : TypeSpec}

theorem FieldSpec.Checked.listed {f : FieldSpec} {seen : List String} (h : f.Checked seen)
    (i : Nat) : (f.fieldDef i).Listed := by
  intro hkind
  obtain ⟨a, rest, hlist, hstrings, hdefault⟩ := h.vocabulary hkind
  refine ⟨a, rest, ?_, hstrings, ?_⟩
  · rw [f.fieldDef_option]
    exact hlist
  · intro d hd
    rw [f.fieldDef_option] at hd
    exact hdefault d hd

theorem usable_typeDef_iff (h : validateSpec display spec reg = .ok ())
    (hnodup : (spec.fieldDefs.map FieldDef.field).Nodup) :
    (spec.typeDef hnodup).Usable ↔ ∀ f ∈ spec.fields, f.DefaultFits := by
  have hlist : ∀ g ∈ (spec.typeDef hnodup).fields, g.Listed := by
    intro g hg
    obtain ⟨i, f, hi, rfl⟩ := TypeSpec.mem_fieldDefs.mp hg
    obtain ⟨seen, hchecked⟩ := checked_of_valid h (List.mem_of_getElem? hi)
    exact hchecked.listed i
  rw [usable_iff hlist]
  constructor
  · intro hall f hf hown d hd
    obtain ⟨i, hi⟩ := List.mem_iff_getElem?.mp hf
    have hone := hall (f.fieldDef i) (TypeSpec.mem_fieldDefs.mpr ⟨i, f, hi, rfl⟩)
      ((f.settable_fieldDef i).mpr hown)
    have hd' : (f.fieldDef i).default? = some d := (f.fieldDef_option i "default").trans hd
    rw [← f.kindOk_fieldDef i]
    exact hone.2 d hd'
  · intro hall g hg hset
    obtain ⟨i, f, hi, rfl⟩ := TypeSpec.mem_fieldDefs.mp hg
    have hf := List.mem_of_getElem? hi
    have hown := (f.settable_fieldDef i).mp hset
    have hoption : (f.fieldDef i).default? = f.options.get? "default" :=
      f.fieldDef_option i "default"
    obtain ⟨seen, hchecked⟩ := checked_of_valid h hf
    refine ⟨fun hreq => ?_, fun d hd => ?_⟩
    · obtain ⟨d, hd⟩ := hchecked.defaulted hreq hown
      exact ⟨d, hoption.trans hd⟩
    · rw [f.kindOk_fieldDef]
      exact hall f hf hown d (hoption.symm.trans hd)

/-- An accepted specification is registered in the registry it was checked against. -/
theorem registerTx_of_valid (h : validateSpec display spec reg = .ok ()) {s : Store}
    (hreg : s.typeDefinitions = reg) : ∃ s', registerTx spec s = .ok ((), s') := by
  obtain ⟨hfree, hheld⟩ := names_of_valid h
  unfold registerTx
  rw [dif_pos (nodup_of_valid h), hreg]
  cases hinsert : reg.insert (spec.typeDef (nodup_of_valid h)) with
  | none =>
      have hhas : reg.has spec.typeId = true := Table.insert_eq_none.mp hinsert
      rw [Table.has_eq_false.mpr hfree] at hhas
      simp at hhas
  | some types =>
      simp [hheld]

/--
**A registered type is usable exactly when its engine-owned defaults fit.**  The type that is
stored is one and the same whichever store the registration meets, and the registry that the
specification was checked against takes it.
-/
theorem registered_usable_iff (display : Json → String) (reg : TypeDefCache) (spec : TypeSpec)
    (h : validateSpec display spec reg = .ok ()) :
    ∃ td, (∀ s s', registerTx spec s = .ok ((), s') →
        TypeDefCache.get s'.typeDefinitions spec.typeId = some td) ∧
      (∀ s, s.typeDefinitions = reg → ∃ s', registerTx spec s = .ok ((), s')) ∧
      (td.Usable ↔ ∀ f ∈ spec.fields, f.DefaultFits) := by
  refine ⟨spec.typeDef (nodup_of_valid h), ?_, fun s hs => registerTx_of_valid h hs,
    usable_typeDef_iff h _⟩
  intro s s' htx
  obtain ⟨hnodup, types, hinsert, rfl⟩ := registerTx_ok htx
  show Table.find? types spec.typeId = _
  have hfind := Table.find?_insert hinsert spec.typeId
  rw [if_pos (show (spec.typeDef hnodup).typeId = spec.typeId from rfl)] at hfind
  exact hfind

end Registered

/-- The options of a field with a default. -/
def stageOptions (d : Json) : Json := .obj [("default", d)]

/-- A ticket with a stage that only the engine sets, by its default. -/
def stageSpec (d : Json) : TypeSpec where
  typeId := "ticket"
  idPrefix := "TIC"
  displayName := "Ticket"
  fields :=
    [{ field := "title", kind := "text", required := true },
      { field := "stage", kind := "int", required := true, permClass := "readonly",
        options := stageOptions d }]

/-- Tickets that start at the first stage can be created. -/
theorem first_stage_usable : ∃ td,
    (∀ s s', registerTx (stageSpec (.num (.int 1))) s = .ok ((), s') →
      TypeDefCache.get s'.typeDefinitions "ticket" = some td) ∧ td.Usable := by
  obtain ⟨td, hstored, -, husable⟩ :=
    registered_usable_iff (fun _ => "") ∅ (stageSpec (.num (.int 1))) (by decide)
  refine ⟨td, hstored, husable.mpr ?_⟩
  intro f hf hown d hd
  rcases List.mem_pair.mp hf with rfl | rfl
  · simp [FieldSpec.EngineOwned] at hown
  · have hone : d = .num (.int 1) := by simpa [stageOptions, Json.get?, JsonMap.get?] using hd.symm
    subst hone
    decide

/-- Tickets whose stage is null by default are accepted, and no ticket can be created. -/
theorem null_stage_unusable : validateSpec (fun _ => "") (stageSpec .null) ∅ = .ok () ∧
    ∃ td s', registerTx (stageSpec .null) {} = .ok ((), s') ∧
      TypeDefCache.get s'.typeDefinitions "ticket" = some td ∧ ¬ td.Usable := by
  have hvalid : validateSpec (fun _ => "") (stageSpec .null) ∅ = .ok () := by decide
  refine ⟨hvalid, _, _, rfl, rfl, ?_⟩
  intro husable
  have hall := (usable_typeDef_iff hvalid (nodup_of_valid hvalid)).mp husable
  have hstage : (stageSpec .null).fields[1]? = some _ := rfl
  have hfits := hall _ (List.mem_of_getElem? hstage) (Or.inl rfl) .null rfl
  simp [Json.isNull] at hfits

end Numu
