/-
The scope parents form a forest, and nothing is moved in it.

Every write of an object computes its scope parent anew from the data.  It comes
out the same because the field that names it is set once: no registered type lets
a client edit it.  So the stored parent is the one the data names, as long as that
one exists (`Service.Forest.named`), and the only edges that are ever added start
at a new entity.

A new entity closes no cycle when its id is new: nothing points to it, and it does
not name itself.  That is what is asked of the minted ids (`Request.MintsFresh`).
-/
import Numu.Lib.Edges
import Numu.Proofs.Schema

namespace Numu

open Fallible Handler

/-! ### The field that names the parent -/

/-- The scope parents of a type are fields that a client sets once. -/
def TypeDef.SetOnce (td : TypeDef) : Prop :=
  ∀ k ∈ td.scopeParents, ∃ f ∈ td.fields, f.field = k ∧ f.editable = false

instance : DecidablePred TypeDef.SetOnce := fun td =>
  inferInstanceAs (Decidable (∀ k ∈ td.scopeParents, ∃ f ∈ td.fields, f.field = k ∧
    f.editable = false))

theorem TypeSpec.mem_fieldDefs {spec : TypeSpec} {g : FieldDef} :
    g ∈ spec.fieldDefs ↔ ∃ (i : Nat) (f : FieldSpec),
      spec.fields[i]? = some f ∧ f.fieldDef i = g := by
  unfold TypeSpec.fieldDefs
  rw [List.mem_map]
  constructor
  · rintro ⟨⟨f, i⟩, hmem, rfl⟩
    exact ⟨i, f, List.mem_zipIdx_iff_getElem?.mp hmem, rfl⟩
  · rintro ⟨i, f, hi, rfl⟩
    exact ⟨(f, i), List.mem_zipIdx_iff_getElem?.mpr hi, rfl⟩

/-- A specification that was accepted names its scope parents by fields that are set once. -/
theorem setOnce_of_valid {display : Json → String} {spec : TypeSpec} {current : TypeDefCache}
    (h : validateSpec display spec current = .ok ())
    (hnodup : (spec.fieldDefs.map FieldDef.field).Nodup) : (spec.typeDef hnodup).SetOnce := by
  have hparents : spec.scopeParents.forM (checkScopeParent spec) = .ok () :=
    (seq_ok.mp (seq_ok.mp h).2).2
  intro k hk
  have hone := (forM_ok _).mp hparents k hk
  unfold checkScopeParent at hone
  split at hone
  · simp at hone
  · rename_i f hfind
    split at hone
    · simp at hone
    · rename_i hset
      simp only [Bool.or_eq_true, decide_eq_true_eq, not_or] at hset
      have hfield : f.field = k := by simpa using List.find?_some hfind
      have hedit : f.editable = false := by simpa using hset.2
      obtain ⟨i, hi⟩ := List.mem_iff_getElem?.mp (List.mem_of_find?_eq_some hfind)
      have hmem : f.fieldDef i ∈ spec.fieldDefs := TypeSpec.mem_fieldDefs.mpr ⟨i, f, hi, rfl⟩
      exact ⟨f.fieldDef i, hmem, hfield, hedit⟩

theorem scopeParent_eq_some {td : TypeDef} {data : Json} {p : String} :
    scopeParent td data = some p ↔ ∃ k, td.scopeParents.head? = some k ∧ data.str? k = some p :=
  Option.bind_eq_some_iff

section Frozen

variable {v : UpdateVerb} {st : AppState} {ctx : RequestCtx} {caller : Caller}
  {typeId id : String} {headers : HeaderMap} {body : Body} {s : Store} {td : TypeDef}
  {row : EntityData} {payload : Json} {expected : I32}

/-- An update leaves every field that is not writable. -/
theorem UpdateChecked.frozen
    (h : UpdateChecked v st ctx caller typeId id headers body s td row payload expected)
    {f : FieldDef} (hf : f ∈ td.fields) (hw : f.writable = false) :
    (v.build td row.data payload).get? f.field = row.data.get? f.field := by
  obtain ⟨pm, hobj, -⟩ := readJson_ok h.parsed
  exact build_frozen ⟨pm, hobj⟩ h.editable hf hw

/-- **An update names the scope parent that was named before.** -/
theorem UpdateChecked.scopeParent_eq
    (h : UpdateChecked v st ctx caller typeId id headers body s td row payload expected)
    (hset : td.SetOnce) : scopeParent td (v.build td row.data payload) = scopeParent td row.data := by
  unfold scopeParent
  cases hhead : td.scopeParents.head? with
  | none => rfl
  | some k =>
      obtain ⟨f, hf, rfl, hedit⟩ := hset k (List.mem_of_head? hhead)
      have hsame := h.frozen hf (by simp [FieldDef.writable, hedit])
      show (v.build td row.data payload).str? f.field = row.data.str? f.field
      unfold Json.str?
      rw [hsame]

end Frozen

/-! ### New ids -/

/-- The text occurs in the database: as an id, in some data, or in the options of a field. -/
def Store.Mentions (s : Store) (x : String) : Prop :=
  s.entities.has x = true ∨ (∃ d ∈ s.entityData, x ∈ d.data.strings) ∨
    ∃ td ∈ s.typeDefinitions, ∃ f ∈ td.fields, x ∈ f.options.strings

instance (s : Store) (x : String) : Decidable (s.Mentions x) := inferInstanceAs (Decidable (_ ∨ _))

namespace Request

/-- The text occurs in the body of a create. -/
def Mentions (x : String) : Request → Prop
  | .create _ _ _ _ _ body => ∃ doc : Document, body = .ok doc ∧ x ∈ doc.1.strings
  | _ => False

/-- The request mints the id, when it mints one. -/
def Mints (σ : Service) (x : String) : Request → Prop
  | .create _ env _ typeId _ _ =>
    ∃ td, TypeDefCache.get σ.registry typeId = some td ∧ x = mint td env.uuid
  | .login env _ _ _ _ => x = "USR_" ++ env.uuid
  | _ => False

/-- A minted id occurs neither in the database nor in the request. -/
def MintsFresh (σ : Service) (r : Request) : Prop :=
  ∀ x, r.Mints σ x → ¬ σ.store.Mentions x ∧ ¬ r.Mentions x

end Request

/-- Every id a run mints is new when it is minted. -/
def Service.MintsFresh (σ : Service) : List Request → Prop
  | [] => True
  | r :: rest => r.MintsFresh σ ∧ (σ.perform r).MintsFresh rest

/-- A create does not name an id that occurs nowhere. -/
theorem CreateChecked.scopeParent_mentioned {σ : Service} {ctx : RequestCtx} {env : Ambient}
    {caller : Caller} {typeId : String} {headers : HeaderMap} {body : Body} {td : TypeDef}
    {payload : Json} (h : CreateChecked σ.toAppState ctx caller typeId headers body σ.store td payload)
    (hsynced : σ.registry = σ.store.typeDefinitions) (hset : td.SetOnce) {p : String}
    (hp : scopeParent td (buildCreateData td payload) = some p) :
    σ.store.Mentions p ∨ (Request.create ctx env caller typeId headers body).Mentions p := by
  obtain ⟨k, hhead, hstr⟩ := scopeParent_eq_some.mp hp
  obtain ⟨f, hf, rfl, -⟩ := hset k (List.mem_of_head? hhead)
  obtain ⟨w, hw, hwp⟩ := Option.bind_eq_some_iff.mp hstr
  rw [get?_buildCreateData payload hf, Option.or_eq_some_iff] at hw
  rcases hw with hgiven | ⟨-, hdefault⟩
  · -- The payload names it.
    refine Or.inr ?_
    split at hgiven
    · have hget : payload.get? f.field = some w := (Option.filter_eq_some_iff.mp hgiven).1
      have hmem : p ∈ payload.strings :=
        Json.mem_strings_of_str? (k := f.field) (Option.bind_eq_some_iff.mpr ⟨w, hget, hwp⟩)
      obtain ⟨doc, hbody, rfl⟩ := readJson_body h.parsed
      exact ⟨doc, hbody, hmem⟩
    · simp at hgiven
  · -- It is the default of the field.
    refine Or.inl (Or.inr (Or.inr ⟨td, ?_, f, hf, ?_⟩))
    · rw [← hsynced]
      exact Table.mem_of_find? h.typed
    · exact Json.mem_strings_of_str? (k := "default")
        (Option.bind_eq_some_iff.mpr ⟨w, hdefault, hwp⟩)

/-! ### One request -/

/-- The row is of the same entity and names the same scope parent. -/
structure SameNamed (σ : Service) (d d' : EntityData) : Prop where
  entity : d'.entityId = d.entityId
  type : d'.typeId = d.typeId
  parent : ∀ td, TypeDefCache.get σ.registry d.typeId = some td →
    scopeParent td d'.data = scopeParent td d.data

theorem SameNamed.refl (σ : Service) (d : EntityData) : SameNamed σ d d :=
  ⟨rfl, rfl, fun _ _ => rfl⟩

/-- The scope parents are those the data name, and go round in no circle. -/
structure Service.Forest (σ : Service) : Prop where
  setOnce : ∀ td ∈ σ.registry, td.SetOnce
  named : ∀ d ∈ σ.store.entityData, ∀ td, TypeDefCache.get σ.registry d.typeId = some td →
    d.scopeParentId = (scopeParent td d.data).filter fun p => σ.store.entities.has p
  acyclic : Edges.Acyclic σ.store.ScopeEdge

theorem Store.scopeEdge_iff {s : Store} {x p : String} :
    s.ScopeEdge x p ↔ ∃ d ∈ s.entityData, d.entityId = x ∧ d.scopeParentId = some p := by
  unfold Store.ScopeEdge Store.parentOf
  rw [Option.bind_eq_some_iff]
  refine ⟨fun ⟨d, hd, hp⟩ => ?_, fun ⟨d, hd, hid, hp⟩ => ?_⟩
  · exact ⟨d, Table.mem_of_find? hd, Table.find?_key hd, hp⟩
  · exact ⟨d, Table.find?_eq_some.mpr ⟨hd, hid⟩, hp⟩

section Effect

variable {σ τ : Service} {r : Request}

/-- What the data of a stored row names is mentioned. -/
theorem mentions_named {d : EntityData} (hd : d ∈ σ.store.entityData) {td : TypeDef} {p : String}
    (hp : scopeParent td d.data = some p) : σ.store.Mentions p := by
  obtain ⟨k, -, hstr⟩ := scopeParent_eq_some.mp hp
  exact Or.inr (Or.inl ⟨d, hd, Json.mem_strings_of_str? hstr⟩)

/-- An entity that was not there before was minted. -/
theorem Effect.entities (he : Effect σ r τ) {p : String} (hp : τ.store.entities.has p = true) :
    σ.store.entities.has p = true ∨ r.Mints σ p := by
  cases he with
  | nothing => exact Or.inl hp
  | created evs checked tx =>
      obtain ⟨ents, rows, e, cases, hents, -, -, -, -, -, -, -, -, -, rfl⟩ := createTx_ok tx
      rcases (Table.has_insert hents).mp hp with hold | hnew
      · exact Or.inl hold
      · exact Or.inr ⟨_, checked.typed, hnew.symm⟩
  | updated evs checked succ parent mirror => exact Or.inl hp
  | deleted evs => exact Or.inl (Store.has_deleted.mp hp).1
  | registered evs valid tx =>
      obtain ⟨hnodup, types, -, rfl⟩ := registerTx_ok tx
      exact Or.inl hp
  | stamped evs run found obj => exact Or.inl hp
  | promoted found obj => exact Or.inl hp
  | minted tx =>
      obtain ⟨ents, rows, ids, hents, -, -, -, rfl⟩ := loginTx_ok tx
      rcases (Table.has_insert hents).mp hp with hold | hnew
      · exact Or.inl hold
      · exact Or.inr hnew.symm

/-- A run of a connector leaves the project it names. -/
theorem scopeParent_stampedData (m : JsonMap) (now status : String) :
    scopeParent connectorType (stampedData m now status) = scopeParent connectorType (.obj m) := by
  show (stampedData m now status).str? "project_id" = (Json.obj m).str? "project_id"
  unfold Json.str? stampedData
  rw [Json.get?_obj, JsonMap.get?_insert, if_neg (by decide), JsonMap.get?_insert,
    if_neg (by decide)]
  rfl

/-- Every row names the parent it named before, or is that of a minted entity and names a parent
that was mentioned. -/
theorem Effect.rows (hs : σ.Sound) (hf : σ.Forest) (he : Effect σ r τ) {d' : EntityData}
    (hd' : d' ∈ τ.store.entityData) :
    (∃ d ∈ σ.store.entityData, SameNamed σ d d') ∨
      (r.Mints σ d'.entityId ∧
        ∀ p, d'.scopeParentId = some p → σ.store.Mentions p ∨ r.Mentions p) := by
  have hkept : d' ∈ σ.store.entityData → (∃ d ∈ σ.store.entityData, SameNamed σ d d') :=
    fun hold => ⟨d', hold, SameNamed.refl σ d'⟩
  cases he with
  | nothing => exact Or.inl (hkept hd')
  | created evs checked tx =>
      obtain ⟨ents, rows, e, cases, -, hrows, -, -, -, -, -, -, -, -, rfl⟩ := createTx_ok tx
      rcases (Table.mem_insert hrows).mp hd' with hold | rfl
      · exact Or.inl (hkept hold)
      · refine Or.inr ⟨⟨_, checked.typed, rfl⟩, fun p hp => ?_⟩
        exact checked.scopeParent_mentioned hs.synced
          (hf.setOnce _ (Table.mem_of_find? checked.typed)) hp
  | @updated _ _ _ _ _ _ _ _ _ row _ _ _ _ evs checked succ parent mirror =>
      rcases Table.mem_upsert.mp hd' with rfl | ⟨hold, -⟩
      · refine Or.inl ⟨row, Service.Sound.row_mem checked.found, rfl, rfl, fun td htd => ?_⟩
        obtain rfl := Service.Sound.row_typed checked.found checked.typed htd
        exact checked.scopeParent_eq (hf.setOnce _ (Table.mem_of_find? checked.typed))
      · exact Or.inl (hkept hold)
  | @deleted _ _ _ id _ evs =>
      obtain ⟨q, hq, -, rfl⟩ := Store.mem_entityData_deleted.mp hd'
      refine Or.inl ⟨q, hq, q.orphaned_entityId id, q.orphaned_typeId id, fun td _ => ?_⟩
      rw [EntityData.orphaned_data]
  | registered evs valid tx =>
      obtain ⟨hnodup, types, -, rfl⟩ := registerTx_ok tx
      exact Or.inl (hkept hd')
  | @stamped _ env _ _ _ status row m ver evs run found obj =>
      rcases Table.mem_upsert.mp hd' with rfl | ⟨hold, -⟩
      · refine Or.inl ⟨row, Service.Sound.row_mem found, rfl, rfl, fun td htd => ?_⟩
        obtain rfl := Service.Sound.row_typed found hs.connector htd
        rw [obj]
        exact scopeParent_stampedData m env.now.text status
      · exact Or.inl (hkept hold)
  | @promoted _ row m found obj =>
      rcases Table.mem_upsert.mp hd' with rfl | ⟨hold, -⟩
      · refine Or.inl ⟨row, Service.Sound.row_mem found, rfl, rfl, fun td htd => ?_⟩
        obtain rfl := Service.Sound.row_typed found hs.actor htd
        rfl
      · exact Or.inl (hkept hold)
  | minted tx =>
      obtain ⟨ents, rows, ids, -, hrows, -, -, rfl⟩ := loginTx_ok tx
      rcases (Table.mem_insert hrows).mp hd' with hold | rfl
      · exact Or.inl (hkept hold)
      · exact Or.inr ⟨rfl, fun p hp => by simp at hp⟩

theorem filter_congr_some {α : Type} {o : Option α} {p q : α → Bool}
    (h : ∀ a, o = some a → p a = q a) : o.filter p = o.filter q := by
  cases o with
  | none => rfl
  | some a =>
      show (if p a = true then some a else none) = if q a = true then some a else none
      rw [h a rfl]

/-- The rows that were there keep the parent they name, when the entities that are new are not
mentioned. -/
theorem Service.Forest.named_grows (hf : σ.Forest) {s : Store}
    (hgrow : ∀ p, σ.store.entities.has p = true → s.entities.has p = true)
    (hnew : ∀ p, s.entities.has p = true →
      σ.store.entities.has p = true ∨ ¬ σ.store.Mentions p)
    {d : EntityData} (hd : d ∈ σ.store.entityData) {td : TypeDef}
    (htd : TypeDefCache.get σ.registry d.typeId = some td) :
    d.scopeParentId = (scopeParent td d.data).filter fun p => s.entities.has p := by
  rw [hf.named d hd td htd]
  refine filter_congr_some fun p hp => ?_
  have hmention := mentions_named hd hp
  rw [Bool.eq_iff_iff]
  refine ⟨hgrow p, fun h => ?_⟩
  rcases hnew p h with hold | hfresh
  · exact hold
  · exact absurd hmention hfresh

/-- A registered type stays as it is. -/
theorem Effect.get_registry (hs : σ.Sound) (he : Effect σ r τ) {k : String} {td : TypeDef}
    (hk : TypeDefCache.get σ.registry k = some td) : TypeDefCache.get τ.registry k = some td := by
  cases he with
  | registered evs valid tx =>
      obtain ⟨hnodup, types, htypes, rfl⟩ := registerTx_ok tx
      rw [hs.synced] at hk
      exact Service.Sound.get_registered htypes hk
  | nothing | created _ _ _ | updated _ _ _ _ _ | deleted _ | stamped _ _ _ _ | promoted _ _
  | minted _ => exact hk

theorem Effect.setOnce (hs : σ.Sound) (hf : σ.Forest) (he : Effect σ r τ) :
    ∀ td ∈ τ.registry, td.SetOnce := by
  cases he with
  | registered evs valid tx =>
      obtain ⟨hnodup, types, htypes, rfl⟩ := registerTx_ok tx
      intro td htd
      rcases (Table.mem_insert htypes).mp htd with hold | rfl
      · exact hf.setOnce td (hs.synced ▸ hold)
      · exact setOnce_of_valid valid hnodup
  | nothing | created _ _ _ | updated _ _ _ _ _ | deleted _ | stamped _ _ _ _ | promoted _ _
  | minted _ => exact hf.setOnce

/-- The stored parent is the one the data names, after every effect as before. -/
theorem Effect.named (hs : σ.Sound) (hf : σ.Forest) (hfresh : r.MintsFresh σ) (he : Effect σ r τ)
    {d' : EntityData} (hd' : d' ∈ τ.store.entityData) {td : TypeDef}
    (htd : TypeDefCache.get τ.registry d'.typeId = some td) :
    d'.scopeParentId = (scopeParent td d'.data).filter fun p => τ.store.entities.has p := by
  have hnew : ∀ p, τ.store.entities.has p = true →
      σ.store.entities.has p = true ∨ ¬ σ.store.Mentions p := by
    intro p hp
    rcases he.entities hp with hold | hmint
    · exact Or.inl hold
    · exact Or.inr (hfresh p hmint).1
  have hkept : ∀ {q : Option String}, τ.store.refOk q = true →
      q = q.filter fun p => τ.store.entities.has p := by
    intro q hq
    cases q with
    | none => rfl
    | some p =>
        have hhas : τ.store.entities.has p = true := hq
        exact (Option.filter_some_pos hhas).symm
  cases he with
  | nothing => exact hf.named d' hd' td htd
  | created evs checked tx =>
      obtain ⟨ents, rows, e, cases, hents, hrows, -, -, -, -, -, -, hparent, -, rfl⟩ :=
        createTx_ok tx
      rcases (Table.mem_insert hrows).mp hd' with hold | rfl
      · exact hf.named_grows (fun p hp => (Table.has_insert hents).mpr (Or.inl hp)) hnew hold htd
      · obtain rfl := Option.some.inj (checked.typed.symm.trans htd)
        exact hkept hparent
  | updated evs checked succ parent mirror =>
      rcases Table.mem_upsert.mp hd' with rfl | ⟨hold, -⟩
      · obtain rfl := Service.Sound.row_typed checked.found checked.typed htd
        exact hkept parent
      · exact hf.named d' hold td htd
  | @deleted _ _ _ id _ evs =>
      obtain ⟨q, hq, -, rfl⟩ := Store.mem_entityData_deleted.mp hd'
      rw [EntityData.orphaned_typeId] at htd
      have hold := hf.named q hq td htd
      rw [EntityData.orphaned_data, EntityData.orphaned_scopeParentId, hold, Option.filter_filter]
      refine filter_congr_some fun p _ => ?_
      rw [Bool.eq_iff_iff]
      show _ ↔ (cascadeDelete σ.store id).entities.has p = true
      rw [Store.has_deleted]
      simp
  | registered evs valid tx =>
      obtain ⟨hnodup, types, htypes, rfl⟩ := registerTx_ok tx
      obtain ⟨td', htd', -⟩ := hs.fits d' hd'
      have hafter : TypeDefCache.get types d'.typeId = some td' := by
        rw [hs.synced] at htd'
        exact Service.Sound.get_registered htypes htd'
      obtain rfl : td' = td := Option.some.inj (hafter.symm.trans htd)
      exact hf.named d' hd' td' htd'
  | @stamped _ env _ _ _ status row m ver evs run found obj =>
      rcases Table.mem_upsert.mp hd' with rfl | ⟨hold, -⟩
      · obtain rfl := Service.Sound.row_typed found hs.connector htd
        have hrow := hf.named row (Service.Sound.row_mem found) connectorType htd
        rw [obj, ← scopeParent_stampedData m env.now.text status] at hrow
        exact hrow
      · exact hf.named d' hold td htd
  | @promoted _ row m found obj =>
      rcases Table.mem_upsert.mp hd' with rfl | ⟨hold, -⟩
      · obtain rfl := Service.Sound.row_typed found hs.actor htd
        exact hf.named row (Service.Sound.row_mem found) actorType htd
      · exact hf.named d' hold td htd
  | minted tx =>
      obtain ⟨ents, rows, ids, hents, hrows, -, -, rfl⟩ := loginTx_ok tx
      rcases (Table.mem_insert hrows).mp hd' with hold | rfl
      · exact hf.named_grows (fun p hp => (Table.has_insert hents).mpr (Or.inl hp)) hnew hold htd
      · obtain rfl := Option.some.inj (hs.actor.symm.trans htd)
        rfl

/-- A parent that a row of before is stored under was its parent before. -/
theorem Effect.parent_kept (hs : σ.Sound) (hf : σ.Forest) (hfresh : r.MintsFresh σ)
    (he : Effect σ r τ) {d d' : EntityData} (hd : d ∈ σ.store.entityData)
    (hd' : d' ∈ τ.store.entityData) (hsame : SameNamed σ d d') {p : String}
    (hp : d'.scopeParentId = some p) : d.scopeParentId = some p := by
  obtain ⟨td, htd, -⟩ := hs.fits d hd
  have htd' : TypeDefCache.get τ.registry d'.typeId = some td := by
    rw [hsame.type]
    exact he.get_registry hs htd
  have hafter := he.named hs hf hfresh hd' htd'
  rw [hsame.parent td htd, hp] at hafter
  obtain ⟨hname, hhas⟩ := Option.filter_eq_some_iff.mp hafter.symm
  rw [hf.named d hd td htd, hname]
  refine Option.filter_some_pos ?_
  rcases he.entities hhas with hold | hmint
  · exact hold
  · exact absurd (mentions_named hd hname) (hfresh p hmint).1

/-- **No effect closes a circle.** -/
theorem Effect.acyclic (hs : σ.Sound) (hf : σ.Forest) (hfresh : r.MintsFresh σ)
    (he : Effect σ r τ) : Edges.Acyclic τ.store.ScopeEdge := by
  have hedge : ∀ x p, τ.store.ScopeEdge x p → σ.store.ScopeEdge x p ∨ r.Mints σ x := by
    intro x p h
    obtain ⟨d', hd', rfl, hp⟩ := Store.scopeEdge_iff.mp h
    rcases he.rows hs hf hd' with ⟨d, hd, hsame⟩ | ⟨hmint, -⟩
    · refine Or.inl (Store.scopeEdge_iff.mpr ⟨d, hd, hsame.entity.symm, ?_⟩)
      exact he.parent_kept hs hf hfresh hd hd' hsame hp
    · exact Or.inr hmint
  have hnew : ∀ x p, τ.store.ScopeEdge x p → ¬ r.Mints σ p := by
    intro x p h hmint
    obtain ⟨d', hd', rfl, hp⟩ := Store.scopeEdge_iff.mp h
    obtain ⟨hstore, hrequest⟩ := hfresh p hmint
    rcases he.rows hs hf hd' with ⟨d, hd, hsame⟩ | ⟨-, hnamed⟩
    · have hbefore := he.parent_kept hs hf hfresh hd hd' hsame hp
      have hhas : σ.store.refOk (some p) = true := hbefore ▸ hs.valid.dataParent d hd
      exact hstore (Or.inl hhas)
    · rcases hnamed p hp with hmention | hmention
      · exact hstore hmention
      · exact hrequest hmention
  exact hf.acyclic.sources hedge hnew

theorem Service.Forest.effect (hf : σ.Forest) (hs : σ.Sound) (hfresh : r.MintsFresh σ)
    (he : Effect σ r τ) : τ.Forest :=
  ⟨he.setOnce hs hf, fun _ hd _ htd => he.named hs hf hfresh hd htd, he.acyclic hs hf hfresh⟩

end Effect

/-! ### Runs -/

section Runs

variable {σ : Service}

theorem Service.Forest.run (hf : σ.Forest) (hs : σ.Sound) (reqs : List Request)
    (hfresh : σ.MintsFresh reqs) : (σ.run reqs).Forest := by
  induction reqs generalizing σ with
  | nil => exact hf
  | cons r rest ih =>
      exact ih (hf.effect hs hfresh.1 (σ.perform_effect r)) (hs.perform r) hfresh.2

theorem Service.Forest.seeded : Service.seeded.Forest where
  setOnce := by decide
  named := by
    intro d hd td htd
    obtain rfl : d = devActor := List.mem_singleton.mp hd
    obtain rfl : actorType = td := Option.some.inj htd
    rfl
  acyclic := by
    refine Edges.acyclic_of_forall_not fun x p h => ?_
    obtain ⟨d, hd, -, hp⟩ := Store.scopeEdge_iff.mp h
    obtain rfl : d = devActor := List.mem_singleton.mp hd
    simp [devActor] at hp

theorem Service.mintsFresh_append {first rest : List Request} :
    σ.MintsFresh (first ++ rest) ↔ σ.MintsFresh first ∧ (σ.run first).MintsFresh rest := by
  induction first generalizing σ with
  | nil => exact (and_iff_right trivial).symm
  | cons r first ih =>
      show _ ∧ (σ.perform r).MintsFresh (first ++ rest) ↔ _
      rw [ih]
      exact and_assoc.symm

theorem Service.get_registry_run (hs : σ.Sound) (reqs : List Request) {k : String} {td : TypeDef}
    (hk : TypeDefCache.get σ.registry k = some td) :
    TypeDefCache.get (σ.run reqs).registry k = some td := by
  induction reqs generalizing σ with
  | nil => exact hk
  | cons r rest ih => exact ih (hs.perform r) ((σ.perform_effect r).get_registry hs hk)

/-- The entity has data after every request of a run. -/
def Service.Lasts (σ : Service) (x : String) : List Request → Prop
  | [] => True
  | r :: rest => (σ.perform r).store.entityData.has x = true ∧ (σ.perform r).Lasts x rest

/-- An entity that lasts names the parent it named, and no entity by that name is ever made. -/
theorem Service.Lasts.same {x : String} (hs : σ.Sound) (hf : σ.Forest) {reqs : List Request}
    (hfresh : σ.MintsFresh reqs) (hlasts : σ.Lasts x reqs) {d d' : EntityData}
    (hd : d ∈ σ.store.entityData) (hid : d.entityId = x)
    (hd' : d' ∈ (σ.run reqs).store.entityData) (hid' : d'.entityId = x) :
    SameNamed σ d d' ∧ ∀ td p, TypeDefCache.get σ.registry d.typeId = some td →
      scopeParent td d.data = some p → (σ.run reqs).store.entities.has p = true →
        σ.store.entities.has p = true := by
  induction reqs generalizing σ d with
  | nil =>
      obtain rfl : d = d' := by
        have hfind := Table.find?_eq_some.mpr ⟨hd, hid⟩
        exact Option.some.inj (hfind.symm.trans (Table.find?_eq_some.mpr ⟨hd', hid'⟩))
      exact ⟨SameNamed.refl σ d, fun _ _ _ _ h => h⟩
  | cons r rest ih =>
      have he := σ.perform_effect r
      obtain ⟨q, hq, hqid⟩ := Table.has_iff.mp hlasts.1
      obtain ⟨hsame, hnone⟩ := ih (hs.perform r) (hf.effect hs hfresh.1 he) hfresh.2 hlasts.2 hq hqid
        hd'
      rcases he.rows hs hf hq with ⟨d₀, hd₀, hstep⟩ | ⟨hmint, -⟩
      rotate_left
      · -- A minted id is none that has a row already.
        refine absurd (Or.inl ?_) (hfresh.1 _ hmint).1
        rw [hqid, ← hid]
        exact hs.valid.dataEntity d hd
      obtain rfl : d₀ = d := by
        have hfind := Table.find?_eq_some.mpr ⟨hd₀, hstep.entity.symm.trans hqid⟩
        exact Option.some.inj (hfind.symm.trans (Table.find?_eq_some.mpr ⟨hd, hid⟩))
      have hget : ∀ td, TypeDefCache.get σ.registry d₀.typeId = some td →
          TypeDefCache.get (σ.perform r).registry q.typeId = some td := by
        intro td htd
        rw [hstep.type]
        exact he.get_registry hs htd
      refine ⟨⟨hsame.entity.trans hstep.entity, hsame.type.trans hstep.type, fun td htd => ?_⟩, ?_⟩
      · exact (hsame.parent td (hget td htd)).trans (hstep.parent td htd)
      · intro td p htd hp hhas
        have hnamed : scopeParent td q.data = some p := (hstep.parent td htd).trans hp
        rcases he.entities (hnone td p (hget td htd) hnamed hhas) with hold | hmint
        · exact hold
        · exact absurd (mentions_named hd₀ hp) (hfresh.1 p hmint).1

end Runs

/--
**The scope parents never go round in a circle, and the parent of an entity is the
one it was created under, or none once that one is gone.**
-/
theorem scope_forest (first more : List Request)
    (hfresh : Service.seeded.MintsFresh (first ++ more)) :
    Edges.Acyclic ((Service.seeded.run first).run more).store.ScopeEdge ∧
      ∀ d ∈ (Service.seeded.run first).store.entityData,
        ∀ d' ∈ ((Service.seeded.run first).run more).store.entityData,
          d'.entityId = d.entityId → (Service.seeded.run first).Lasts d.entityId more →
            d'.scopeParentId = d.scopeParentId.filter fun p =>
              ((Service.seeded.run first).run more).store.entities.has p := by
  obtain ⟨hfirst, hmore⟩ := Service.mintsFresh_append.mp hfresh
  have hs := Service.Sound.seeded.run first
  have hf := Service.Forest.seeded.run Service.Sound.seeded first hfirst
  have hf' := hf.run hs more hmore
  refine ⟨hf'.acyclic, fun d hd d' hd' hid hlasts => ?_⟩
  obtain ⟨hsame, hnone⟩ := hlasts.same hs hf hmore hd rfl hd' hid
  obtain ⟨td, htd, -⟩ := hs.fits d hd
  have htd' : TypeDefCache.get ((Service.seeded.run first).run more).registry d'.typeId =
      some td := by
    rw [hsame.type]
    exact Service.get_registry_run hs more htd
  rw [hf'.named d' hd' td htd', hsame.parent td htd, hf.named d hd td htd, Option.filter_filter]
  refine filter_congr_some fun p hp => ?_
  rw [Bool.eq_iff_iff, Bool.and_eq_true]
  exact ⟨fun h => ⟨hnone td p htd hp h, h⟩, fun h => h.2⟩

/-- A project, and a capability in it. -/
def planning : List Request :=
  [.create plainCtx { uuid := "1" } dev "project" versionOne launchBody,
    .create plainCtx { uuid := "1" } dev "capability" versionOne
      (.ok ⟨.obj [("description", .str "Fast"), ("key", .str "speed"),
        ("project_id", .str "PRJ_1")], by simp [JsonMap.keys]⟩)]

/-- The project is given up. -/
def givingUp : List Request := [.delete plainCtx dev "project" "PRJ_1" versionOne]

def capabilityRow (parent : Option String) : EntityData where
  entityId := "CAP_1"
  typeId := "capability"
  data := .obj [("description", .str "Fast"), ("key", .str "speed"),
    ("project_id", .str "PRJ_1"), ("status", .str "live")]
  scopeParentId := parent

theorem planning_fresh : Service.seeded.MintsFresh (planning ++ givingUp) := by
  refine ⟨?_, ?_, ?_, trivial⟩
  · rintro x ⟨td, htd, rfl⟩
    obtain rfl : projectType = td := Option.some.inj htd
    refine ⟨by decide, ?_⟩
    rintro ⟨doc, hdoc, hmem⟩
    obtain rfl := Except.ok.inj hdoc
    exact absurd hmem (by decide)
  · rintro x ⟨td, htd, rfl⟩
    obtain rfl : capabilityType = td := Option.some.inj htd
    refine ⟨by decide, ?_⟩
    rintro ⟨doc, hdoc, hmem⟩
    obtain rfl := Except.ok.inj hdoc
    exact absurd hmem (by decide)
  · intro x hx
    exact hx.elim

/-- The capability was made in the project, and is in none when that is gone. -/
theorem capability_orphaned :
    capabilityRow (some "PRJ_1") ∈ (Service.seeded.run planning).store.entityData ∧
      capabilityRow none ∈ ((Service.seeded.run planning).run givingUp).store.entityData ∧
      Edges.Acyclic ((Service.seeded.run planning).run givingUp).store.ScopeEdge ∧
      (capabilityRow none).scopeParentId =
        (capabilityRow (some "PRJ_1")).scopeParentId.filter fun p =>
          ((Service.seeded.run planning).run givingUp).store.entities.has p :=
  ⟨by decide, by decide, (scope_forest planning givingUp planning_fresh).1,
    (scope_forest planning givingUp planning_fresh).2 _ (by decide) _ (by decide) rfl
      ⟨by decide, trivial⟩⟩

end Numu
