/-
Every stored object fits its type, in every interleaving.

`Numu/Proofs/Schema.lean` shows it of requests that run one after another.  Among
others a request works with what is no longer current: the registry the process had
when the request began, and the row it read before its checks.  Neither does harm.  A
type stays as it was registered, so what the request knew of it still holds; and the
row it read fitted that type when it was read, which is all that the check of the new
data rests on.

So the induction here is over the commits of a run, with the claim at hand for every
moment before the commit and not only for the last.
-/
import Numu.Proofs.Consistency
import Numu.Proofs.Rows

namespace Numu

open Fallible

/-! ### What an update builds -/

/-- What an update builds over data that fits fits, where its checks agreed. -/
theorem UpdateAgreed.fits {v : UpdateVerb} {st : AppState} {ctx : RequestCtx} {td : TypeDef}
    {headers : HeaderMap} {body : Body} {existing payload : Json} {expected : I32}
    (h : UpdateAgreed v st ctx td headers body existing payload expected)
    (hold : Fits td existing) : Fits td (v.build td existing payload) where
  declared := by
    refine declared_of_undeclared fun k hk => ?_
    by_cases hchanged : (v.build td existing payload).get? k = existing.get? k
    · exact hchanged.trans (hold.undeclared hk)
    obtain ⟨pm, hobj, -⟩ := readJson_ok h.parsed
    rcases build_changed ⟨pm, hobj⟩ hchanged with hkey | ⟨-, f, hf, hfield, -⟩
    · obtain ⟨f, hf, -⟩ := checkInput_ok h.editable hkey
      rw [hk] at hf
      cases hf
    · exact absurd hfield (td.field_ne hk f hf)
  final := h.wellFormed

theorem CreateAgreed.fits {st : AppState} {ctx : RequestCtx} {td : TypeDef} {headers : HeaderMap}
    {body : Body} {payload : Json} (h : CreateAgreed st ctx td headers body payload) :
    Fits td (buildCreateData td payload) where
  declared := declared_of_undeclared fun _ hk => get?_buildCreateData_undeclared payload hk
  final := h.wellFormed

/-! ### The types and the rows -/

/-- A row fits the type it is stored under, and that type is registered. -/
def EntityData.Typed (d : EntityData) (s : Store) : Prop :=
  ∃ td ∈ s.typeDefinitions, td.typeId = d.typeId ∧ Fits td d.data

theorem EntityData.Typed.mono {d : EntityData} {s t : Store} (h : d.Typed s)
    (hst : ∀ td ∈ s.typeDefinitions, td ∈ t.typeDefinitions) : d.Typed t := by
  obtain ⟨td, htd, htype, hfits⟩ := h
  exact ⟨td, hst td htd, htype, hfits⟩

/-- The type of a row is the one registered under its name. -/
theorem EntityData.Typed.fits {d : EntityData} {s : Store} (h : d.Typed s) {td : TypeDef}
    (htd : td ∈ s.typeDefinitions) (htype : td.typeId = d.typeId) : Fits td d.data := by
  obtain ⟨td', htd', htype', hfits⟩ := h
  obtain rfl : td' = td :=
    List.inj_on_of_nodup_map s.typeDefinitions.nodup htd' htd (htype'.trans htype.symm)
  exact hfits

/-- The process knows only registered types, and every stored object fits its own. -/
structure Server.Conforms (π : Server) : Prop where
  registry : ∀ td ∈ π.registry, td ∈ π.store.typeDefinitions
  rows : ∀ d ∈ π.store.entityData, d.Typed π.store

namespace Server

variable {ρ : Type} {D : Deployment ρ} {req : Incoming} {past : Server → Prop} {π π' : Server}

/-- What the earlier moments are good for: they conform, and their types are still there. -/
abbrev Upheld (past : Server → Prop) (π : Server) : Prop :=
  ∀ u, past u → Conforms u ∧ ∀ td ∈ u.store.typeDefinitions, td ∈ π.store.typeDefinitions

theorem Wrote.types_kept (h : Wrote D req past π π') {td : TypeDef}
    (htd : td ∈ π.store.typeDefinitions) : td ∈ π'.store.typeDefinitions :=
  h.change.types_kept htd

/-- The registry that a write leaves was loaded before. -/
theorem Wrote.registry_known (h : Wrote D req past π π') (hpast : Upheld past π)
    (hπ : π.Conforms) : ∀ td ∈ π'.registry, td ∈ π'.store.typeDefinitions := by
  intro td htd
  refine h.types_kept ?_
  cases h with
  | counted => exact hπ.registry td htd
  | idle => exact hπ.registry td htd
  | caller _ h =>
      cases h with
      | @served _ σ _ _ _ _ _ loaded =>
          have htd : td ∈ σ.registry := htd
          rcases loaded with hsame | ⟨υ, ⟨u, hu, rfl⟩, hloaded⟩
          · rw [hsame] at htd
            exact hπ.registry td htd
          · rw [hloaded] at htd
            exact (hpast u hu).2 td htd
      | promoted => exact hπ.registry td htd
      | closed => exact hπ.registry td htd
  | login h =>
      cases h with
      | enrolled => exact hπ.registry td htd
      | opened _ h =>
          obtain ⟨rows, -, -, -, rfl⟩ := insertSession_ok h
          exact hπ.registry td htd

/-- A type that the process knew at a moment before is registered. -/
theorem Upheld.registered (hpast : Upheld past π) {υ : Server} (hυ : past υ) {typeId : String}
    {td : TypeDef} (htd : TypeDefCache.get υ.registry typeId = some td) :
    td ∈ π.store.typeDefinitions ∧ td.typeId = typeId := by
  obtain ⟨hmem, hkey⟩ := Table.find?_eq_some.mp htd
  exact ⟨(hpast υ hυ).2 td ((hpast υ hυ).1.registry td hmem), hkey⟩

/-- A row that an endpoint stores and that was not there fits its type. -/
theorem served_typed {e : Endpoint} {caller : Caller} {υ : Server} {s : Store}
    (hpast : Upheld past π) (hπ : π.Conforms) (hseeded : π.store.Seeded) (hυ : past υ)
    (checked : e.Checked (stores past) υ.toAppState (requestCtx req.requestId req.draws)
      π.store s)
    (h : e.WroteRows req.draws caller π.store s) {d : EntityData}
    (hd : d ∈ s.entityData) (hnew : d ∉ π.store.entityData) :
    d.Typed π.store := by
  generalize hstore : π.store = s₀ at *
  cases h with
  | created type h =>
      obtain ⟨td, payload, htd, htype, hagreed, hdata⟩ := checked d hd hnew
      obtain ⟨hmem, hkey⟩ := hpast.registered hυ htd
      refine ⟨td, hstore ▸ hmem, hkey.trans htype.symm, ?_⟩
      rw [hdata]
      exact hagreed.fits
  | updated h =>
      obtain ⟨td, seen, payload, expected, htd, -, htype, ⟨u, ⟨w, hw, rfl⟩, hseen⟩, hagreed,
        hdata⟩ := checked d hd hnew
      obtain ⟨hmem, hkey⟩ := hpast.registered hυ htd
      refine ⟨td, hstore ▸ hmem, hkey.trans htype.symm, ?_⟩
      rw [hdata]
      -- The row that was read fitted the type when it was read.
      obtain ⟨hrow, hrowType⟩ := Store.row?_eq_some.mp hseen
      have hold : seen.Typed π.store :=
        ((hpast w hw).1.rows seen (Table.mem_of_find? hrow)).mono (hpast w hw).2
      exact hagreed.fits (hold.fits hmem (hkey.trans hrowType.symm))
  | deleted h =>
      rcases deleteEntity_ok h with ⟨-, rfl⟩ | ⟨-, -, rfl⟩
      · exact absurd hd hnew
      · obtain ⟨q, hq, -, rfl⟩ := Store.mem_entityData_deleted.mp hd
        obtain ⟨td, htd, htype, hfits⟩ := hπ.rows q (hstore ▸ hq)
        refine ⟨td, hstore ▸ htd, ?_, ?_⟩
        · rw [EntityData.orphaned_typeId]
          exact htype
        · rw [EntityData.orphaned_data]
          exact hfits
  | stamped run h =>
      obtain ⟨row, m, hrow, hobj, -, rfl⟩ := stampConnector_ok h
      rcases Table.mem_upsert.mp hd with rfl | ⟨hold, -⟩
      · obtain ⟨hmem, hkey⟩ := Store.row?_eq_some.mp hrow
        have hconnector : connectorType ∈ s₀.typeDefinitions := hseeded.types _ (by decide)
        have hold := hπ.rows row (hstore ▸ Table.mem_of_find? hmem)
        have hfits := hold.fits (hstore ▸ hconnector) hkey.symm
        rw [hobj] at hfits
        exact ⟨connectorType, hconnector, hkey.symm, fits_stampedData hfits _ run⟩
      · exact absurd hold hnew
  | none h => exact absurd (h ▸ hd) hnew

/-- A row that was not there fits its type, whoever put it in. -/
theorem Wrote.row_typed (h : Wrote D req past π π') (hpast : Upheld past π) (hπ : π.Conforms)
    (hseeded : π.store.Seeded) {d : EntityData} (hd : d ∈ π'.store.entityData)
    (hnew : d ∉ π.store.entityData) : d.Typed π.store := by
  have hactor : actorType ∈ π.store.typeDefinitions := hseeded.types _ (by decide)
  have hstored := h.rewrote
  generalize π'.store = t at hstored hd
  cases hstored with
  | same => exact absurd hd hnew
  | served _ _ seen _ checked h =>
      exact served_typed hpast hπ hseeded seen checked h.rows hd hnew
  | promoted _ _ found obj =>
      rcases Table.mem_upsert.mp hd with rfl | ⟨hold, -⟩
      · obtain ⟨hmem, hkey⟩ := Store.row?_eq_some.mp found
        have hfits := (hπ.rows _ (Table.mem_of_find? hmem)).fits hactor hkey.symm
        rw [obj] at hfits
        exact ⟨actorType, hactor, hkey.symm, fits_promoted hfits⟩
      · exact absurd hold hnew
  | enrolled _ h =>
      obtain ⟨ents, rows, ids, -, hrows, -, -, rfl⟩ := loginTx_ok h
      rcases (Table.mem_insert hrows).mp hd with hold | rfl
      · exact absurd hold hnew
      · exact ⟨actorType, hactor, rfl, fits_loginActorData _ _ _⟩

/-- Every write keeps the types and the rows, when the moments before it did. -/
theorem Wrote.conforms (h : Wrote D req past π π') (hpast : Upheld past π) (hπ : π.Conforms)
    (hseeded : π.store.Seeded) : π'.Conforms where
  registry := h.registry_known hpast hπ
  rows := by
    intro d hd
    by_cases hold : d ∈ π.store.entityData
    · exact (hπ.rows d hold).mono fun _ htd => h.types_kept htd
    · exact (h.row_typed hpast hπ hseeded hd hold).mono fun _ htd => h.types_kept htd

section Runs

variable [LinearOrder ρ] {reqs : Nat → Incoming} {p : Pool Server (Option HttpReply)}

theorem booted_conforms : booted.Conforms where
  registry := fun _ h => h
  rows := by
    intro d hd
    obtain ⟨td, htd, hfits⟩ := Service.Sound.seeded.fits d hd
    obtain ⟨hmem, hkey⟩ := Table.find?_eq_some.mp htd
    exact ⟨td, hmem, hkey, hfits⟩

theorem Runs.conforms (hrun : Runs D reqs p) {π : Server} (hπ : p.world.Visited π) :
    π.Conforms := by
  have hfrom := Pool.Run.from hrun
  refine hfrom.always booted_conforms (fun l₁ c l₂ hlog hbefore => ?_) π hπ
  refine (hrun.wrote hlog).conforms (fun u hu => ⟨hbefore u hu, fun td htd => ?_⟩)
    (hbefore c.before (Or.inl rfl))
    (hrun.consistent c.before (hrun.visited hlog (Or.inl rfl))).seeded
  -- A type that was registered at an earlier moment still is.
  refine hfrom.found (P := fun u => td ∈ u.store.typeDefinitions) (fun d hd htd => ?_) hlog hu htd
  obtain ⟨k, k', hsplit⟩ := List.append_of_mem hd
  exact (hrun.wrote hsplit).types_kept htd

/--
**Every stored object fits its type at every moment of every interleaving.**  Whatever requests
come and however their statements are interleaved, the registry of the process holds registered
types only, and the data of every row is an object of fields that the type registered under the
row's type declares, with every required field there and every value of its kind.
-/
theorem objects_fit_always (hrun : Runs D reqs p) {π : Server} (hπ : p.world.Visited π) :
    (∀ td ∈ π.registry, td ∈ π.store.typeDefinitions) ∧
      ∀ d ∈ π.store.entityData, ∃ td ∈ π.store.typeDefinitions,
        td.typeId = d.typeId ∧ Fits td d.data :=
  ⟨(hrun.conforms hπ).registry, (hrun.conforms hπ).rows⟩

end Runs

/-- In the evening of Ada's day every object fits its type, her project after two writes too. -/
theorem adas_objects_fit : adasRun.world.now.store.events.length = 2 ∧
    (∀ td ∈ adasRun.world.now.registry, td ∈ adasRun.world.now.store.typeDefinitions) ∧
      ∀ d ∈ adasRun.world.now.store.entityData, ∃ td ∈ adasRun.world.now.store.typeDefinitions,
        td.typeId = d.typeId ∧ Fits td d.data :=
  ⟨adasRun_facts.2.2.2.2, objects_fit_always adasRun_runs (Or.inl rfl)⟩

end Server

end Numu
