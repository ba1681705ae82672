/-
The publication of registered types.

A registration inserts its type, loads the registry from the database and puts it
in the place of the one the process publishes, in three steps of which the last
two are not one.  The database only ever gains types, so a registry loaded later
holds more; but nothing makes the registries be published in the order they were
loaded in.

As long as no registry is replaced by one that was loaded earlier, the published
registry only grows.  A request that has published what it loaded is then done:
its own type is in there, and stays.
-/
import Numu.Proofs.Registration
import Numu.Lib.Watch

namespace Numu

open Fallible Contract

/-- A request that registers a type. -/
structure TypeRequest where
  display : Json → String
  ctx : RequestCtx
  caller : Caller
  body : Except String TypeSpec

def TypeRequest.handle (r : TypeRequest) : Fallible AppError Service Response :=
  createType r.display r.ctx r.caller r.body

/-- The programs of some registrations. -/
def registrations (reqs : Nat → TypeRequest) (n : Nat) :
    Resumption Service (Except AppError Response) := ExceptT.run (reqs n).handle

/-! ### The published registry grows -/

/-- No commit took a type out of the published registry. -/
def Kept (log : List (Commit Service)) : Prop :=
  ∀ c ∈ log, ∀ td ∈ c.before.registry, td ∈ c.after.registry

theorem kept_concat {log : List (Commit Service)} {c : Commit Service}
    (h : Kept (log ++ [c])) : Kept log ∧ ∀ td ∈ c.before.registry, td ∈ c.after.registry :=
  ⟨fun d hd => h d (List.mem_append.mpr (Or.inl hd)), h c (by simp)⟩

/-- The commit inserted the type. -/
def Inserted (c : Commit Service) (td : TypeDef) : Prop :=
  td ∈ c.after.store.typeDefinitions ∧ td ∉ c.before.store.typeDefinitions

/-- Types are only ever inserted, and every one was there at the start or was inserted by
somebody. -/
def publication (σ₀ : Service) : Contract Service where
  inv w := (∀ td ∈ w.now.store.typeDefinitions, td ∈ σ₀.registry ∨ ∃ c ∈ w.log, Inserted c td) ∧
    (Kept w.log → ∀ td ∈ σ₀.registry, td ∈ w.now.registry)
  rely i w w' := World.SameCommits i w w' ∧
    (∀ td ∈ w.now.store.typeDefinitions, td ∈ w'.now.store.typeDefinitions) ∧
    (Kept w'.log → Kept w.log ∧ ∀ td ∈ w.now.registry, td ∈ w'.now.registry)
  guar i w w' := w'.log = w.log ++ [⟨i, w.now, w'.now⟩] ∧
    ∀ td ∈ w.now.store.typeDefinitions, td ∈ w'.now.store.typeDefinitions
  rely_refl _ _ := ⟨fun _ _ => Iff.rfl, fun _ h => h, fun h => ⟨h, fun _ hreg => hreg⟩⟩
  rely_trans h₁ h₂ := ⟨fun c hc => (h₂.1 c hc).trans (h₁.1 c hc),
    fun td htd => h₂.2.1 td (h₁.2.1 td htd),
    fun hkept => ⟨(h₁.2.2 (h₂.2.2 hkept).1).1, fun td htd =>
      (h₂.2.2 hkept).2 td ((h₁.2.2 (h₂.2.2 hkept).1).2 td htd)⟩⟩
  inv_guar := by
    rintro i w w' ⟨hstored, hpublished⟩ ⟨hlog, -⟩
    refine ⟨fun td htd => ?_, fun hkept td htd => ?_⟩
    · by_cases hold : td ∈ w.now.store.typeDefinitions
      · rcases hstored td hold with hstart | ⟨c, hc, hin⟩
        · exact Or.inl hstart
        · exact Or.inr ⟨c, by rw [hlog]; exact List.mem_append.mpr (Or.inl hc), hin⟩
      · exact Or.inr ⟨⟨i, w.now, w'.now⟩, by rw [hlog]; simp, htd, hold⟩
    · rw [hlog] at hkept
      obtain ⟨hbefore, hlast⟩ := kept_concat hkept
      exact hlast td (hpublished hbefore td htd)
  rely_guar := by
    rintro i j w w' hij - ⟨hlog, htypes⟩
    refine ⟨World.sameCommits_commit hij hlog, htypes, fun hkept => ?_⟩
    rw [hlog] at hkept
    exact kept_concat hkept

section Registration

variable {σ₀ : Service} {i : Nat} {w : World Service}

/-- Every type that the program inserted is in the database. -/
def OwnStored (i : Nat) (w : World Service) : Prop :=
  ∀ c ∈ w.log, c.who = i → ∀ td, Inserted c td → td ∈ w.now.store.typeDefinitions

/-- Every type that the program inserted is published. -/
def OwnPublished (i : Nat) (w : World Service) : Prop :=
  Kept w.log → ∀ c ∈ w.log, c.who = i → ∀ td, Inserted c td → td ∈ w.now.registry

theorem OwnStored.rely {w' : World Service} (h : OwnStored i w)
    (hr : (publication σ₀).rely i w w') : OwnStored i w' := by
  intro c hc hwho td hin
  exact hr.2.1 td (h c ((hr.1 c hwho).mp hc) hwho td hin)

theorem OwnPublished.rely {w' : World Service} (h : OwnPublished i w)
    (hr : (publication σ₀).rely i w w') : OwnPublished i w' := by
  intro hkept c hc hwho td hin
  obtain ⟨hbefore, hreg⟩ := hr.2.2 hkept
  exact hreg td (h hbefore c ((hr.1 c hwho).mp hc) hwho td hin)

theorem ownPublished_of_fresh (h : w.Fresh i) : OwnPublished i w := by
  intro _ c hc hwho
  exact absurd hwho (h c hc)

/-- A commit that inserts no type has nothing of its own to publish. -/
theorem not_inserted_of_eq {a b : Service}
    (h : b.store.typeDefinitions = a.store.typeDefinitions) (td : TypeDef) :
    ¬ Inserted ⟨i, a, b⟩ td := by
  intro hin
  have hafter : td ∈ b.store.typeDefinitions := hin.1
  rw [h] at hafter
  exact hin.2 hafter

theorem OwnPublished.commit {t : Service} (h : OwnPublished i w)
    (htypes : t.store.typeDefinitions = w.now.store.typeDefinitions)
    (hreg : t.registry = w.now.registry) : OwnPublished i (w.commit i fun _ => t) := by
  intro hkept c hc hwho td hin
  show td ∈ t.registry
  rw [hreg]
  rcases List.mem_append.mp hc with hc | hc
  · exact h (kept_concat hkept).1 c hc hwho td hin
  · obtain rfl := List.mem_singleton.mp hc
    exact absurd hin (not_inserted_of_eq htypes td)

/-- What is published after the insertion includes what was inserted. -/
theorem ownPublished_publish {reg : TypeDefCache}
    (h : ∀ c ∈ w.log, c.who = i → ∀ td, Inserted c td → td ∈ reg) :
    OwnPublished i (w.commit i fun _ => { w.now with registry := reg }) := by
  intro _ c hc hwho td hin
  rcases List.mem_append.mp hc with hc | hc
  · exact h c hc hwho td hin
  · obtain rfl := List.mem_singleton.mp hc
    exact absurd hin (not_inserted_of_eq (i := i) (a := w.now) rfl td)

/-- The event of a registration leaves the types and the published registry. -/
theorem writes_event (e : EventRow) :
    Writes (fun σ τ : Service => τ.store.typeDefinitions = σ.store.typeDefinitions ∧
      τ.registry = σ.registry) (Service.executeQuietly (insertEvent e)) := by
  refine writes_attempt fun σ => ?_
  obtain ⟨evs, hevs⟩ := Service.exec_executeQuietly_event e σ
  show (exec (Service.executeQuietly (insertEvent e)) σ).2.store.typeDefinitions = _ ∧
    (exec (Service.executeQuietly (insertEvent e)) σ).2.registry = _
  rw [hevs]
  exact ⟨rfl, rfl⟩

/-- A registration only inserts, and publishes what it inserted. -/
theorem keepsF_createType {r : TypeRequest} (hfresh : w.Fresh i) :
    (publication σ₀).KeepsF i (fun _ w' => OwnPublished i w') r.handle w := by
  have hdone : ∀ (e : AppError) (w' : World Service), w'.Fresh i → OwnPublished i w' :=
    fun _ _ h => ownPublished_of_fresh h
  unfold TypeRequest.handle createType
  refine keepsF_readOnly_bind (readOnly_ensure _ _) (answers_true _) (fun _ w₁ _ hr₁ _ => ?_)
    fun e w' hr _ => hdone e w' (hfresh.rely hr.1)
  replace hfresh := hfresh.rely hr₁.1
  refine keepsF_readOnly_bind (readOnly_check _) (answers_true _) (fun spec w₂ _ hr₂ _ => ?_)
    fun e w' hr _ => hdone e w' (hfresh.rely hr.1)
  replace hfresh := hfresh.rely hr₂.1
  refine keepsF_query_bind fun w₃ hr₃ _ => ?_
  replace hfresh := hfresh.rely hr₃.1
  refine keepsF_readOnly_bind (readOnly_check _) (answers_true _) (fun _ w₄ _ hr₄ _ => ?_)
    fun e w' hr _ => hdone e w' (hfresh.rely hr.1)
  replace hfresh := hfresh.rely hr₄.1
  refine keepsF_attempt_bind ?_ ?_
  · intro w₅ u t hr₅ _ hq
    replace hfresh := hfresh.rely hr₅.1
    obtain ⟨s, htx, rfl⟩ := Service.exec_execute_ok.mp (exec_attempt_ok.mpr hq)
    obtain ⟨hnodup, types, hinsert, rfl⟩ := registerTx_ok htx
    have hgrow : ∀ td ∈ w₅.now.store.typeDefinitions, td ∈ types :=
      fun td htd => (Table.mem_insert hinsert).mpr (Or.inl htd)
    refine ⟨⟨rfl, hgrow⟩, ?_⟩
    have hstored : OwnStored i (w₅.commit i fun _ =>
        { w₅.now with store := { w₅.now.store with typeDefinitions := types } }) := by
      intro c hc hwho td hin
      obtain rfl := hfresh.commit c hc hwho
      exact hin.1
    -- The registry is loaded where everything inserted so far is in the database.
    refine keepsF_query_bind fun w₆ hr₆ _ => ?_
    replace hstored := hstored.rely hr₆
    generalize hloaded : w₆.now.store.typeDefinitions = reg
    refine keepsF_attempt_bind ?_ (fun _ _ _ _ hne => by cases hne)
    intro w₇ u t hr₇ _ hq
    obtain rfl : { w₇.now with registry := reg } = t := (Prod.mk.inj (Except.ok.inj hq)).2
    refine ⟨⟨rfl, fun td htd => htd⟩, ?_⟩
    have hown : OwnPublished i (w₇.commit i fun _ => { w₇.now with registry := reg }) := by
      refine ownPublished_publish fun c hc hwho td hin => ?_
      rw [← hloaded]
      exact hstored c ((hr₇.1 c hwho).mp hc) hwho td hin
    refine keepsF_of_writes (S := OwnPublished i)
      (writes_bind (writes_event _) fun _ => (readOnly_pure _).writes) (answers_true _)
      (fun _ _ hr h => h.rely hr) ?_ (fun _ _ _ h => h) _ hown
    rintro w₈ update _ hown ⟨htypes, hreg⟩
    refine ⟨⟨rfl, fun td htd => ?_⟩, hown.commit htypes hreg⟩
    show td ∈ (update w₈.now).store.typeDefinitions
    rw [htypes]
    exact htd
  · intro w₅ e hr₅ _ _
    refine ⟨⟨rfl, fun td htd => htd⟩, keepsF_throw fun w' hr _ => ?_⟩
    refine ((ownPublished_of_fresh (hfresh.rely hr₅.1)).commit rfl rfl).rely hr

end Registration

/-- Where no commit took a type out of the published registry, every type whose registration is
over is published. -/
theorem published_of_kept {reqs : Nat → TypeRequest} {σ₀ : Service}
    (hsync : σ₀.registry = σ₀.store.typeDefinitions)
    {p : Pool Service (Except AppError Response)}
    (hrun : Pool.Run (registrations reqs) (fun _ _ => True) (Pool.start σ₀) p)
    (hkept : Kept p.world.log)
    (hdone : ∀ c ∈ p.world.log, ∀ td, Inserted c td → ∃ a, p.Finished c.who a) :
    ∀ td ∈ p.world.now.store.typeDefinitions, td ∈ p.world.now.registry := by
  have hok : PoolOk (publication σ₀) (fun i (_ : Except AppError Response) w => OwnPublished i w)
      p := by
    refine run_ok ?_ ?_ hrun
    · refine ⟨fun td htd => Or.inl ?_, fun _ td htd => htd⟩
      rw [hsync]
      exact htd
    · intro q hq _
      exact keepsF_createType (r := reqs q.threads.length) hq.fresh
  intro td htd
  rcases hok.inv.1 td htd with hstart | ⟨c, hc, hin⟩
  · exact hok.inv.2 hkept td hstart
  · obtain ⟨a, hfinished⟩ := hdone c hc td hin
    exact hok.finished hfinished hkept c hc rfl td hin

/-! ### What is published was loaded -/

/-- The state in which a program that is about to publish loaded the registry: the one it read
after its insertion. -/
def loadedIn : List (Glance Service) → Option Service
  | .read u :: .write _ _ :: _ => some u
  | _ => none

/-- The registry stays, or becomes what the program loaded. -/
def PublishStep (m : List (Glance Service)) (s t : Service) : Prop :=
  t.registry = s.registry ∨ ∃ u ∈ loadedIn m, t.registry = u.store.typeDefinitions

theorem guarded_createType (r : TypeRequest) (m : List (Glance Service)) :
    Guarded PublishStep (fun _ _ => True) r.handle m := by
  unfold TypeRequest.handle createType
  refine guarded_ensure_bind fun _ => ?_
  refine guarded_check_bind fun spec _ => ?_
  refine guarded_query_bind fun s => ?_
  refine guarded_check_bind fun _ _ => ?_
  refine guarded_attempt_bind ?_ (fun _ _ _ => Or.inl rfl)
  intro a u b hq
  have hreg : b.registry = a.registry := by
    split at hq
    · obtain rfl := (Prod.mk.inj (Except.ok.inj hq)).2
      rfl
    · cases hq
  refine ⟨Or.inl hreg, ?_⟩
  refine guarded_query_bind fun u => ?_
  refine guarded_attempt_bind ?_ (fun _ _ hne => by cases hne)
  intro a' _ b' hq
  obtain rfl := (Prod.mk.inj (Except.ok.inj hq)).2
  refine ⟨Or.inr ⟨u, rfl, rfl⟩, ?_⟩
  refine guarded_attempt_bind ?_ (fun _ _ _ => Or.inl rfl)
  intro a' _ b' hq
  refine ⟨Or.inl ?_, guarded_pure trivial⟩
  split at hq
  · obtain rfl := (Prod.mk.inj (Except.ok.inj hq)).2
    rfl
  · obtain rfl := (Prod.mk.inj (Except.ok.inj hq)).2
    rfl

/--
The registries are published in the order they were loaded in: where a request is about to publish
what it loaded, everything that is published now was in the database then.
-/
def InLoadOrder (w : Watch Service (Except AppError Response)) : Prop :=
  ∀ c ∈ w.sightings, ∀ u ∈ loadedIn c.memory, ∀ td ∈ c.before.registry,
    td ∈ u.store.typeDefinitions

instance (w : Watch Service (Except AppError Response)) : Decidable (InLoadOrder w) :=
  inferInstanceAs (Decidable (∀ c ∈ w.sightings, ∀ u ∈ loadedIn c.memory,
    ∀ td ∈ c.before.registry.rows, td ∈ u.store.typeDefinitions.rows))

/--
**Published in the order they were loaded in, the registries lose nothing.**  In any interleaving
of any registrations, once those that inserted a type are over, every type of the database is in
the published registry.
-/
theorem published_types_complete (reqs : Nat → TypeRequest) (σ₀ : Service)
    (hsync : σ₀.registry = σ₀.store.typeDefinitions)
    (w : Watch Service (Except AppError Response))
    (hrun : Watch.Run (registrations reqs) (Watch.start σ₀) w) (horder : InLoadOrder w)
    (hdone : ∀ c ∈ w.pool.world.log, ∀ td, Inserted c td → ∃ a, w.pool.Finished c.who a) :
    ∀ td ∈ w.pool.world.now.store.typeDefinitions, td ∈ w.pool.world.now.registry := by
  have hguarded : ∀ n, (registrations reqs n).Guarded PublishStep (fun _ _ => True) [] :=
    fun n => (guarded_createType (reqs n) []).weaken fun _ _ _ => trivial
  have hjustified := Watch.Run.justified (W := fun _ => PublishStep) (Q := fun _ _ _ => True)
    hguarded hrun
  refine published_of_kept hsync hrun.pool ?_ hdone
  rw [Watch.Run.log hrun]
  intro c hc td htd
  obtain ⟨d, hd, rfl⟩ := List.mem_map.mp hc
  rcases hjustified.commits d hd with hsame | ⟨u, hu, hloaded⟩
  · rw [hsame]
    exact htd
  · rw [hloaded]
    exact horder d hd u hu td htd

/-! #### Two registrations at once -/

/-- A type of one text. -/
def nameSpec (typeId idPrefix : String) : TypeSpec where
  typeId := typeId
  idPrefix := idPrefix
  displayName := typeId
  fields := [{ field := "name", kind := "text" }]

/-- A service without types. -/
def emptyService : Service where
  registry := ∅
  workflows := ∅
  store := {}

/-- Bolts are registered, and gears. -/
def boltAndGear (n : Nat) : TypeRequest where
  display := fun _ => ""
  ctx := plainCtx
  caller := dev
  body := .ok (if n = 0 then nameSpec "bolt" "BLT" else nameSpec "gear" "GEA")

/-- Bolts are registered, then gears. -/
def oneAfterOther : List Pool.Move :=
  [.spawn, .advance 0, .advance 0, .advance 0, .advance 0, .advance 0,
    .spawn, .advance 1, .advance 1, .advance 1, .advance 1, .advance 1]

/-- Gears are registered after the registry with bolts was loaded and before it is published. -/
def overtaken : List Pool.Move :=
  [.spawn, .advance 0, .advance 0, .advance 0,
    .spawn, .advance 1, .advance 1, .advance 1, .advance 1, .advance 1,
    .advance 0, .advance 0]

def playTypes (schedule : List Pool.Move) : Watch Service (Except AppError Response) :=
  Watch.play (registrations boltAndGear) (Watch.start emptyService) schedule

/-- Both requests answer 201, and gears are in the database and not in the registry. -/
theorem overtaken_registry_lacks_gear :
    Watch.Run (registrations boltAndGear) (Watch.start emptyService) (playTypes overtaken) ∧
      (playTypes overtaken).pool.threads.length = 2 ∧
      (∀ i < 2, ∃ resp, (playTypes overtaken).pool.Finished i (.ok resp) ∧ resp.status = 201) ∧
      ¬ ∀ td ∈ (playTypes overtaken).pool.world.now.store.typeDefinitions,
        td ∈ (playTypes overtaken).pool.world.now.registry := by
  refine ⟨Watch.play_run _ overtaken _, rfl, ?_, by decide⟩
  intro i hi
  obtain rfl | rfl : i = 0 ∨ i = 1 := by omega
  · exact ⟨_, rfl, rfl⟩
  · exact ⟨_, rfl, rfl⟩

/-- One after the other, both types are published. -/
theorem registered_in_turn :
    (playTypes oneAfterOther).pool.world.now.store.typeDefinitions.rows.length = 2 ∧
      ∀ td ∈ (playTypes oneAfterOther).pool.world.now.store.typeDefinitions,
        td ∈ (playTypes oneAfterOther).pool.world.now.registry := by
  refine ⟨by decide, published_types_complete boltAndGear emptyService rfl
    (playTypes oneAfterOther) (Watch.play_run _ oneAfterOther _) (by decide) ?_⟩
  have hwho : ∀ c ∈ (playTypes oneAfterOther).pool.world.log, c.who = 0 ∨ c.who = 1 := by decide
  intro c hc td _
  rcases hwho c hc with hzero | hone
  · rw [hzero]
    exact ⟨_, rfl⟩
  · rw [hone]
    exact ⟨_, rfl⟩

end Numu
