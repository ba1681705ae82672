/-
How an actor becomes an admin.

The first admin is claimed by a statement that looks whether there is one and
updates another row than the ones it looked at.  Run among others it looks at the
snapshot it started with, so two claims that start before either has updated its
row both find nobody.  A claim is safe where nobody became an admin since its
snapshot.

The other writers of actors treat the role as one of their fields.
-/
import Numu.Proofs.Roster
import Numu.Proofs.Schema
import Numu.Proofs.Sightings

namespace Numu

open Fallible Handler

/-! ### The first-admin claim among others -/

/-- Alone, the claim of several steps is the claim of one. -/
theorem exec_claimAdminSnapshot (caller : Caller) (s : Store) :
    exec (claimAdminSnapshot caller) s = exec (claimAdmin caller) s := by
  have hsame : exec (execute (promoteUnless s.hasAdmin caller.actorId)) s =
      exec (execute (promoteActor caller.actorId)) s := rfl
  unfold claimAdminSnapshot claimAdmin
  rw [exec_bind, exec_query]
  show exec (execute (promoteUnless s.hasAdmin caller.actorId) >>= _) s = _
  rw [exec_bind, exec_bind, hsame]

theorem promoteUnless_ok {taken : Bool} {actorId : String} {n : Nat} {s t : Store}
    (h : promoteUnless taken actorId s = .ok (n, t)) :
    (n = 0 ∧ t = s) ∨ n = 1 ∧ ∃ row m, s.row? actorId "actor" = some row ∧ taken = false ∧
      row.data = .obj m ∧
      t = { s with entityData := s.entityData.upsert (promotedRow row m) } := by
  unfold promoteUnless at h
  split at h
  · obtain ⟨rfl, rfl⟩ := Prod.mk.inj (Except.ok.inj h)
    exact Or.inl ⟨rfl, rfl⟩
  · rename_i row hrow
    split at h
    · obtain ⟨rfl, rfl⟩ := Prod.mk.inj (Except.ok.inj h)
      exact Or.inl ⟨rfl, rfl⟩
    · rename_i htaken
      unfold jsonbSet at h
      split at h
      · cases h
      · rename_i data hdata
        split at hdata
        · rename_i m hobj
          obtain rfl := Except.ok.inj hdata
          obtain ⟨rfl, rfl⟩ := Prod.mk.inj (Except.ok.inj h)
          exact Or.inr ⟨rfl, row, m, hrow, by simpa using htaken, hobj, rfl⟩
        · cases hdata

/-- A promoted actor is an admin, and one besides the seeded one. -/
theorem hasAdmin_promoted {s : Store} {actorId : String} {row : EntityData} {m : JsonMap}
    (hrow : s.row? actorId "actor" = some row) (hreal : actorId ≠ "USR_dev") :
    ({ s with entityData := s.entityData.upsert (promotedRow row m) } : Store).hasAdmin = true := by
  obtain ⟨hfind, htype⟩ := Store.row?_eq_some.mp hrow
  have hid : row.entityId = actorId := Store.row?_entityId hrow
  refine List.any_eq_true.mpr ⟨promotedRow row m, Table.mem_upsert.mpr (Or.inl rfl), ?_⟩
  have hrole : (promotedRow row m).data.get? "platform_role" = some (.str "admin") := by
    show JsonMap.get? (JsonMap.insert m "platform_role" (.str "admin")) "platform_role" = _
    rw [JsonMap.get?_insert, if_pos rfl]
  have hname : (promotedRow row m).entityId ≠ "USR_dev" := by
    show row.entityId ≠ _
    rw [hid]
    exact hreal
  have hactor : (promotedRow row m).typeId = "actor" := htype
  simp [hrole, hname, hactor]

/-- The programs of some claims. -/
def claims (reqs : Nat → Caller) (n : Nat) : Resumption Store (Except AppError Response) :=
  ExceptT.run (claimAdminSnapshot (reqs n))

/-- A claim leaves everything, or makes an admin where its snapshot had none. -/
def ClaimStep (m : List (Glance Store)) (s t : Store) : Prop :=
  t = s ∨ (∃ u, m = [.read u] ∧ u.hasAdmin = false) ∧ t.hasAdmin = true

/-- What a claim that succeeded remembers: its snapshot, without an admin, and its update. -/
def ClaimedFrom (m : List (Glance Store)) : Prop :=
  ∃ s t u, m = [.write s t, .read u] ∧ u.hasAdmin = false ∧ t.hasAdmin = true

theorem guarded_claimAdminSnapshot {caller : Caller} (hreal : caller.actorId ≠ "USR_dev") :
    Guarded ClaimStep (fun _ m => ClaimedFrom m) (claimAdminSnapshot caller) [] := by
  unfold claimAdminSnapshot
  refine guarded_query_bind fun u => ?_
  refine guarded_attempt_bind ?_ (fun _ _ _ => Or.inl rfl)
  intro s n t hq
  cases hp : promoteUnless u.hasAdmin caller.actorId s with
  | error e =>
      rw [hp] at hq
      cases hq
  | ok r =>
      rw [hp] at hq
      obtain rfl := Except.ok.inj hq
      rcases promoteUnless_ok hp with ⟨rfl, rfl⟩ | ⟨-, row, m, hrow, htaken, -, rfl⟩
      · exact ⟨Or.inl rfl, guarded_ensure_bind fun h => by simp at h⟩
      · have hadmin := hasAdmin_promoted (m := m) hrow hreal
        refine ⟨Or.inr ⟨⟨u, rfl, htaken⟩, hadmin⟩, guarded_ensure_bind fun _ => ?_⟩
        exact guarded_pure ⟨s, _, u, rfl, htaken, hadmin⟩

/-- Where a claim updates its row, there is an admin only if there was one in its snapshot. -/
def FreshSnapshots (w : Watch Store (Except AppError Response)) : Prop :=
  ∀ c ∈ w.sightings, c.before.hasAdmin = true → ∀ g ∈ c.memory, g.state.hasAdmin = true

instance (w : Watch Store (Except AppError Response)) : Decidable (FreshSnapshots w) :=
  inferInstanceAs (Decidable (∀ c ∈ w.sightings, c.before.hasAdmin = true →
    ∀ g ∈ c.memory, g.state.hasAdmin = true))

/-- The requests that were granted. -/
def Granted {α : Type} (w : Watch Store (Except AppError α)) : Set Nat :=
  {i | ∃ a, w.pool.Finished i (.ok a)}

/--
**With fresh snapshots one claim succeeds at most.**  In any interleaving of any claims by actors
other than the seeded one, where no claim updates its row after another was granted since its
snapshot.
-/
theorem first_admin_claimed_once (reqs : Nat → Caller)
    (hreal : ∀ n, (reqs n).actorId ≠ "USR_dev") (s₀ : Store)
    (w : Watch Store (Except AppError Response))
    (hrun : Watch.Run (claims reqs) (Watch.start s₀) w) (hfresh : FreshSnapshots w) :
    (Granted w).Subsingleton := by
  have hjustified := Watch.Run.justified (W := fun _ => ClaimStep)
    (Q := fun _ (r : Except AppError Response) m => ∀ a, r = .ok a → ClaimedFrom m)
    (fun n => guarded_claimAdminSnapshot (hreal n)) hrun
  -- A claim that succeeded made an admin where there was none.
  have hmade : ∀ n ∈ Granted w, ∃ c ∈ w.pool.world.log, c.who = n ∧
      ¬ c.before.hasAdmin = true ∧ c.after.hasAdmin = true := by
    rintro n ⟨resp, hfinished⟩
    obtain ⟨s, t, u, hmemory, hnone, hadmin⟩ := hjustified.finished hfinished resp rfl
    have hsighted := Watch.Run.sighted hrun (i := n) (a := s) (b := t) (m := [.read u])
      (hmemory ▸ List.suffix_refl _)
    refine ⟨⟨n, s, t⟩, ?_, rfl, ?_, hadmin⟩
    · rw [Watch.Run.log hrun]
      exact List.mem_map_of_mem hsighted
    · intro hbefore
      have htrue := hfresh _ hsighted hbefore (.read u) (List.mem_singleton.mpr rfl)
      have htrue : u.hasAdmin = true := htrue
      rw [hnone] at htrue
      simp at htrue
  have hkept : ∀ c ∈ w.pool.world.log, c.before.hasAdmin = true → c.after.hasAdmin = true := by
    intro c hc hbefore
    rw [Watch.Run.log hrun] at hc
    obtain ⟨d, hd, rfl⟩ := List.mem_map.mp hc
    rcases hjustified.commits d hd with hsame | ⟨-, hadmin⟩
    · rw [hsame]
      exact hbefore
    · exact hadmin
  intro i hi j hj
  obtain ⟨c, hc, hci, hcb, hca⟩ := hmade i hi
  obtain ⟨d, hd, hdj, hdb, hda⟩ := hmade j hj
  obtain rfl := World.From.gained_once (P := fun s => s.hasAdmin = true)
    (Pool.Run.from hrun.pool) hkept c hc d hd hcb hca hdb hda
  exact hci.symm.trans hdj

/-! #### Two actors claim -/

/-- Two actors besides the seeded admin. -/
def twoActors : Store where
  typeDefinitions := actorState.registry
  entities := ⟨[⟨"USR_dev", "actor", none⟩, ⟨"USR_alice", "actor", none⟩,
    ⟨"USR_bob", "actor", none⟩], by decide⟩
  entityData := ⟨[
    { entityId := "USR_dev", typeId := "actor", data := .obj [("platform_role", .str "admin")] },
    { entityId := "USR_alice", typeId := "actor",
      data := .obj [("platform_role", .str "member")] },
    { entityId := "USR_bob", typeId := "actor",
      data := .obj [("platform_role", .str "member")] }], by decide⟩
  roles := seededRoles

def aliceAndBob (n : Nat) : Caller := if n = 0 then alice else ⟨"USR_bob", false⟩

def playClaims (schedule : List Pool.Move) : Watch Store (Except AppError Response) :=
  Watch.play (claims aliceAndBob) (Watch.start twoActors) schedule

/-- Both look before either updates. -/
def claimsAtOnce : List Pool.Move :=
  [.spawn, .spawn, .advance 0, .advance 1, .advance 0, .advance 1]

/-- Bob looks after Alice has updated. -/
def claimsInTurn : List Pool.Move :=
  [.spawn, .spawn, .advance 0, .advance 0, .advance 1, .advance 1]

/-- Two claims at once both succeed. -/
theorem two_claims_succeed :
    twoActors.hasAdmin = false ∧
      Watch.Run (claims aliceAndBob) (Watch.start twoActors) (playClaims claimsAtOnce) ∧
      0 ∈ Granted (playClaims claimsAtOnce) ∧ 1 ∈ Granted (playClaims claimsAtOnce) :=
  ⟨by decide, Watch.play_run _ claimsAtOnce _, ⟨_, rfl⟩, ⟨_, rfl⟩⟩

/-- In turn Alice's does, and no other. -/
theorem claims_in_turn :
    0 ∈ Granted (playClaims claimsInTurn) ∧ (Granted (playClaims claimsInTurn)).Subsingleton := by
  refine ⟨⟨_, rfl⟩, first_admin_claimed_once aliceAndBob ?_ twoActors (playClaims claimsInTurn)
    (Watch.play_run _ claimsInTurn _) (by decide)⟩
  intro n
  unfold aliceAndBob
  split
  · decide
  · decide

/-! ### The admins of a store -/

/-- Is this the row of an admin? -/
def EntityData.isAdmin (d : EntityData) : Bool :=
  d.typeId = "actor" && d.data.get? "platform_role" = some (.str "admin")

theorem EntityData.isAdmin_iff {d : EntityData} :
    d.isAdmin = true ↔ d.typeId = "actor" ∧ d.data.get? "platform_role" = some (.str "admin") := by
  simp [EntityData.isAdmin]

def Store.isAdmin (s : Store) (x : String) : Bool :=
  (s.entityData.find? x).any EntityData.isAdmin

/-- The actors whose platform role is admin. -/
def Store.admins (s : Store) : Set String := {x | s.isAdmin x = true}

instance (s : Store) (x : String) : Decidable (x ∈ s.admins) :=
  inferInstanceAs (Decidable (s.isAdmin x = true))

section Rows

variable {s t : Store}

theorem Store.admins_congr (h : t.entityData = s.entityData) : t.admins = s.admins := by
  unfold Store.admins Store.isAdmin
  rw [h]

/-- Writing one row makes an admin of nobody else. -/
theorem Store.admins_written {rows : Table EntityData.entityId} {d : EntityData} {P : Prop}
    (hdata : t.entityData = rows)
    (hrows : ∀ x, rows.find? x = if d.entityId = x then some d else s.entityData.find? x)
    (hP : d.isAdmin = true → s.isAdmin d.entityId = false → P) : t.admins ⊆ s.admins ∨ P := by
  by_cases hadmin : d.isAdmin = true ∧ s.isAdmin d.entityId = false
  · exact Or.inr (hP hadmin.1 hadmin.2)
  refine Or.inl fun x hx => ?_
  have hx : (t.entityData.find? x).any EntityData.isAdmin = true := hx
  rw [hdata, hrows] at hx
  split at hx
  · rename_i hid
    show s.isAdmin x = true
    rw [← hid]
    by_contra hbefore
    exact hadmin ⟨hx, by simpa using hbefore⟩
  · exact hx

end Rows

/-! ### The role among the fields of an actor -/

def platformRoleField : FieldDef :=
  typeField "platform_role" "Platform role" "enum" true true 5 "owner_grade"
    (enumOptions ["member", "admin"] "member")

/-- The role a body asks for. -/
def askedRole (headers : HeaderMap) (body : Body) (allowMerge : Bool) : Option Json :=
  match readJson headers body allowMerge with
  | .ok payload => payload.get? "platform_role"
  | .error _ => none

theorem askedRole_of_parsed {headers : HeaderMap} {body : Body} {allowMerge : Bool} {payload : Json}
    (h : readJson headers body allowMerge = .ok payload) :
    askedRole headers body allowMerge = payload.get? "platform_role" := by
  unfold askedRole
  rw [h]

theorem given_role {payload : Json}
    (h : (given payload platformRoleField).or platformRoleField.default? = some (.str "admin")) :
    payload.get? "platform_role" = some (.str "admin") := by
  rcases Option.or_eq_some_iff.mp h with hgiven | ⟨-, hdefault⟩
  · exact (Option.filter_eq_some_iff.mp hgiven).1
  · exact absurd hdefault (by decide)

/-- A new actor is an admin only if the payload asks for it. -/
theorem role_created {payload : Json}
    (h : (buildCreateData actorType payload).get? "platform_role" = some (.str "admin")) :
    payload.get? "platform_role" = some (.str "admin") := by
  have hfield : platformRoleField ∈ actorType.fields := by decide
  have hget := get?_buildCreateData payload hfield
  rw [if_pos (by decide)] at hget
  exact given_role (hget.symm.trans h)

/-- What a merge turns into a text was that text. -/
theorem mergePatch_str {target patch : Json} {text : String}
    (h : mergePatch target patch = .str text) : patch = .str text := by
  cases patch with
  | obj m =>
      rw [mergePatch] at h
      simp at h
  | null => rwa [mergePatch] at h; simp
  | bool b => rwa [mergePatch] at h; simp
  | num n => rwa [mergePatch] at h; simp
  | str v => rwa [mergePatch] at h; simp
  | arr items => rwa [mergePatch] at h; simp

/-- An updated actor is an admin only if the payload asks for it, or a PATCH leaves the role. -/
theorem role_updated {v : UpdateVerb} {existing payload : Json}
    (hobj : ∃ pm, payload = .obj pm ∧ (JsonMap.keys pm).Nodup)
    (h : (v.build actorType existing payload).get? "platform_role" = some (.str "admin")) :
    payload.get? "platform_role" = some (.str "admin") ∨
      v = .patch ∧ payload.get? "platform_role" = none ∧
        existing.get? "platform_role" = some (.str "admin") := by
  have hfield : platformRoleField ∈ actorType.fields := by decide
  cases v with
  | put =>
      have hget := get?_buildPutData existing payload hfield
      rw [if_pos (by decide)] at hget
      exact Or.inl (given_role (hget.symm.trans h))
  | patch =>
      obtain ⟨pm, rfl, hnodup⟩ := hobj
      have hmerged : JsonMap.get? (mergeFields existing.asMap pm) "platform_role" =
          some (.str "admin") := by
        have h' : (mergePatch existing (.obj pm)).get? "platform_role" = _ := h
        rwa [mergePatch] at h'
      cases hnamed : JsonMap.get? pm "platform_role" with
      | none =>
          refine Or.inr ⟨rfl, hnamed, ?_⟩
          rw [get?_mergeFields_other] at hmerged
          · exact hmerged
          · intro hc
            obtain ⟨w, hw⟩ := JsonMap.mem_keys.mp hc
            rw [hnamed] at hw
            simp at hw
      | some w =>
          rw [get?_mergeFields_named pm _ hnodup hnamed] at hmerged
          split at hmerged
          · simp at hmerged
          · refine Or.inl (hnamed.trans ?_)
            rw [mergePatch_str (Option.some.inj hmerged)]

/-! ### Requests in any interleaving -/

/-- The requests that could write actors, or let somebody write them. -/
inductive PlatformRequest where
  | create (ctx : RequestCtx) (env : Ambient) (caller : Caller) (typeId : String)
      (headers : HeaderMap) (body : Body)
  | update (v : UpdateVerb) (ctx : RequestCtx) (env : Ambient) (caller : Caller)
      (typeId id : String) (headers : HeaderMap) (body : Body)
  | roster (r : RosterRequest)
  | login (env : Ambient) (provider sub : String) (email : Option String) (name : String)
  | claimAdmin (caller : Caller)

namespace PlatformRequest

def handle (st : AppState) : PlatformRequest → Handler Unit
  | .create ctx env caller typeId headers body => do
    let _ ← collCreate st ctx env caller typeId headers body
  | .update v ctx env caller typeId id headers body => do
    let _ ← itemUpdate v st ctx env caller typeId id headers body
  | .roster r => do
    let _ ← r.handle
  | .login env provider sub email name => do
    let _ ← upsertIdentity env provider sub email name
  | .claimAdmin caller => do
    let _ ← claimAdminSnapshot caller

/--
The request is about to make an admin of an actor that is none.  Either it asks for it: in a new
actor, which passes no write gate, or as a caller whose rank was seen to reach the floor of the
role.  Or it is a PATCH that leaves the role alone and saw the actor an admin.
-/
def Promotes (m : List (Glance Store)) (s : Store) : PlatformRequest → Prop
  | .create _ _ _ typeId headers body =>
    typeId = "actor" ∧ askedRole headers body false = some (.str "admin")
  | .update v _ _ caller typeId id headers body =>
    typeId = "actor" ∧ s.isAdmin id = false ∧
      (s.row? id "actor").any (fun row => (ifMatch headers).join = some row.version) = true ∧
      (askedRole headers body v.allowMerge = some (.str "admin") ∧
          FloorSeen m caller actorType id platformRoleField ∨
        v = .patch ∧ askedRole headers body true = none ∧ ∃ g ∈ m, g.state.isAdmin id = true)
  | _ => False

instance (m : List (Glance Store)) (s : Store) : (req : PlatformRequest) →
    Decidable (req.Promotes m s)
  | .create _ _ _ typeId headers body =>
    inferInstanceAs (Decidable (typeId = "actor" ∧
      askedRole headers body false = some (.str "admin")))
  | .update v _ _ caller typeId id headers body =>
    inferInstanceAs (Decidable (typeId = "actor" ∧ s.isAdmin id = false ∧
      (s.row? id "actor").any (fun row => (ifMatch headers).join = some row.version) = true ∧
      (askedRole headers body v.allowMerge = some (.str "admin") ∧
          FloorSeen m caller actorType id platformRoleField ∨
        v = .patch ∧ askedRole headers body true = none ∧ ∃ g ∈ m, g.state.isAdmin id = true)))
  | .roster _ => isFalse id
  | .login _ _ _ _ _ => isFalse id
  | .claimAdmin _ => isFalse id

/-- A step makes nobody an admin, or is a promotion, or belongs to a claim. -/
def Step (req : PlatformRequest) (m : List (Glance Store)) (s t : Store) : Prop :=
  t.admins ⊆ s.admins ∨ req.Promotes m s ∨ ∃ caller, req = .claimAdmin caller

theorem Step.of_data {req : PlatformRequest} {m : List (Glance Store)} {s t : Store}
    (h : t.entityData = s.entityData) : req.Step m s t :=
  Or.inl (Store.admins_congr h).subset

theorem Step.refl {req : PlatformRequest} {m : List (Glance Store)} (s : Store) :
    req.Step m s s := Step.of_data rfl

/-- Writes of other tables. -/
theorem guarded_otherTables {α : Type} {req : PlatformRequest} {p : Handler α}
    (hp : Writes (fun s t => t.entityData = s.entityData) p) (m : List (Glance Store)) :
    Guarded req.Step (fun _ _ => True) p m :=
  guarded_of_writes hp (fun _ _ _ h => Step.of_data h) m

theorem guarded_step {α : Type} {req : PlatformRequest} {p : Handler α} {m : List (Glance Store)}
    (hp : Guarded req.Step (fun _ _ => True) p m) :
    Guarded req.Step (fun _ _ => True) (p >>= fun _ => pure ()) m :=
  guarded_bind (guarded_weaken hp fun _ _ _ => guarded_pure trivial)

section Requests

variable {st : AppState} (hactor : TypeDefCache.get st.registry "actor" = some actorType)
include hactor

theorem guarded_create (ctx : RequestCtx) (env : Ambient) (caller : Caller) (typeId : String)
    (headers : HeaderMap) (body : Body) (m : List (Glance Store)) :
    Guarded (Step (.create ctx env caller typeId headers body)) (fun _ _ => True)
      (collCreate st ctx env caller typeId headers body) m := by
  refine guarded_collCreate (fun td payload resp m htd hagreed => ?_) m
  refine guarded_execute_bind Step.refl fun s u t htx => ⟨?_, guarded_otherTables
    (writes_bind (writes_data_recordEvent _ _ _ _ _) fun _ => (readOnly_pure _).writes) _⟩
  obtain ⟨ents, rows, e, cases, -, hrows, -, -, -, -, -, -, -, -, rfl⟩ := createTx_ok htx
  refine Store.admins_written rfl (Table.find?_insert hrows) fun hadmin _ => Or.inl ?_
  obtain ⟨rfl, hrole⟩ : typeId = "actor" ∧
      (buildCreateData td payload).get? "platform_role" = some (.str "admin") :=
    EntityData.isAdmin_iff.mp hadmin
  obtain rfl := Option.some.inj (hactor.symm.trans htd)
  exact ⟨rfl, (askedRole_of_parsed hagreed.parsed).trans (role_created hrole)⟩

theorem guarded_update (v : UpdateVerb) (ctx : RequestCtx) (env : Ambient) (caller : Caller)
    (typeId id : String) (headers : HeaderMap) (body : Body) (m : List (Glance Store)) :
    Guarded (Step (.update v ctx env caller typeId id headers body)) (fun _ _ => True)
      (itemUpdate v st ctx env caller typeId id headers body) m := by
  refine guarded_itemUpdate_rows (fun _ _ _ h => Step.of_data h) ?_ m
  intro td row payload expected m s stored ver htd hseen hstored hver
  have hid : stored.entityId = id := Store.row?_entityId hstored
  refine Store.admins_written rfl (Table.find?_upsert s.entityData
    (updatedRow td stored (v.build td row.data payload) ver env.now)) fun hadmin hbefore =>
    Or.inl ?_
  have hstoredType : stored.typeId = typeId := (Store.row?_eq_some.mp hstored).2
  obtain ⟨htype, hrole⟩ : stored.typeId = "actor" ∧
      (v.build td row.data payload).get? "platform_role" = some (.str "admin") :=
    EntityData.isAdmin_iff.mp hadmin
  obtain rfl : typeId = "actor" := hstoredType.symm.trans htype
  obtain rfl := Option.some.inj (hactor.symm.trans htd)
  have hparsed := hseen.agreed.parsed
  have hnamed : (s.row? id "actor").any
      (fun row => (ifMatch headers).join = some row.version) = true := by
    rw [hstored]
    simpa [hver] using ifMatch_of_require hseen.agreed.matched
  refine ⟨rfl, hid ▸ hbefore, hnamed, ?_⟩
  rcases role_updated (readJson_ok hparsed) hrole with hasked | ⟨rfl, hnone, hold⟩
  · refine Or.inl ⟨(askedRole_of_parsed hparsed).trans hasked, ?_⟩
    exact hseen.permitted "platform_role" (JsonMap.mem_keys.mpr ⟨_, hasked⟩) platformRoleField rfl
  · obtain ⟨u, hu, hfound⟩ := hseen.found
    refine Or.inr ⟨rfl, (askedRole_of_parsed hparsed).trans hnone, _, hu, ?_⟩
    obtain ⟨hget, htype⟩ := Store.row?_eq_some.mp hfound
    show (u.entityData.find? id).any EntityData.isAdmin = true
    rw [hget]
    exact EntityData.isAdmin_iff.mpr ⟨htype, hold⟩

end Requests

theorem guarded_roster (r : RosterRequest) (m : List (Glance Store)) :
    Guarded (Step (.roster r)) (fun _ _ => True) r.handle m :=
  guarded_otherTables (r.writes (fun _ _ => rfl) fun _ _ => rfl) m

/-- A first login mints a member. -/
theorem guarded_login (env : Ambient) (provider sub : String) (email : Option String)
    (name : String) (m : List (Glance Store)) :
    Guarded (Step (.login env provider sub email name)) (fun _ _ => True)
      (upsertIdentity env provider sub email name) m := by
  unfold upsertIdentity
  refine guarded_query_bind fun s => ?_
  cases (s.authIdentities.find? (provider, sub)).map AuthIdentity.actorId with
  | some actorId => exact guarded_pure trivial
  | none =>
      refine guarded_execute_bind Step.refl fun s u t htx => ⟨?_, guarded_pure trivial⟩
      obtain ⟨ents, rows, ids, -, hrows, -, -, rfl⟩ := loginTx_ok htx
      refine Store.admins_written rfl (Table.find?_insert hrows) fun hadmin _ => ?_
      have hrole := (EntityData.isAdmin_iff.mp hadmin).2
      have hrole : (loginActorData ("USR_" ++ env.uuid) name email).get? "platform_role" = _ := hrole
      rw [loginActorData, mkObj_actor] at hrole
      exact absurd hrole (by simp [JsonMap.get?_cons])

/-- A claim is answered with its write, and refused where it writes nothing. -/
theorem writesLast_claim (st : AppState) (caller : Caller) :
    ((handle st (.claimAdmin caller)).run).WritesLast
      fun s t r => t = s ∨ r = .ok () := by
  intro u s
  cases hp : promoteUnless u.hasAdmin caller.actorId s with
  | error e =>
      refine ⟨.error (AppError.ofSqlx e), ?_, Or.inl ?_⟩
      · simp only [hp, Except.mapError, Except.map]
        rfl
      · simp only [settle, hp, Except.mapError]
  | ok r =>
      obtain ⟨n, t⟩ := r
      rcases promoteUnless_ok hp with ⟨rfl, rfl⟩ | ⟨rfl, -⟩
      · refine ⟨.error (AppError.conflict "an admin already exists"), ?_, Or.inl ?_⟩
        · simp only [hp, Except.mapError, Except.map]
          rfl
        · simp only [settle, hp, Except.mapError]
      · refine ⟨.ok (), ?_, Or.inr rfl⟩
        simp only [hp, Except.mapError, Except.map]
        rfl

theorem guarded_handle {st : AppState}
    (hactor : TypeDefCache.get st.registry "actor" = some actorType) (req : PlatformRequest) :
    Guarded req.Step (fun _ _ => True) (req.handle st) [] := by
  cases req with
  | create ctx env caller typeId headers body =>
      exact guarded_step (guarded_create hactor ctx env caller typeId headers body [])
  | update v ctx env caller typeId id headers body =>
      exact guarded_step (guarded_update hactor v ctx env caller typeId id headers body [])
  | roster r => exact guarded_step (guarded_roster r [])
  | login env provider sub email name =>
      exact guarded_step (guarded_login env provider sub email name [])
  | claimAdmin caller =>
      refine guarded_of_writes (R := fun _ _ => True) ?_ (fun _ _ _ _ => Or.inr (Or.inr ⟨_, rfl⟩)) []
      exact Resumption.writes_of_forall (fun _ _ => trivial) _

end PlatformRequest

/-- The programs of some requests. -/
def platform (st : AppState) (reqs : Nat → PlatformRequest) (n : Nat) :
    Resumption Store (Except AppError Unit) := ExceptT.run ((reqs n).handle st)

/-- No step of the run is one that promotes. -/
def NobodyPromoted (reqs : Nat → PlatformRequest) (w : Watch Store (Except AppError Unit)) : Prop :=
  ∀ c ∈ w.sightings, ¬ (reqs c.who).Promotes c.memory c.before

instance (reqs : Nat → PlatformRequest) (w : Watch Store (Except AppError Unit)) :
    Decidable (NobodyPromoted reqs w) :=
  inferInstanceAs (Decidable (∀ c ∈ w.sightings, ¬ (reqs c.who).Promotes c.memory c.before))

/--
**The admins never grow, unless somebody is promoted.**  In any interleaving of creates, updates,
changes of rosters, logins and claims that are all refused, where no create asks for an admin, no
update asks for one from a rank that reaches the floor of the role, and no PATCH restores one it
had read.
-/
theorem admins_never_grow (st : AppState)
    (hactor : TypeDefCache.get st.registry "actor" = some actorType)
    (reqs : Nat → PlatformRequest) (s₀ : Store) (w : Watch Store (Except AppError Unit))
    (hrun : Watch.Run (platform st reqs) (Watch.start s₀) w)
    (hclaims : ∀ n caller, reqs n = .claimAdmin caller → n ∉ Granted w)
    (hpromoted : NobodyPromoted reqs w) :
    ∀ c ∈ w.pool.world.log, c.after.admins ⊆ c.before.admins := by
  have hjustified := Watch.Run.justified (W := fun n => (reqs n).Step)
    (Q := fun _ (r : Except AppError Unit) _ => ∀ a, r = .ok a → True)
    (fun n => PlatformRequest.guarded_handle hactor (reqs n)) hrun
  intro c hc
  rw [Watch.Run.log hrun] at hc
  obtain ⟨d, hd, rfl⟩ := List.mem_map.mp hc
  rcases hjustified.commits d hd with hkept | hpromotes | ⟨caller, hclaim⟩
  · exact hkept
  · exact absurd hpromotes (hpromoted d hd)
  · have hlast : (platform st reqs d.who).WritesLast fun s t r => t = s ∨ r = .ok () := by
      unfold platform
      rw [hclaim]
      exact PlatformRequest.writesLast_claim st caller
    obtain ⟨r, hfinished, hsame | rfl⟩ := Watch.Run.answered hlast hrun d hd rfl
    · exact (Store.admins_congr (by rw [hsame])).subset
    · exact absurd ⟨(), hfinished⟩ (hclaims d.who caller hclaim)

/-! #### A member makes an actor -/

/-- Alice makes an actor and asks for a role. -/
def newActor (role : String) : PlatformRequest :=
  .create plainCtx { uuid := "9" } alice "actor" versionOne
    (.ok ⟨.obj [("display_name", .str "Nine"), ("handle", .str "nine"),
      ("platform_role", .str role)], by simp [JsonMap.keys, Json.asMap]⟩)

/-- A change of the new actor. -/
def changeActor (caller : Caller) (field value : String) : PlatformRequest :=
  .update .patch plainCtx {} caller "actor" "USR_9" versionOne
    (oneField field value)

/-- One request after the other. -/
def playPlatform (reqs : Nat → PlatformRequest) (n : Nat) : Watch Store (Except AppError Unit) :=
  n.repeat (fun w => Watch.play (platform actorState reqs) w
    (.spawn :: (List.replicate 7 w.pool.threads.length).map .advance)) (Watch.start twoActors)

theorem playPlatform_run (reqs : Nat → PlatformRequest) (n : Nat) :
    Watch.Run (platform actorState reqs) (Watch.start twoActors) (playPlatform reqs n) := by
  induction n with
  | zero => exact .refl
  | succ n ih => exact ih.trans (Watch.play_run _ _ _)

/-- An actor that a member made is an admin, because the member asked for it. -/
theorem member_creates_admin :
    alice.isPlatformAdmin = false ∧
      Watch.Run (platform actorState fun _ => newActor "admin") (Watch.start twoActors)
        (playPlatform (fun _ => newActor "admin") 1) ∧
      ¬ ∀ c ∈ (playPlatform (fun _ => newActor "admin") 1).pool.world.log,
        c.after.admins ⊆ c.before.admins := by
  refine ⟨rfl, playPlatform_run _ 1, fun h => ?_⟩
  have hnew := h _ List.mem_cons_self (show "USR_9" ∈ Store.admins _ by decide)
  exact absurd hnew (by decide)

/-- Alice makes a member and renames it, and Bob asks for the role of that actor. -/
def renamedActor : Nat → PlatformRequest
  | 0 => newActor "member"
  | 1 => changeActor alice "display_name" "Ten"
  | _ => changeActor ⟨"USR_bob", false⟩ "platform_role" "admin"

/-- Nobody is made an admin: Alice does not ask for it, and Bob is refused. -/
theorem renamed_actor_stays_member :
    0 ∈ Granted (playPlatform renamedActor 3) ∧ 1 ∈ Granted (playPlatform renamedActor 3) ∧
      ∀ c ∈ (playPlatform renamedActor 3).pool.world.log, c.after.admins ⊆ c.before.admins := by
  refine ⟨⟨(), rfl⟩, ⟨(), rfl⟩, ?_⟩
  refine admins_never_grow actorState rfl renamedActor twoActors _ (playPlatform_run _ 3) ?_
    (by decide)
  intro n caller hclaim
  unfold renamedActor at hclaim
  split at hclaim
  · cases hclaim
  · cases hclaim
  · cases hclaim

end Numu
