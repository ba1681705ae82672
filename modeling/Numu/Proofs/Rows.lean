/-
Who changes an object, and who gives a role on one.

A row is stored under its id and nothing else is: an update and a run of a connector
write the row of the id they are addressed to, a deletion takes that row out and cuts
the rows inside it loose, and the first-admin claim writes the row of its own caller.
So a row that is no longer what it was has been changed by a request for it, for a
caller who had the rank to send it.

An edge is put in by the creation of its object, for the creator, or by a request to
the roster of its object, for a caller who had the rank to manage it.
-/
import Numu.Proofs.Changes

namespace Numu

open Fallible

/-! ### The statements on the rows -/

/-- The statements of an endpoint on the table of the objects. -/
inductive Endpoint.WroteRows (draws : Draws) (caller : Caller) : Endpoint → Store → Store → Prop
  | none {e : Endpoint} {s t : Store} (h : t.entityData = s.entityData) : WroteRows draws caller e s t
  | created {typeId : String} {headers : HeaderMap} {body : Body} {td : TypeDef} {data : Json}
      {sp : Option String} {s t : Store} (type : td.typeId = typeId)
      (h : createTx td typeId (mint td draws.uuid.text) caller.actorId data sp draws.now s =
        .ok ((), t)) : WroteRows draws caller (.collCreate typeId headers body) s t
  | updated {v : UpdateVerb} {typeId id : String} {headers : HeaderMap} {body : Body}
      {data : Json} {sp : Option String} {expected : I32} {n : Nat} {s t : Store}
      (h : updateEntityData data sp id typeId expected draws.now s = .ok (n, t)) :
      WroteRows draws caller (.itemUpdate v typeId id headers body) s t
  | deleted {typeId id : String} {headers : HeaderMap} {expected : I32} {n : Nat} {s t : Store}
      (h : deleteEntity id typeId expected s = .ok (n, t)) :
      WroteRows draws caller (.itemDelete typeId id headers) s t
  | stamped {id status : String} {version : I32} {s t : Store} (run : status ∈ ["active", "error"])
      (h : stampConnector id status draws.now s = .ok (version, t)) :
      WroteRows draws caller (.runConnector id) s t

theorem Endpoint.Wrote.rows {draws : Draws} {ctx : RequestCtx} {caller : Caller} {e : Endpoint}
    {s t : Store} (h : e.Wrote draws ctx caller s t) : e.WroteRows draws caller s t := by
  cases h with
  | created type h => exact .created type h
  | updated h => exact .updated h
  | deleted h => exact .deleted h
  | stamped run h => exact .stamped run h
  | mirrored h => exact .none (by rw [(upsertCase_ok h).2])
  | logged _ h => exact .none (by rw [(insertEvent_ok h).2])
  | granted h =>
      obtain ⟨m, -, -, -, -, rfl⟩ := upsertMembership_ok h
      exact .none rfl
  | regraded h =>
      rcases updateMembership_ok h with ⟨-, rfl⟩ | ⟨m, -, -, -, -, rfl⟩
      · exact .none rfl
      · exact .none rfl
  | checked h => exact .none (by rw [(upsertCloseCheck_ok h).2])
  | related _ _ h =>
      obtain ⟨rows, -, rfl⟩ := insertRelation_ok h
      exact .none rfl
  | started h =>
      obtain ⟨rows, -, -, rfl⟩ := insertFeatureRun_ok h
      exact .none rfl
  | handed _ h => exact .none (by rw [(insertHandoff_ok h).2])
  | registered h =>
      obtain ⟨_, types, -, rfl⟩ := registerTx_ok h
      exact .none rfl
  | revoked h | unrelated h | moved h =>
      obtain ⟨-, rfl⟩ := Prod.mk.inj (Except.ok.inj h)
      exact .none rfl
  | nothing => exact .none rfl

/-! ### A row that is no longer what it was -/

/-- A request that may change a row: for the row itself or the object around it, by a caller who was
seen to have the rank, or the claim of the actor whose row it is. -/
inductive Touches (req : Incoming) (caller : Caller) (past : Store → Prop) (row : EntityData) : Prop
  | updated {v : UpdateVerb} {typeId : String} {headers : HeaderMap} {body : Body}
      (route : req.route = .api (.itemUpdate v typeId row.entityId headers body))
      (rank : Held past caller row.entityId 2)
  | ran (route : req.route = .api (.runConnector row.entityId))
      (rank : Held past caller row.entityId 2)
  | deleted {typeId : String} {headers : HeaderMap} {td : TypeDef}
      (route : req.route = .api (.itemDelete typeId row.entityId headers))
      (rank : Held past caller row.entityId (Action.minRank td .delete))
  | orphaned {typeId parent : String} {headers : HeaderMap} {td : TypeDef}
      (inside : row.scopeParentId = some parent)
      (route : req.route = .api (.itemDelete typeId parent headers))
      (rank : Held past caller parent (Action.minRank td .delete))
  | claimed (route : req.route = .claimAdmin) (own : caller.actorId = row.entityId)

/-- An upsert only replaces the row of its key. -/
theorem Table.lost_upsert {κ α : Type} [DecidableEq κ] {key : α → κ} {t : Table key} {r q : α}
    (hq : q ∈ t) (hlost : q ∉ t.upsert r) : key q = key r := by
  by_contra hne
  exact hlost (Table.mem_upsert.mpr (Or.inr ⟨hq, hne⟩))

namespace Server

variable {ρ : Type} {D : Deployment ρ} {req : Incoming} {past : Server → Prop} {π π' : Server}

/-- A row that an endpoint changes is one that its caller may change. -/
theorem served_touches {e : Endpoint} {caller : Caller} {υ : Server} {s t : Store}
    (route : req.route = .api e)
    (authorized : e.Authorized (stores past) caller υ.toAppState s t)
    (h : e.WroteRows req.draws caller s t) {row : EntityData} (hrow : row ∈ s.entityData)
    (hlost : row ∉ t.entityData) : Touches req caller (stores past) row := by
  cases h with
  | none h => exact absurd (h ▸ hrow) hlost
  | created type h =>
      obtain ⟨ents, rows, m, cases, -, hrows, -, -, -, -, -, -, -, -, rfl⟩ := createTx_ok h
      exact absurd ((Table.mem_insert hrows).mpr (Or.inl hrow)) hlost
  | @updated _ _ id _ _ _ _ _ _ _ _ h =>
      obtain ⟨td, payload, -, -, hheld, -⟩ := authorized
      rcases updateEntityData_ok h with ⟨-, rfl, -⟩ | ⟨-, old, v, hold, -, -, -, rfl⟩
      · exact absurd hrow hlost
      · have hid : old.entityId = id := Store.row?_entityId hold
        obtain rfl : row.entityId = id := (Table.lost_upsert hrow hlost).trans hid
        exact .updated route hheld
  | @deleted typeId id headers expected n _ _ h =>
      obtain ⟨td, -, hheld⟩ := authorized
      rcases deleteEntity_ok h with ⟨-, rfl⟩ | ⟨-, -, rfl⟩
      · exact absurd hrow hlost
      · by_cases hself : row.entityId = id
        · subst hself
          exact .deleted route hheld
        · by_cases hinside : row.scopeParentId = some id
          · exact .orphaned hinside route hheld
          · refine absurd (Store.mem_entityData_deleted.mpr ⟨row, hrow, hself, ?_⟩) hlost
            unfold EntityData.orphaned
            rw [if_neg hinside]
  | @stamped id _ _ _ _ run h =>
      obtain ⟨old, m, hold, -, -, rfl⟩ := stampConnector_ok h
      have hid : old.entityId = id := Store.row?_entityId hold
      obtain rfl : row.entityId = id := (Table.lost_upsert hrow hlost).trans hid
      exact .ran route authorized

/-- A row that a write changes is one that its caller may change. -/
theorem Wrote.touches (h : Wrote D req past π π') {row : EntityData}
    (hrow : row ∈ π.store.entityData) (hlost : row ∉ π'.store.entityData) :
    ∃ caller, Known D req past caller ∧ Touches req caller (stores past) row := by
  have hstored := h.rewrote
  generalize π'.store = t at hstored hlost
  cases hstored with
  | same => exact absurd hrow hlost
  | served known route _ authorized _ h =>
      exact ⟨_, known, served_touches route authorized h.rows hrow hlost⟩
  | promoted known route found _ =>
      have hid := Store.row?_entityId found
      exact ⟨_, known, .claimed route ((Table.lost_upsert hrow hlost).trans hid).symm⟩
  | enrolled _ h =>
      obtain ⟨ents, rows, ids, -, hrows, -, -, rfl⟩ := loginTx_ok h
      exact absurd ((Table.mem_insert hrows).mpr (Or.inl hrow)) hlost

/-! ### An edge that was not there -/

/-- A request that may give a role on an object: its creation, or one for its roster. -/
inductive Grants (req : Incoming) (caller : Caller) (past : Store → Prop) (m : MemberEdge) : Prop
  | created {typeId : String} {headers : HeaderMap} {body : Body} {td : TypeDef}
      (route : req.route = .api (.collCreate typeId headers body)) (type : td.typeId = typeId)
      (object : m.objectId = mint td req.draws.uuid.text) (creator : m.memberId = caller.actorId)
      (owner : m.role = "owner")
  | added {typeId : String} {headers : HeaderMap} {body : Body}
      (route : req.route = .api (.addMember typeId m.objectId headers body))
      (rank : Held past caller m.objectId manageRank)
  | set {typeId : String} {headers : HeaderMap} {body : Body}
      (route : req.route = .api (.setMember typeId m.objectId m.memberId headers body))
      (rank : Held past caller m.objectId manageRank)

/-- An edge that an endpoint puts in is one that its caller may give. -/
theorem served_grants {e : Endpoint} {caller : Caller} {ctx : RequestCtx} {υ : Server} {s t : Store}
    (route : req.route = .api e)
    (authorized : e.Authorized (stores past) caller υ.toAppState s t)
    (h : e.Wrote req.draws ctx caller s t) {m : MemberEdge} (hm : m ∈ t.memberships)
    (hnew : m ∉ s.memberships) : Grants req caller (stores past) m := by
  cases h with
  | created type h =>
      obtain ⟨ents, rows, q, cases, -, -, hobject, hmember, hrole, -, -, -, -, -, rfl⟩ :=
        createTx_ok h
      rcases Table.mem_upsert.mp hm with rfl | ⟨hold, -⟩
      · exact .created route type hobject hmember hrole
      · exact absurd hold hnew
  | @granted _ id _ _ _ _ _ _ _ h =>
      obtain ⟨q, hobject, -, -, -, rfl⟩ := upsertMembership_ok h
      rcases Table.mem_upsert.mp hm with rfl | ⟨hold, -⟩
      · subst hobject
        exact .added route authorized
      · exact absurd hold hnew
  | @regraded _ id member _ _ _ _ _ _ h =>
      rcases updateMembership_ok h with ⟨-, rfl⟩ | ⟨q, hobject, hmember, -, -, rfl⟩
      · exact absurd hm hnew
      · rcases Table.mem_upsert.mp hm with rfl | ⟨hold, -⟩
        · subst hobject hmember
          exact .set route authorized
        · exact absurd hold hnew
  | updated h =>
      rcases updateEntityData_ok h with ⟨-, rfl, -⟩ | ⟨-, row, v, -, -, -, -, rfl⟩
      · exact absurd hm hnew
      · exact absurd hm hnew
  | deleted h =>
      rcases deleteEntity_ok h with ⟨-, rfl⟩ | ⟨-, -, rfl⟩
      · exact absurd hm hnew
      · exact absurd (Store.mem_memberships_deleted.mp hm).1 hnew
  | stamped _ h =>
      obtain ⟨row, q, -, -, -, rfl⟩ := stampConnector_ok h
      exact absurd hm hnew
  | mirrored h =>
      obtain ⟨-, rfl⟩ := upsertCase_ok h
      exact absurd hm hnew
  | logged _ h =>
      obtain ⟨-, rfl⟩ := insertEvent_ok h
      exact absurd hm hnew
  | checked h =>
      obtain ⟨-, rfl⟩ := upsertCloseCheck_ok h
      exact absurd hm hnew
  | related _ _ h =>
      obtain ⟨rows, -, rfl⟩ := insertRelation_ok h
      exact absurd hm hnew
  | started h =>
      obtain ⟨rows, -, -, rfl⟩ := insertFeatureRun_ok h
      exact absurd hm hnew
  | handed _ h =>
      obtain ⟨-, rfl⟩ := insertHandoff_ok h
      exact absurd hm hnew
  | registered h =>
      obtain ⟨_, types, -, rfl⟩ := registerTx_ok h
      exact absurd hm hnew
  | revoked h =>
      obtain ⟨-, rfl⟩ := Prod.mk.inj (Except.ok.inj h)
      exact absurd (Table.mem_filter.mp hm).1 hnew
  | unrelated h | moved h =>
      obtain ⟨-, rfl⟩ := Prod.mk.inj (Except.ok.inj h)
      exact absurd hm hnew
  | nothing => exact absurd hm hnew

/-- An edge that a write puts in is one that its caller may give. -/
theorem Wrote.grants (h : Wrote D req past π π') {m : MemberEdge}
    (hm : m ∈ π'.store.memberships) (hnew : m ∉ π.store.memberships) :
    ∃ caller, Known D req past caller ∧ Grants req caller (stores past) m := by
  have hstored := h.rewrote
  generalize π'.store = t at hstored hm
  cases hstored with
  | same => exact absurd hm hnew
  | served known route _ authorized _ h =>
      exact ⟨_, known, served_grants route authorized h hm hnew⟩
  | promoted => exact absurd hm hnew
  | enrolled _ h =>
      obtain ⟨ents, rows, ids, -, -, -, -, rfl⟩ := loginTx_ok h
      exact absurd hm hnew

/-! ### Every run -/

section Runs

variable [LinearOrder ρ] {reqs : Nat → Incoming} {p : Pool Server (Option HttpReply)}
  {l₁ l₂ : List (Commit Server)} {c : Commit Server}

/--
**An object changes only through requests for it.**  In every interleaving of any requests, a row
that was there at some moment and is not there now, as it was, has been changed by a later commit
that found it as it was: an update of its id, a run of its connector or a deletion of it or of the
object it is inside of, for a caller with a login of the last thirty days who was seen to have the
rank at a moment before; or the first-admin claim of the actor whose row it is.
-/
theorem row_changed_by (hrun : Runs D reqs p) (hlog : p.world.log = l₁ ++ c :: l₂)
    {row : EntityData} (hrow : row ∈ c.before.store.entityData)
    (hgone : row ∉ p.world.now.store.entityData) :
    ∃ k d k' caller, p.world.log = k ++ d :: k' ∧ l₁ <+: k ∧
      row ∈ d.before.store.entityData ∧ row ∉ d.after.store.entityData ∧
      LoggedIn D reqs k d caller ∧ Touches (reqs d.who) caller (stores (Earlier k d)) row := by
  obtain ⟨k, d, k', hsplit, hlater, hfound, hlost⟩ := (Pool.Run.from hrun).lost
    (P := fun u => row ∈ u.store.entityData) hlog hrow hgone
  obtain ⟨caller, hknown, htouches⟩ := (hrun.wrote hsplit).touches hfound hlost
  exact ⟨k, d, k', caller, hsplit, hlater, hfound, hlost, hrun.loggedIn hsplit hknown, htouches⟩

end Runs

/-- A row of Ada's day that is no longer what it was. -/
theorem adas_row_rewritten : ∃ l₁ c l₂ row, adasRun.world.log = l₁ ++ c :: l₂ ∧
    row ∈ c.before.store.entityData ∧ row ∉ adasRun.world.now.store.entityData ∧
    ∃ k d k' caller, adasRun.world.log = k ++ d :: k' ∧ l₁ <+: k ∧
      row ∈ d.before.store.entityData ∧ row ∉ d.after.store.entityData ∧
      LoggedIn hosted adasDay k d caller ∧
      Touches (adasDay d.who) caller (stores (Earlier k d)) row := by
  obtain ⟨l₁, c, l₂, hlog, row, hrow, hgone⟩ := adasRun_rewritten
  exact ⟨l₁, c, l₂, row, hlog, hrow, hgone, row_changed_by adasRun_runs hlog hrow hgone⟩

section Runs

variable [LinearOrder ρ] {reqs : Nat → Incoming} {p : Pool Server (Option HttpReply)}

/--
**Every role was given by someone who could.**  In every interleaving of any requests, an edge that
is there now was put in by a commit for a caller with a login of the last thirty days before it and
has been there since: by the creation of its object, for the creator and as owner, or by a request
for the roster of its object whose caller was seen to have the rank to manage it.
-/
theorem edge_granted_by (hrun : Runs D reqs p) {m : MemberEdge}
    (hm : m ∈ p.world.now.store.memberships) :
    ∃ k d k' caller, p.world.log = k ++ d :: k' ∧
      (∀ c ∈ k', m ∈ c.before.store.memberships ∧ m ∈ c.after.store.memberships) ∧
      LoggedIn D reqs k d caller ∧ Grants (reqs d.who) caller (stores (Earlier k d)) m := by
  obtain ⟨k, d, k', hsplit, hbefore, hafter, hkept⟩ := (Pool.Run.from hrun).gained
    (P := fun u => m ∈ u.store.memberships) List.not_mem_nil hm
  obtain ⟨caller, hknown, hgrants⟩ := (hrun.wrote hsplit).grants hafter hbefore
  exact ⟨k, d, k', caller, hsplit, hkept, hrun.loggedIn hsplit hknown, hgrants⟩

end Runs

/-- The one edge of Ada's day. -/
theorem adas_edge_granted : ∃ m, m ∈ adasRun.world.now.store.memberships ∧
    ∃ k d k' caller, adasRun.world.log = k ++ d :: k' ∧
      (∀ c ∈ k', m ∈ c.before.store.memberships ∧ m ∈ c.after.store.memberships) ∧
      LoggedIn hosted adasDay k d caller ∧
      Grants (adasDay d.who) caller (stores (Earlier k d)) m := by
  obtain ⟨m, hm⟩ := List.length_eq_one_iff.mp adasRun_facts.2.2.2.1
  have hmem : m ∈ adasRun.world.now.store.memberships := by
    rw [Table.mem_def, hm]
    exact List.mem_singleton.mpr rfl
  exact ⟨m, hmem, edge_granted_by adasRun_runs hmem⟩

end Server

end Numu
