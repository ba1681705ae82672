/-
What one write makes of the tables.

Whoever writes and whatever for, the database changes in one of few ways: a row is put
in with the constraints its table declares, a row is replaced under its key, rows are
taken out with everything that hangs on them.  `Store.Change` lists them with the
constraints the statement passed, and every write of the server is one of them.

An invariant of the tables is a case analysis over this list, and no handler is read
again for it.
-/
import Numu.Proofs.Admins
import Numu.Proofs.Sessions

namespace Numu

open Fallible

/-! ### The list -/

/-- What one statement makes of the database; `P` holds of an audit row, `E` of an identity. -/
inductive Store.Change (P : EventRow → Prop) (E : AuthIdentity → Prop) (s : Store) : Store → Prop
  | same : Change P E s s
  | logged {ev : EventRow} (of : P ev) (ref : s.refOk ev.entityId = true) :
      Change P E s { s with events := s.events ++ [ev] }
  | created {ent : Entity} {d : EntityData} {m : MemberEdge} {ents : Table Entity.id}
      {rows : Table EntityData.entityId} {cases : Table CaseRow.entityId}
      (entity : s.entities.insert ent = some ents) (data : s.entityData.insert d = some rows)
      (own : d.entityId = ent.id) (kind : d.typeId = ent.type)
      (type : s.typeDefinitions.has ent.type = true)
      (parent : { s with entities := ents }.refOk d.scopeParentId = true)
      (edge : memberEdgeOk { s with entities := ents } m = true)
      (mirror : cases = s.cases ∧ ent.type ≠ "case" ∨ ∃ c, cases = s.cases.upsert c ∧
        c.entityId = ent.id ∧ caseRefsOk { s with entities := ents } c = true) :
      Change P E s { s with entities := ents, entityData := rows,
                            memberships := s.memberships.upsert m, cases := cases }
  | enrolled {ent : Entity} {d : EntityData} {a : AuthIdentity} {ents : Table Entity.id}
      {rows : Table EntityData.entityId} {ids : Table AuthIdentity.key}
      (entity : s.entities.insert ent = some ents) (data : s.entityData.insert d = some rows)
      (identity : s.authIdentities.insert a = some ids) (own : d.entityId = ent.id)
      (of : E a) (linked : a.actorId = ent.id) (kind : d.typeId = ent.type)
      (actor : ent.type = "actor") (type : s.typeDefinitions.has ent.type = true)
      (parent : d.scopeParentId = none) :
      Change P E s { s with entities := ents, entityData := rows, authIdentities := ids }
  | stored {row d : EntityData} (found : row ∈ s.entityData) (own : d.entityId = row.entityId)
      (type : d.typeId = row.typeId)
      (parent : d.scopeParentId = row.scopeParentId ∨ s.refOk d.scopeParentId = true) :
      Change P E s { s with entityData := s.entityData.upsert d }
  | mirrored {c : CaseRow} (refs : caseRefsOk s c = true) :
      Change P E s { s with cases := s.cases.upsert c }
  | removed {id : String} : Change P E s (cascadeDelete s id)
  | granted {m : MemberEdge} (edge : memberEdgeOk s m = true) :
      Change P E s { s with memberships := s.memberships.upsert m }
  | regraded {old m : MemberEdge} (found : old ∈ s.memberships) (own : m.key = old.key)
      (role : s.roles.has m.role = true) :
      Change P E s { s with memberships := s.memberships.upsert m }
  | revoked {k : String × String} :
      Change P E s { s with memberships := s.memberships.filter fun m => m.key ≠ k }
  | checked {c : CloseCheck} (case : s.cases.has c.caseId = true) :
      Change P E s { s with closeChecks := s.closeChecks.upsert c }
  | related {r : RelationRow} {rows : Table RelationRow.id}
      (row : s.relations.insert r = some rows) (single : s.hasEdge r = false)
      (known : r.relationType ∈ relationTypes) (apart : r.subjectId ≠ r.objectId)
      (subject : s.entities.has r.subjectId = true) (object : s.entities.has r.objectId = true)
      (creator : s.refOk r.createdBy = true) : Change P E s { s with relations := rows }
  | unrelated {id : String} :
      Change P E s { s with relations := s.relations.filter fun r => r.id ≠ id }
  | started {r : FeatureRun} {rows : Table FeatureRun.id}
      (row : s.featureRuns.insert r = some rows)
      (case : ∀ id, r.caseId = some id → s.cases.has id = true) :
      Change P E s { s with featureRuns := rows }
  | handed {h : RoleHandoff} (run : s.featureRuns.has h.featureRunId = true) :
      Change P E s { s with roleHandoffs := s.roleHandoffs ++ [h] }
  | moved {f : FeatureRun → FeatureRun} {hf : ∀ r, (f r).id = r.id}
      (case : ∀ r, (f r).caseId = r.caseId) :
      Change P E s { s with featureRuns := s.featureRuns.modify f hf }
  | registered {td : TypeDef} {types : Table TypeDef.typeId}
      (row : s.typeDefinitions.insert td = some types) :
      Change P E s { s with typeDefinitions := types }

theorem Store.Change.mono {P Q : EventRow → Prop} {E F : AuthIdentity → Prop} {s t : Store}
    (h : s.Change P E t) (hrow : ∀ ev, P ev → Q ev) (hidentity : ∀ a, E a → F a) :
    s.Change Q F t := by
  cases h with
  | logged of ref => exact .logged (hrow _ of) ref
  | same => exact .same
  | created entity data own kind type parent edge mirror =>
      exact .created entity data own kind type parent edge mirror
  | enrolled entity data identity own of linked kind actor type parent =>
      exact .enrolled entity data identity own (hidentity _ of) linked kind actor type parent
  | stored found own type parent => exact .stored found own type parent
  | mirrored refs => exact .mirrored refs
  | removed => exact .removed
  | granted edge => exact .granted edge
  | regraded found own role => exact .regraded found own role
  | revoked => exact .revoked
  | checked case => exact .checked case
  | related row single known apart subject object creator =>
      exact .related row single known apart subject object creator
  | unrelated => exact .unrelated
  | started row case => exact .started row case
  | handed run => exact .handed run
  | moved case => exact .moved case
  | registered row => exact .registered row

/-! ### Statements -/

section Statements

variable {s t : Store} {u : Unit}

theorem insertEvent_ok {ev : EventRow} (h : insertEvent ev s = .ok (u, t)) :
    s.refOk ev.entityId = true ∧ t = { s with events := s.events ++ [ev] } := by
  unfold insertEvent at h
  split at h
  · rename_i href
    exact ⟨href, (Prod.mk.inj (Except.ok.inj h)).2.symm⟩
  · cases h

theorem upsertCloseCheck_ok {c : CloseCheck} (h : upsertCloseCheck c s = .ok (u, t)) :
    s.cases.has c.caseId = true ∧ t = { s with closeChecks := s.closeChecks.upsert c } := by
  unfold upsertCloseCheck at h
  split at h
  · rename_i hcase
    exact ⟨hcase, (Prod.mk.inj (Except.ok.inj h)).2.symm⟩
  · cases h

theorem insertFeatureRun_ok {r : FeatureRun} (h : insertFeatureRun r s = .ok (u, t)) :
    ∃ rows, s.featureRuns.insert r = some rows ∧
      (∀ id, r.caseId = some id → s.cases.has id = true) ∧ t = { s with featureRuns := rows } := by
  unfold insertFeatureRun at h
  split at h
  · cases h
  · rename_i rows hrows
    split at h
    · rename_i hcase
      refine ⟨rows, hrows, fun id hid => ?_, (Prod.mk.inj (Except.ok.inj h)).2.symm⟩
      simpa [hid] using hcase
    · cases h

/-- An edge that was accepted is between two entities that had none of its type. -/
theorem insertRelation_refs {r : RelationRow} (h : insertRelation r s = .ok (u, t)) :
    s.hasEdge r = false ∧ s.entities.has r.subjectId = true ∧ s.entities.has r.objectId = true ∧
      s.refOk r.createdBy = true := by
  unfold insertRelation at h
  split at h
  · cases h
  · split at h
    · cases h
    · rename_i hsingle
      split at h
      · rename_i hrefs
        simp only [Bool.and_eq_true] at hrefs
        exact ⟨by simpa using hsingle, hrefs.1.1, hrefs.1.2, hrefs.2⟩
      · cases h

/-- A new role is one of the table. -/
theorem updateMembership_role {o m role : String} {contextRole : Option String}
    (h : updateMembership o m role contextRole s = .ok (u, t)) :
    s.memberships.find? (o, m) = none ∨ s.roles.has role = true := by
  unfold updateMembership at h
  cases hfind : s.memberships.find? (o, m) with
  | none => exact Or.inl rfl
  | some e =>
      simp only [hfind] at h
      split at h
      · rename_i hrole
        exact Or.inr hrole
      · cases h

end Statements

/-! ### Every write is on the list -/

section Writes

variable {draws : Draws} {ctx : RequestCtx} {caller : Caller} {e : Endpoint} {s t : Store}

theorem Endpoint.Wrote.change (h : e.Wrote draws ctx caller s t) :
    s.Change (·.IsOf ctx caller) (fun _ => False) t := by
  cases h with
  | nothing => exact .same
  | logged of h =>
      obtain ⟨href, rfl⟩ := insertEvent_ok h
      exact .logged of href
  | created type h =>
      obtain ⟨ents, rows, m, cases, hents, hrows, -, -, -, hedge, rfl, htype, hparent, hcase,
        rfl⟩ := createTx_ok h
      refine .created hents hrows rfl rfl htype hparent hedge ?_
      split
      · rename_i hcases
        exact Or.inr ⟨_, rfl, rfl, hcase hcases⟩
      · rename_i hcases
        exact Or.inl ⟨rfl, type ▸ hcases⟩
  | updated h =>
      rcases updateEntityData_ok h with ⟨-, rfl, -⟩ | ⟨-, row, v, hrow, -, -, hparent, rfl⟩
      · exact .same
      · exact .stored (Table.mem_of_find? (Store.row?_eq_some.mp hrow).1) rfl rfl (Or.inr hparent)
  | mirrored h =>
      obtain ⟨hrefs, rfl⟩ := upsertCase_ok h
      exact .mirrored hrefs
  | deleted h =>
      rcases deleteEntity_ok h with ⟨-, rfl⟩ | ⟨-, -, rfl⟩
      · exact .same
      · exact .removed
  | granted h =>
      obtain ⟨m, -, -, -, hedge, rfl⟩ := upsertMembership_ok h
      exact .granted hedge
  | regraded h =>
      rcases updateMembership_ok h with ⟨-, rfl⟩ | ⟨m, ho, hm, hr, hhas, rfl⟩
      · exact .same
      · obtain ⟨old, hold, hkey⟩ := Table.has_iff.mp hhas
        refine .regraded hold hkey.symm ?_
        rcases updateMembership_role h with hnone | hrole
        · refine absurd (hkey.trans ?_) (Table.find?_eq_none.mp hnone old hold)
          rw [← ho, ← hm]
          rfl
        · rw [hr]
          exact hrole
  | revoked h =>
      obtain ⟨-, rfl⟩ := Prod.mk.inj (Except.ok.inj h)
      exact .revoked
  | checked h =>
      obtain ⟨hcase, rfl⟩ := upsertCloseCheck_ok h
      exact .checked hcase
  | related known apart h =>
      obtain ⟨hsingle, hsubject, hobject, hcreator⟩ := insertRelation_refs h
      obtain ⟨rows, hrows, rfl⟩ := insertRelation_ok h
      exact .related hrows hsingle known apart hsubject hobject hcreator
  | unrelated h =>
      obtain ⟨-, rfl⟩ := Prod.mk.inj (Except.ok.inj h)
      exact .unrelated
  | started h =>
      obtain ⟨rows, hrows, hcase, rfl⟩ := insertFeatureRun_ok h
      exact .started hrows hcase
  | handed _ h =>
      obtain ⟨hrun, rfl⟩ := insertHandoff_ok h
      exact .handed hrun
  | moved h =>
      obtain ⟨-, rfl⟩ := Prod.mk.inj (Except.ok.inj h)
      refine .moved fun r => ?_
      split <;> rfl
  | stamped _ h =>
      obtain ⟨row, m, hrow, -, -, rfl⟩ := stampConnector_ok h
      exact .stored (Table.mem_of_find? (Store.row?_eq_some.mp hrow).1) rfl rfl (Or.inl rfl)
  | registered h =>
      obtain ⟨_, types, htypes, rfl⟩ := registerTx_ok h
      exact .registered htypes

/-- The identity of a first login. -/
def Server.Enrols {ρ : Type} (D : Deployment ρ) (req : Incoming) (a : AuthIdentity) : Prop :=
  ∃ p identity, Vouched D req p identity ∧
    a = { provider := p.name, sub := identity.sub, actorId := "USR_" ++ req.draws.uuid.text,
          email := identity.email }

/-- What a write of a request makes of the database: the statement of an endpoint, the promotion of
its caller, the rows of a first login.  The other writes of a request leave it as it is. -/
inductive Server.Rewrote {ρ : Type} (D : Deployment ρ) (req : Incoming) (past : Server → Prop)
    (s : Store) : Store → Prop
  | same : Rewrote D req past s s
  | served {caller : Caller} {υ : Server} {e : Endpoint} {t : Store}
      (known : Known D req past caller) (route : req.route = .api e) (seen : past υ)
      (authorized : e.Authorized (stores past) caller υ.toAppState s t)
      (checked : e.Checked (stores past) υ.toAppState (requestCtx req.requestId req.draws) s t)
      (h : e.Wrote req.draws (requestCtx req.requestId req.draws) caller s t) :
      Rewrote D req past s t
  | promoted {caller : Caller} {row : EntityData} {m : JsonMap}
      (known : Known D req past caller) (route : req.route = .claimAdmin)
      (found : s.row? caller.actorId "actor" = some row) (obj : row.data = .obj m) :
      Rewrote D req past s { s with entityData := s.entityData.upsert (promotedRow row m) }
  | enrolled {p : Provider} {identity : Identity} {t : Store}
      (vouched : Vouched D req p identity)
      (h : loginTx ("USR_" ++ req.draws.uuid.text) p.name identity.sub identity.name
        identity.email req.draws.now s = .ok ((), t)) : Rewrote D req past s t

section Requests

variable {ρ : Type} {D : Deployment ρ} {req : Incoming} {past : Server → Prop} {π π' : Server}

theorem Server.Wrote.rewrote (h : Wrote D req past π π') :
    Rewrote D req past π.store π'.store := by
  cases h with
  | counted => exact .same
  | idle => exact .same
  | caller known h =>
      cases h with
      | served route seen authorized checked _ changed =>
          cases changed with
          | database h => exact .served known route seen authorized checked h
          | published => exact .same
      | promoted route h =>
          rcases promoteUnless_ok h with ⟨-, rfl⟩ | ⟨-, row, m, hrow, -, hobj, rfl⟩
          · exact .same
          · exact .promoted known route hrow hobj
      | closed => exact .same
  | login h =>
      cases h with
      | enrolled vouched h => exact .enrolled vouched h
      | opened _ h =>
          obtain ⟨rows, -, -, -, rfl⟩ := insertSession_ok h
          exact .same

/-- The same of every write of a request: an audit row is of the caller it knew, and an identity is
the one a provider vouched for. -/
theorem Server.Wrote.change (h : Wrote D req past π π') :
    π.store.Change (fun ev => ∃ caller, Known D req past caller ∧
      ev.IsOf (requestCtx req.requestId req.draws) caller) (Enrols D req) π'.store := by
  have hstored := h.rewrote
  generalize π'.store = t at hstored ⊢
  cases hstored with
  | same => exact .same
  | served known _ _ _ _ h =>
      exact h.change.mono (fun ev hev => ⟨_, known, hev⟩) fun _ => False.elim
  | promoted _ _ found _ =>
      exact .stored (Table.mem_of_find? (Store.row?_eq_some.mp found).1) rfl rfl (Or.inl rfl)
  | enrolled vouched h =>
      obtain ⟨ents, rows, ids, hents, hrows, htype, hids, rfl⟩ := loginTx_ok h
      exact .enrolled hents hrows hids rfl ⟨_, _, vouched, rfl⟩ rfl rfl rfl htype rfl

end Requests

end Writes

end Numu
