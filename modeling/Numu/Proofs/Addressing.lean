/-
What a request learns by naming an id.

Whoever does not reach an entity must not find out whether it is there.  So a
request that addresses an entity has to answer alike whether the entity exists
out of reach or was deleted, and has to leave the store alone in both cases.

The two stores have one thing in common that every handler asks for before it
answers anything that depends on the entity: the caller has no rank on the id and
no role on its roster.  `Unreached` says that, and a handler that fails alike on
every store where it holds (`RefusesOn`) cannot tell the two apart.
-/
import Numu.Proofs.Deletion
import Numu.Proofs.FieldPlane
import Numu.Api.Relations
import Numu.Api.Orchestrator

namespace Numu

open Fallible Handler

/-- The caller has no way in: not an admin, no rank on `x`, no role on its roster. -/
structure Unreached (caller : Caller) (x : String) (s : Store) : Prop where
  admin : caller.isPlatformAdmin = false
  rank : s.effectiveRank caller.actorId x = none
  roster : s.currentRole x caller.actorId = none

/-! ### The two stores -/

/-- A role on the roster is a rank, so without a rank there is no role. -/
theorem Store.currentRole_of_no_rank {s : Store} (hs : s.Valid) {a x : String}
    (h : s.effectiveRank a x = none) : s.currentRole x a = none := by
  cases hrole : s.currentRole x a with
  | none => rfl
  | some r =>
      unfold Store.currentRole at hrole
      obtain ⟨e, he, -⟩ := Option.map_eq_some_iff.mp hrole
      obtain ⟨hmem, hkey⟩ := Table.find?_eq_some.mp he
      simp only [MemberEdge.key, Prod.mk.injEq] at hkey
      obtain ⟨rank, hrank⟩ := (Store.effectiveRank_isSome hs (a := a) (x := x)).mpr
        ⟨0, by omega, x, rfl, e, hmem, hkey.1, by rw [hkey.2]; exact .refl⟩
      rw [h] at hrank
      simp at hrank

theorem unreached_of_no_rank {caller : Caller} {x : String} {s : Store} (hs : s.Valid)
    (hadmin : caller.isPlatformAdmin = false) (h : s.effectiveRank caller.actorId x = none) :
    Unreached caller x s :=
  ⟨hadmin, h, Store.currentRole_of_no_rank hs h⟩

theorem unreached_deleted {caller : Caller} (x : String) (s : Store)
    (hadmin : caller.isPlatformAdmin = false) : Unreached caller x (cascadeDelete s x) := by
  refine ⟨hadmin, Store.effectiveRank_deleted s caller.actorId x, ?_⟩
  unfold Store.currentRole
  have hnone : (cascadeDelete s x).memberships.find? (x, caller.actorId) = none := by
    rw [Table.find?_eq_none]
    intro m hm hkey
    exact (Store.mem_memberships_deleted.mp hm).2.1 (congrArg Prod.fst hkey)
  rw [hnone]
  rfl

/-! ### The gates -/

theorem exec_requireAction_ok (caller : Caller) (td : TypeDef) (objectId : Option String)
    (action : Action) (s : Store) :
    ∃ ok, exec (requireAction caller td objectId action) s = (.ok ok, s) := by
  unfold requireAction
  by_cases hadmin : caller.isPlatformAdmin = true
  · rw [if_pos hadmin]
    exact ⟨true, rfl⟩
  · rw [if_neg hadmin]
    cases objectId with
    | none => exact ⟨true, rfl⟩
    | some id => exact ⟨_, rfl⟩

/-- The object gate always has an answer, yes or no. -/
theorem exec_reachAction_ok (st : AppState) (caller : Caller) (id : String) (action : Action)
    (s : Store) : ∃ ok, exec (reachAction st caller id action) s = (.ok ok, s) := by
  unfold reachAction
  rw [exec_bind, exec_query]
  dsimp only
  cases (s.typeOf id).bind (TypeDefCache.get st.registry) with
  | none => exact ⟨false, rfl⟩
  | some td => exact exec_requireAction_ok caller td (some id) action s

namespace Unreached

variable {caller : Caller} {x : String} {s : Store} {st : AppState} {ctx : RequestCtx}
  {td : TypeDef} {action : Action} {α : Type}

theorem exec_requireAction (h : Unreached caller x s) :
    exec (requireAction caller td (some x) action) s = (.ok false, s) := by
  unfold requireAction
  rw [if_neg (by simp [h.admin])]
  simp only [exec_bind, exec_query, h.rank, exec_pure, Option.any_none]

theorem exec_reachAction (h : Unreached caller x s) :
    exec (reachAction st caller x action) s = (.ok false, s) := by
  unfold reachAction
  rw [exec_bind, exec_query]
  dsimp only
  cases (s.typeOf x).bind (TypeDefCache.get st.registry) with
  | none => rfl
  | some td => exact h.exec_requireAction

theorem exec_requireRank {minRank : I32} (h : Unreached caller x s) :
    exec (requireRank caller x minRank ctx) s = (.error (deny404 ctx), s) := by
  unfold requireRank
  rw [if_neg (by simp [h.admin])]
  simp only [exec_bind, exec_query, h.rank, exec_throw]

/-- A run of the entity's case, or of no case, is out of reach too. -/
theorem exec_requireRunAuthority {caseId : Option String} (h : Unreached caller x s)
    (hcase : ∀ id, caseId = some id → id = x) :
    exec (requireRunAuthority st caller caseId action ctx) s = (.error (deny404 ctx), s) := by
  unfold requireRunAuthority
  cases caseId with
  | none => simp only [exec_bind, exec_pure, h.admin]; rfl
  | some id =>
      obtain rfl := hcase id rfl
      simp only [exec_bind, h.exec_reachAction]
      rfl

/-- The opening of every item handler: a type that is not there answers like no reach. -/
theorem refuses_item (rest : TypeDef → Handler α) (typeId : String) :
    RefusesOn (Unreached caller x) (do
      let td ← resolve st typeId ctx
      let ok ← requireAction caller td (some x) action
      ensure ok (deny404 ctx)
      rest td) := by
  refine refusesOn_getOr_bind fun td _ => ⟨deny404 ctx, fun s h => ?_⟩
  rw [exec_bind, h.exec_requireAction]
  rfl

/-- The opening of every roster handler: an object that is not there answers like no reach. -/
theorem refuses_roster (rest : I32 → Handler α) (typeId : String) (minRank : I32) :
    RefusesOn (Unreached caller x) (do
      ensureObject x typeId ctx
      let rank ← requireRank caller x minRank ctx
      rest rank) := by
  refine ⟨deny404 ctx, fun s h => ?_⟩
  unfold ensureObject
  simp only [exec_bind, exec_query]
  cases s.row? x typeId with
  | none => rfl
  | some row =>
      simp only [Option.isSome_some, ensure, if_true, exec_pure, h.exec_requireRank]

end Unreached

/-! ### The requests that address an entity -/

/-- A request by whose id an entity is addressed. -/
inductive AddressRequest where
  | itemGet (typeId id : String) (headers : HeaderMap)
  | itemHead (typeId id : String)
  | itemOptions (typeId id : String)
  | itemPut (env : Ambient) (typeId id : String) (headers : HeaderMap) (body : Body)
  | itemPatch (env : Ambient) (typeId id : String) (headers : HeaderMap) (body : Body)
  | itemDelete (typeId id : String) (headers : HeaderMap)
  | listMembers (typeId id : String)
  | addMember (typeId id : String) (headers : HeaderMap) (body : Body)
  | setMember (typeId id memberId : String) (headers : HeaderMap) (body : Body)
  | removeMember (typeId id memberId : String)
  | recordCheck (typeId id name : String) (headers : HeaderMap) (body : Body)
  | collCreate (env : Ambient) (typeId : String) (headers : HeaderMap) (body : Body)
  | createRelation (env : Ambient) (body : Except String RelInput)
  | listRelations (q : RelationQuery)
  | runConnector (env : Ambient) (fetch : String → Except AppError Json) (id : String)
  | startRun (env : Ambient) (body : Except String StartInput)
  | listRuns (caseId : Option String)
  | getRun (id : String)
  | recordHandoff (env : Ambient) (id : String) (body : Except String HandoffInput)

namespace AddressRequest

def handle (st : AppState) (ctx : RequestCtx) (caller : Caller) :
    AddressRequest → Handler Response
  | itemGet typeId id headers => Numu.itemGet st ctx caller typeId id headers
  | itemHead typeId id => Numu.itemHead st ctx caller typeId id
  | itemOptions typeId id => Numu.itemOptions st ctx caller typeId id
  | itemPut env typeId id headers body => Numu.itemPut st ctx env caller typeId id headers body
  | itemPatch env typeId id headers body => Numu.itemPatch st ctx env caller typeId id headers body
  | itemDelete typeId id headers => Numu.itemDelete st ctx caller typeId id headers
  | listMembers typeId id => Numu.listMembers ctx caller typeId id
  | addMember typeId id headers body => Numu.addMember ctx caller typeId id headers body
  | setMember typeId id m headers body => Numu.setMember ctx caller typeId id m headers body
  | removeMember typeId id m => Numu.removeMember ctx caller typeId id m
  | recordCheck typeId id name headers body =>
    Numu.recordCheck ctx caller typeId id name headers body
  | collCreate env typeId headers body => Numu.collCreate st ctx env caller typeId headers body
  | createRelation env body => Numu.createRelation st ctx env caller body
  | listRelations q => Numu.listRelations st ctx caller q
  | runConnector env fetch id => Numu.runConnector st ctx env caller fetch id
  | startRun env body => Numu.startRun st ctx env caller body
  | listRuns caseId => Numu.listRuns st ctx caller caseId
  | getRun id => Numu.getRun st ctx caller id
  | recordHandoff env id body => Numu.recordHandoff st ctx env caller id body

/-- The request addresses `x`; a run is addressed through its case, which the store knows. -/
def Addresses (st : AppState) (s : Store) (x : String) : AddressRequest → Prop
  | itemGet _ id _ | itemHead _ id | itemOptions _ id | itemPut _ _ id _ _ | itemPatch _ _ id _ _
  | itemDelete _ id _ | listMembers _ id | addMember _ id _ _ | setMember _ id _ _ _
  | removeMember _ id _ | recordCheck _ id _ _ _ | runConnector _ _ id => id = x
  | collCreate _ typeId headers body => ∀ td payload,
      TypeDefCache.get st.registry typeId = some td → readJson headers body false = .ok payload →
        scopeParent td (buildCreateData td payload) = some x
  | createRelation _ body => ∀ input, body = .ok input → input.subjectId = x ∨ input.objectId = x
  | listRelations q => q.entity = some x
  | startRun _ body => ∀ input, body = .ok input → input.caseId = some x
  | listRuns caseId => caseId = some x
  | getRun id | recordHandoff _ id _ => (s.featureRuns.find? id).map FeatureRun.caseId = some (some x)

end AddressRequest

/-! ### Every one of them refuses alike -/

section Refusals

variable {st : AppState} {ctx : RequestCtx} {caller : Caller} {x : String}

theorem itemUpdate_refuses (v : UpdateVerb) (env : Ambient) (typeId : String)
    (headers : HeaderMap) (body : Body) :
    RefusesOn (Unreached caller x) (itemUpdate v st ctx env caller typeId x headers body) :=
  Unreached.refuses_item _ typeId

theorem addMember_refuses (typeId : String) (headers : HeaderMap) (body : Body) :
    RefusesOn (Unreached caller x) (addMember ctx caller typeId x headers body) :=
  Unreached.refuses_roster _ typeId manageRank

/-- Revoking asks for a role on the roster first, so the caller's own is not there to revoke. -/
theorem removeMember_refuses (typeId m : String) :
    RefusesOn (Unreached caller x) (removeMember ctx caller typeId x m) := by
  refine ⟨deny404 ctx, fun s h => ?_⟩
  simp only [removeMember, ensureObject, exec_bind, exec_query]
  cases s.row? x typeId with
  | none => rfl
  | some row =>
      simp only [Option.isSome_some, ensure, if_true, exec_pure]
      cases hrole : s.currentRole x m with
      | none => rfl
      | some role =>
          have hother : m ≠ caller.actorId := by
            rintro rfl
            rw [h.roster] at hrole
            simp at hrole
          simp only [getOr, exec_pure, onlyIf, if_pos hother, exec_bind, h.exec_requireRank]

theorem recordCheck_refuses (typeId name : String) (headers : HeaderMap) (body : Body) :
    RefusesOn (Unreached caller x) (recordCheck ctx caller typeId x name headers body) :=
  refusesOn_ensure_bind fun _ => Unreached.refuses_roster _ typeId manageRank

theorem collCreate_refuses (env : Ambient) (typeId : String) (headers : HeaderMap) (body : Body)
    (haddr : ∀ td payload, TypeDefCache.get st.registry typeId = some td →
      readJson headers body false = .ok payload →
        scopeParent td (buildCreateData td payload) = some x) :
    RefusesOn (Unreached caller x) (collCreate st ctx env caller typeId headers body) := by
  refine refusesOn_getOr_bind fun td htd => refusesOn_check_bind fun payload hpayload => ?_
  refine refusesOn_check_bind fun _ _ => refusesOn_check_bind fun _ _ => ?_
  refine refusesOn_check_bind fun _ _ => refusesOn_check_bind fun _ _ => ?_
  refine ⟨deny404 ctx, fun s h => ?_⟩
  rw [haddr td payload htd hpayload, exec_bind, h.exec_requireAction]
  rfl

/-- Whichever end the entity is, the edge is refused; the other end is asked about first or not
at all, and either answer to that ends in the same denial. -/
theorem createRelation_refuses (env : Ambient) (body : Except String RelInput)
    (haddr : ∀ input, body = .ok input → input.subjectId = x ∨ input.objectId = x) :
    RefusesOn (Unreached caller x) (createRelation st ctx env caller body) := by
  refine refusesOn_check_bind fun input hinput => ?_
  have hbody : body = .ok input := by
    cases body with
    | error e => simp [Except.mapError] at hinput
    | ok i => simpa [Except.mapError] using hinput
  refine refusesOn_ensure_bind fun _ => refusesOn_ensure_bind fun _ => ?_
  refine ⟨deny404 ctx, fun s h => ?_⟩
  have hgate : exec (reachesBoth st caller input.subjectId input.objectId) s = (.ok false, s) := by
    unfold reachesBoth
    rcases haddr input hbody with hsubject | hobject
    · rw [hsubject, exec_bind, h.exec_reachAction]
      rfl
    · obtain ⟨edit, hedit⟩ := exec_reachAction_ok st caller input.subjectId .edit s
      rw [hobject, exec_bind, hedit]
      cases edit with
      | true => exact h.exec_reachAction
      | false => rfl
  rw [exec_bind, hgate]
  rfl

theorem listRelations_refuses (q : RelationQuery) (haddr : q.entity = some x) :
    RefusesOn (Unreached caller x) (listRelations st ctx caller q) := by
  refine refusesOn_getOr_bind fun entity hentity => ⟨deny404 ctx, fun s h => ?_⟩
  obtain rfl : x = entity := Option.some.inj (haddr.symm.trans hentity)
  rw [exec_bind, h.exec_reachAction]
  rfl

/-- A connector that is there and one that is not are denied alike. -/
theorem runConnector_refuses (env : Ambient) (fetch : String → Except AppError Json) :
    RefusesOn (Unreached caller x) (runConnector st ctx env caller fetch x) := by
  refine ⟨deny404 ctx, fun s h => ?_⟩
  unfold runConnector
  simp only [exec_bind, exec_query]
  cases s.row? x "connector" with
  | none => rfl
  | some row => simp only [getOr, exec_pure, h.exec_reachAction]; rfl

theorem startRun_refuses (env : Ambient) (body : Except String StartInput)
    (haddr : ∀ input, body = .ok input → input.caseId = some x) :
    RefusesOn (Unreached caller x) (startRun st ctx env caller body) := by
  refine refusesOn_check_bind fun input hinput => ⟨deny404 ctx, fun s h => ?_⟩
  have hbody : body = .ok input := by
    cases body with
    | error e => simp [Except.mapError] at hinput
    | ok i => simpa [Except.mapError] using hinput
  have hcase : ∀ id, input.caseId = some id → id = x := by
    intro id hid
    exact Option.some.inj (hid.symm.trans (haddr input hbody))
  rw [exec_bind, h.exec_requireRunAuthority hcase]

theorem listRuns_refuses : RefusesOn (Unreached caller x) (listRuns st ctx caller (some x)) := by
  refine ⟨deny404 ctx, fun s h => ?_⟩
  show exec (requireRunAuthority st caller (some x) .view ctx >>= fun _ => _) s = _
  rw [exec_bind, h.exec_requireRunAuthority fun id hid => (Option.some.inj hid).symm]

/-- The run is there, and its case is the entity or, after its deletion, none. -/
def RunOf (id x : String) (s : Store) : Prop :=
  ∃ run, s.featureRuns.find? id = some run ∧ ∀ c, run.caseId = some c → c = x

theorem getRun_refuses (id : String) :
    RefusesOn (fun s => Unreached caller x s ∧ RunOf id x s) (getRun st ctx caller id) := by
  refine ⟨deny404 ctx, fun s h => ?_⟩
  obtain ⟨hout, run, hrun, hcase⟩ := h
  unfold getRun
  simp only [exec_bind, exec_query, hrun, Option.map_some, getOr, exec_pure,
    hout.exec_requireRunAuthority hcase]

theorem recordHandoff_refuses (env : Ambient) (id : String) (body : Except String HandoffInput) :
    RefusesOn (fun s => Unreached caller x s ∧ RunOf id x s)
      (recordHandoff st ctx env caller id body) := by
  refine refusesOn_check_bind fun input _ => refusesOn_ensure_bind fun _ => ?_
  refine ⟨deny404 ctx, fun s h => ?_⟩
  obtain ⟨hout, run, hrun, hcase⟩ := h
  simp only [exec_bind, exec_query, hrun, getOr, exec_pure, hout.exec_requireRunAuthority hcase]

end Refusals

/-- A run whose case goes has no case. -/
theorem runOf_deleted {id x : String} {s : Store}
    (h : (s.featureRuns.find? id).map FeatureRun.caseId = some (some x)) :
    RunOf id x s ∧ RunOf id x (cascadeDelete s x) := by
  obtain ⟨run, hrun, hcase⟩ := Option.map_eq_some_iff.mp h
  have hgone : (cascadeDelete s x).featureRuns.find? id = some { run with caseId := none } := by
    unfold cascadeDelete
    rw [Table.find?_modify, hrun, Option.map_some, hcase, if_pos rfl]
  refine ⟨⟨run, hrun, fun c hc => Option.some.inj (hc.symm.trans hcase)⟩, _, hgone, ?_⟩
  intro c hc
  simp at hc

/-- Refusing on a property that both stores have is answering alike and changing neither. -/
theorem refusesOn_both {P : Store → Prop} {p : Handler Response} {s t : Store}
    (h : RefusesOn P p) (hs : P s) (ht : P t) :
    ∃ e, exec p s = (.error e, s) ∧ exec p t = (.error e, t) := by
  obtain ⟨e, he⟩ := h
  exact ⟨e, he s hs, he t ht⟩

/--
**Addressing an entity does not tell whether it is there.**  A request of a caller
without rank on an entity gets the same error whether the entity exists or was
deleted, and changes nothing in either case.
-/
theorem unreachable_answers_as_deleted (st : AppState) (ctx : RequestCtx) (caller : Caller)
    (hadmin : caller.isPlatformAdmin = false) (s : Store) (hs : s.Valid) (x : String)
    (hnone : s.effectiveRank caller.actorId x = none) (req : AddressRequest)
    (haddr : req.Addresses st s x) :
    ∃ e, exec (req.handle st ctx caller) s = (.error e, s) ∧
      exec (req.handle st ctx caller) (cascadeDelete s x) = (.error e, cascadeDelete s x) := by
  have hin := unreached_of_no_rank hs hadmin hnone
  have hout := unreached_deleted x s hadmin
  cases req with
  | itemGet typeId id headers =>
      obtain rfl : id = x := haddr
      exact refusesOn_both (Unreached.refuses_item _ typeId) hin hout
  | itemHead typeId id =>
      obtain rfl : id = x := haddr
      exact refusesOn_both (Unreached.refuses_item _ typeId) hin hout
  | itemOptions typeId id =>
      obtain rfl : id = x := haddr
      exact refusesOn_both (Unreached.refuses_item _ typeId) hin hout
  | itemPut env typeId id headers body =>
      obtain rfl : id = x := haddr
      exact refusesOn_both (itemUpdate_refuses .put env typeId headers body) hin hout
  | itemPatch env typeId id headers body =>
      obtain rfl : id = x := haddr
      exact refusesOn_both (itemUpdate_refuses .patch env typeId headers body) hin hout
  | itemDelete typeId id headers =>
      obtain rfl : id = x := haddr
      exact refusesOn_both (Unreached.refuses_item _ typeId) hin hout
  | listMembers typeId id =>
      obtain rfl : id = x := haddr
      exact refusesOn_both (Unreached.refuses_roster _ typeId 1) hin hout
  | addMember typeId id headers body =>
      obtain rfl : id = x := haddr
      exact refusesOn_both (addMember_refuses typeId headers body) hin hout
  | setMember typeId id m headers body =>
      obtain rfl : id = x := haddr
      exact refusesOn_both (Unreached.refuses_roster _ typeId manageRank) hin hout
  | removeMember typeId id m =>
      obtain rfl : id = x := haddr
      exact refusesOn_both (removeMember_refuses typeId m) hin hout
  | recordCheck typeId id name headers body =>
      obtain rfl : id = x := haddr
      exact refusesOn_both (recordCheck_refuses typeId name headers body) hin hout
  | collCreate env typeId headers body =>
      exact refusesOn_both (collCreate_refuses env typeId headers body haddr) hin hout
  | createRelation env body =>
      exact refusesOn_both (createRelation_refuses env body haddr) hin hout
  | listRelations q => exact refusesOn_both (listRelations_refuses q haddr) hin hout
  | runConnector env fetch id =>
      obtain rfl : id = x := haddr
      exact refusesOn_both (runConnector_refuses env fetch) hin hout
  | startRun env body => exact refusesOn_both (startRun_refuses env body haddr) hin hout
  | listRuns caseId =>
      obtain rfl : caseId = some x := haddr
      exact refusesOn_both listRuns_refuses hin hout
  | getRun id =>
      obtain ⟨hrun, hrun'⟩ := runOf_deleted haddr
      exact refusesOn_both (getRun_refuses id) ⟨hin, hrun⟩ ⟨hout, hrun'⟩
  | recordHandoff env id body =>
      obtain ⟨hrun, hrun'⟩ := runOf_deleted haddr
      exact refusesOn_both (recordHandoff_refuses env id body) ⟨hin, hrun⟩ ⟨hout, hrun'⟩

/-- A reply to the ninth comment of the thread is refused to the project's owner either way. -/
theorem reply_to_ninth_comment_refused :
    ∃ e, exec ((AddressRequest.createRelation {} (.ok ⟨"CMT_1", "CMT_9", "references"⟩)).handle
        ⟨⟨[plainType "comment" "CMT"], by decide⟩, ∅⟩ plainCtx ⟨"USR_alice", false⟩) threadStore =
          (.error e, threadStore) ∧
      exec ((AddressRequest.createRelation {} (.ok ⟨"CMT_1", "CMT_9", "references"⟩)).handle
        ⟨⟨[plainType "comment" "CMT"], by decide⟩, ∅⟩ plainCtx ⟨"USR_alice", false⟩)
          (cascadeDelete threadStore "CMT_9") = (.error e, cascadeDelete threadStore "CMT_9") := by
  refine unreachable_answers_as_deleted _ plainCtx ⟨"USR_alice", false⟩ rfl threadStore
    threadStore_valid "CMT_9" (by decide) _ ?_
  intro input hinput
  rw [← Except.ok.inj hinput]
  exact Or.inr rfl

end Numu
