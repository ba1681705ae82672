/-
Who owns what: the last-owner guard, and the three ways around it.

An object is owned while some membership row of it has the role owner.  Two of
the roster requests change or delete such a row only after they counted the
owners; the third, a grant, replaces a row without counting.  The guard reads in
one statement and the change is made in another, so it protects against what was
there when it read.  And the deletion of an entity takes its own memberships with
it, whatever they were on.

Each of the three is settled by the condition under which ownership survives, and
by a run in which it does not.
-/
import Numu.Lib.Pool
import Numu.Proofs.FieldPlane

namespace Numu

open Fallible Handler

namespace Store

/-- Some membership row of the object has the role owner. -/
def Owned (s : Store) (o : String) : Prop :=
  ∃ e ∈ s.memberships, e.objectId = o ∧ e.role = "owner"

/-- Somebody else than the given member owns the object. -/
def OwnedBesides (s : Store) (o m : String) : Prop :=
  ∃ e ∈ s.memberships, e.objectId = o ∧ e.role = "owner" ∧ e.memberId ≠ m

instance (s : Store) (o : String) : Decidable (s.Owned o) :=
  inferInstanceAs (Decidable (∃ e ∈ s.memberships.rows, e.objectId = o ∧ e.role = "owner"))

theorem currentRole_eq_some {s : Store} {o m r : String} :
    s.currentRole o m = some r ↔
      ∃ e ∈ s.memberships, e.objectId = o ∧ e.memberId = m ∧ e.role = r := by
  unfold currentRole
  rw [Option.map_eq_some_iff]
  refine ⟨fun h => ?_, fun h => ?_⟩
  · obtain ⟨e, he, hr⟩ := h
    obtain ⟨hmem, hkey⟩ := Table.find?_eq_some.mp he
    simp only [MemberEdge.key, Prod.mk.injEq] at hkey
    exact ⟨e, hmem, hkey.1, hkey.2, hr⟩
  · obtain ⟨e, hmem, ho, hm, hr⟩ := h
    exact ⟨e, Table.find?_eq_some.mpr ⟨hmem, by rw [MemberEdge.key, ho, hm]⟩, hr⟩

/-- An owned object is owned by the member or by somebody else. -/
theorem owned_iff {s : Store} {o : String} (m : String) :
    s.Owned o ↔ s.OwnedBesides o m ∨ s.currentRole o m = some "owner" := by
  rw [currentRole_eq_some]
  refine ⟨fun h => ?_, fun h => ?_⟩
  · obtain ⟨e, he, ho, hr⟩ := h
    by_cases hm : e.memberId = m
    · exact Or.inr ⟨e, he, ho, hm, hr⟩
    · exact Or.inl ⟨e, he, ho, hr, hm⟩
  · rcases h with ⟨e, he, ho, hr, -⟩ | ⟨e, he, ho, -, hr⟩
    · exact ⟨e, he, ho, hr⟩
    · exact ⟨e, he, ho, hr⟩

theorem mem_ownerEdges {s : Store} {o : String} {e : MemberEdge} :
    e ∈ s.ownerEdges o ↔ e ∈ s.memberships ∧ e.objectId = o ∧ e.role = "owner" := by
  unfold ownerEdges
  rw [List.mem_filter]
  simp [Table.mem_def]

theorem ownerEdges_nodup {s : Store} {o : String} :
    ((s.ownerEdges o).map MemberEdge.key).Nodup :=
  s.memberships.nodup.sublist (List.filter_sublist.map _)

/-- Counting at least two owners is the same as finding one besides an owner. -/
theorem one_lt_ownerCount {s : Store} {o m : String} (h : s.currentRole o m = some "owner") :
    1 < s.ownerCount o ↔ s.OwnedBesides o m := by
  obtain ⟨e, he, ho, hm, hr⟩ := currentRole_eq_some.mp h
  have hmem : e ∈ s.ownerEdges o := mem_ownerEdges.mpr ⟨he, ho, hr⟩
  unfold ownerCount
  refine ⟨fun hlt => ?_, fun hother => ?_⟩
  · -- Two rows of one object have two members, and one of them is not `m`.
    have hnodup : ((s.ownerEdges o).map MemberEdge.key).Nodup := ownerEdges_nodup
    have hin : ∀ d ∈ s.ownerEdges o, d ∈ s.memberships ∧ d.objectId = o ∧ d.role = "owner" :=
      fun d hd => mem_ownerEdges.mp hd
    rcases hlist : s.ownerEdges o with _ | ⟨a, _ | ⟨b, rest⟩⟩
    · rw [hlist] at hlt
      simp at hlt
    · rw [hlist] at hlt
      simp at hlt
    · rw [hlist] at hnodup hin
      obtain ⟨ha, hao, har⟩ := hin a (by simp)
      obtain ⟨hb, hbo, hbr⟩ := hin b (by simp)
      have hne : a.key ≠ b.key := by
        simp only [List.map_cons, List.nodup_cons, List.mem_cons, not_or] at hnodup
        exact hnodup.1.1
      by_cases ham : a.memberId = m
      · refine ⟨b, hb, hbo, hbr, ?_⟩
        intro hbm
        refine hne ?_
        rw [MemberEdge.key, MemberEdge.key, hao, hbo, ham, hbm]
      · exact ⟨a, ha, hao, har, ham⟩
  · obtain ⟨d, hd, hdo, hdr, hdm⟩ := hother
    have hmem' : d ∈ s.ownerEdges o := mem_ownerEdges.mpr ⟨hd, hdo, hdr⟩
    by_contra hle
    have hpos : 0 < (s.ownerEdges o).length := List.length_pos_of_mem hmem
    obtain ⟨a, ha⟩ := List.length_eq_one_iff.mp (by omega : (s.ownerEdges o).length = 1)
    rw [ha, List.mem_singleton] at hmem hmem'
    exact hdm (hmem'.trans hmem.symm ▸ hm)

/-- Owned depends on the memberships alone. -/
theorem owned_congr {s t : Store} (h : s.memberships = t.memberships) {o : String} :
    s.Owned o ↔ t.Owned o := by
  unfold Owned
  rw [h]

/-- A deleted row leaves the owners besides its member. -/
theorem owned_deleted {s t : Store} {o m : String}
    (h : t.memberships = s.memberships.filter fun e => e.key ≠ (o, m)) (x : String) :
    t.Owned x ↔ if x = o then s.OwnedBesides x m else s.Owned x := by
  have hmem : ∀ e, e ∈ t.memberships ↔ e ∈ s.memberships ∧ ¬ (e.objectId = o ∧ e.memberId = m) := by
    intro e
    rw [h, Table.mem_filter]
    simp only [MemberEdge.key, ne_eq, Prod.mk.injEq, decide_eq_true_eq]
  unfold Owned OwnedBesides
  simp only [hmem]
  by_cases hx : x = o
  · subst hx
    rw [if_pos rfl]
    refine ⟨fun h => ?_, fun h => ?_⟩
    · obtain ⟨e, ⟨he, hne⟩, ho, hr⟩ := h
      exact ⟨e, he, ho, hr, fun hm => hne ⟨ho, hm⟩⟩
    · obtain ⟨e, he, ho, hr, hm⟩ := h
      exact ⟨e, ⟨he, fun hc => hm hc.2⟩, ho, hr⟩
  · rw [if_neg hx]
    refine ⟨fun h => ?_, fun h => ?_⟩
    · obtain ⟨e, ⟨he, -⟩, ho, hr⟩ := h
      exact ⟨e, he, ho, hr⟩
    · obtain ⟨e, he, ho, hr⟩ := h
      exact ⟨e, ⟨he, fun hc => hx (ho.symm.trans hc.1)⟩, ho, hr⟩

/-- A written row makes its member an owner or not, and leaves the owners besides. -/
theorem owned_written {s t : Store} {e : MemberEdge}
    (h : t.memberships = s.memberships.upsert e) (x : String) :
    t.Owned x ↔ if x = e.objectId then e.role = "owner" ∨ s.OwnedBesides x e.memberId
      else s.Owned x := by
  unfold Owned OwnedBesides
  rw [h]
  simp only [Table.mem_upsert]
  by_cases hx : x = e.objectId
  · subst hx
    rw [if_pos rfl]
    refine ⟨fun h => ?_, fun h => ?_⟩
    · obtain ⟨d, rfl | ⟨hd, hne⟩, ho, hr⟩ := h
      · exact Or.inl hr
      · refine Or.inr ⟨d, hd, ho, hr, ?_⟩
        intro hm
        refine hne ?_
        rw [MemberEdge.key, MemberEdge.key, ho, hm]
    · rcases h with hr | ⟨d, hd, ho, hr, hm⟩
      · exact ⟨e, Or.inl rfl, rfl, hr⟩
      · refine ⟨d, Or.inr ⟨hd, ?_⟩, ho, hr⟩
        intro hkey
        exact hm (congrArg Prod.snd hkey)
  · rw [if_neg hx]
    refine ⟨fun h => ?_, fun h => ?_⟩
    · obtain ⟨d, rfl | ⟨hd, -⟩, ho, hr⟩ := h
      · exact absurd ho.symm hx
      · exact ⟨d, hd, ho, hr⟩
    · obtain ⟨d, hd, ho, hr⟩ := h
      refine ⟨d, Or.inr ⟨hd, ?_⟩, ho, hr⟩
      intro hkey
      exact hx (ho.symm.trans (congrArg Prod.fst hkey))

end Store

/-! ### Deleting an owner -/

/-- Deleting an entity leaves the owners of another object besides the entity itself. -/
theorem owned_cascadeDelete {s : Store} {x o : String} (hne : o ≠ x) :
    (cascadeDelete s x).Owned o ↔ s.OwnedBesides o x := by
  have hmem : ∀ e, e ∈ (cascadeDelete s x).memberships ↔
      e ∈ s.memberships ∧ e.objectId ≠ x ∧ e.memberId ≠ x := by
    intro e
    show e ∈ s.memberships.filter _ ↔ _
    rw [Table.mem_filter]
    simp
  unfold Store.Owned Store.OwnedBesides
  simp only [hmem]
  refine ⟨fun h => ?_, fun h => ?_⟩
  · obtain ⟨e, ⟨he, -, hm⟩, ho, hr⟩ := h
    exact ⟨e, he, ho, hr, hm⟩
  · obtain ⟨e, he, ho, hr, hm⟩ := h
    exact ⟨e, ⟨he, ho ▸ hne, hm⟩, ho, hr⟩

/--
**A delete leaves every other owned object owned exactly when every other object
the deleted entity owns has another owner.**
-/
theorem delete_keeps_owners_iff (st : AppState) (ctx : RequestCtx) (caller : Caller)
    (typeId x : String) (headers : HeaderMap) (s s' : Store) (resp : Response)
    (h : exec (itemDelete st ctx caller typeId x headers) s = (.ok resp, s')) :
    (∀ o, o ≠ x → s.Owned o → s'.Owned o) ↔
      ∀ o, o ≠ x → s.currentRole o x = some "owner" → s.OwnedBesides o x := by
  obtain ⟨evs, rfl⟩ := itemDelete_ok h
  have hafter : ∀ o, o ≠ x →
      (Store.Owned { cascadeDelete s x with events := evs } o ↔ s.OwnedBesides o x) :=
    fun o hne => owned_cascadeDelete hne
  refine ⟨fun hkeep => ?_, fun hother => ?_⟩
  · intro o hne hrole
    exact (hafter o hne).mp (hkeep o hne ((Store.owned_iff x).mpr (Or.inr hrole)))
  · intro o hne howned
    refine (hafter o hne).mpr ?_
    rcases (Store.owned_iff x).mp howned with hbesides | hrole
    · exact hbesides
    · exact hother o hne hrole

/-- Two actors and a project, with the given memberships. -/
def rosterStore (memberships : Table MemberEdge.key) : Store where
  typeDefinitions := ⟨[plainType "actor" "USR", plainType "project" "PRJ"], by decide⟩
  entities := ⟨[⟨"USR_alice", "actor", none⟩, ⟨"USR_bob", "actor", none⟩,
    ⟨"PRJ_1", "project", none⟩], by decide⟩
  entityData := ⟨[{ entityId := "USR_bob", typeId := "actor", data := .obj [] },
    { entityId := "PRJ_1", typeId := "project", data := .obj [] }], by decide⟩
  memberships := memberships
  roles := seededRoles

def rosterState : AppState :=
  ⟨⟨[plainType "actor" "USR", plainType "project" "PRJ"], by decide⟩, ∅⟩

/-- Bob owns the project and is himself owned by Alice. -/
def bobOwns : Table MemberEdge.key :=
  ⟨[⟨"USR_bob", "USR_alice", "owner", ""⟩, ⟨"PRJ_1", "USR_bob", "owner", ""⟩], by decide⟩

/-- Alice owns the project as well. -/
def bothOwn : Table MemberEdge.key :=
  ⟨[⟨"USR_bob", "USR_alice", "owner", ""⟩, ⟨"PRJ_1", "USR_bob", "owner", ""⟩,
    ⟨"PRJ_1", "USR_alice", "owner", ""⟩], by decide⟩

/-- Deleting the only owner of a project leaves the project without one. -/
theorem deleting_bob_orphans_project :
    (rosterStore bobOwns).Owned "PRJ_1" ∧
      ∃ resp s', exec (itemDelete rosterState plainCtx alice "actor" "USR_bob" versionOne)
          (rosterStore bobOwns) = (.ok resp, s') ∧ ¬ s'.Owned "PRJ_1" := by
  refine ⟨by decide, _, _, rfl, ?_⟩
  decide

/-- With a second owner of the project the same delete is harmless. -/
theorem deleting_bob_keeps_shared_project :
    ∃ resp s', exec (itemDelete rosterState plainCtx alice "actor" "USR_bob" versionOne)
        (rosterStore bothOwn) = (.ok resp, s') ∧
      ∀ o, o ≠ "USR_bob" → (rosterStore bothOwn).Owned o → s'.Owned o := by
  refine ⟨_, _, rfl, ?_⟩
  refine (delete_keeps_owners_iff rosterState plainCtx alice "actor" "USR_bob" versionOne
    (rosterStore bothOwn) _ _ rfl).mpr ?_
  intro o _ hrole
  obtain ⟨e, he, rfl, hm, hr⟩ := Store.currentRole_eq_some.mp hrole
  refine ⟨⟨"PRJ_1", "USR_alice", "owner", ""⟩, by decide, ?_, rfl, by decide⟩
  have hrows : ∀ e ∈ (rosterStore bothOwn).memberships, e.memberId = "USR_bob" →
      "PRJ_1" = e.objectId := by decide
  exact hrows e he hm

/-! ### The roster requests -/

/-- A request that changes or revokes a role, and is guarded. -/
inductive RosterChange where
  | set (ctx : RequestCtx) (caller : Caller) (typeId id memberId : String) (headers : HeaderMap)
      (body : Body)
  | remove (ctx : RequestCtx) (caller : Caller) (typeId id memberId : String)

namespace RosterChange

def handle : RosterChange → Handler Response
  | .set ctx caller typeId id memberId headers body =>
    setMember ctx caller typeId id memberId headers body
  | .remove ctx caller typeId id memberId => removeMember ctx caller typeId id memberId

def object : RosterChange → String
  | .set _ _ _ id _ _ _ => id
  | .remove _ _ _ id _ => id

def member : RosterChange → String
  | .set _ _ _ _ memberId _ _ => memberId
  | .remove _ _ _ _ memberId => memberId

/-- The role the request asks for; a removal asks for none. -/
def newRole : RosterChange → Option String
  | .set _ _ _ _ _ headers body =>
    match readJson headers body false with
    | .ok v => v.str? "role"
    | .error _ => none
  | .remove _ _ _ _ _ => none

/-- The last-owner guard: an owner loses the role only where there are two owners. -/
def Guard (c : RosterChange) (s : Store) : Prop :=
  s.currentRole c.object c.member = some "owner" → c.newRole ≠ some "owner" →
    1 < s.ownerCount c.object

instance (c : RosterChange) (s : Store) : Decidable (c.Guard s) :=
  inferInstanceAs (Decidable (s.currentRole c.object c.member = some "owner" →
    c.newRole ≠ some "owner" → 1 < s.ownerCount c.object))

/-- What the request does to the memberships when it writes them. -/
def Moves (c : RosterChange) (s t : Store) : Prop :=
  t.memberships = s.memberships.filter (fun e => e.key ≠ (c.object, c.member)) ∧
      c.newRole = none ∨
    ∃ e : MemberEdge, e.objectId = c.object ∧ e.memberId = c.member ∧
      c.newRole = some e.role ∧ t.memberships = s.memberships.upsert e

/-- After the write the object is owned by the member as asked, or by somebody else. -/
theorem Moves.owned {c : RosterChange} {s t : Store} (h : c.Moves s t) (x : String) :
    t.Owned x ↔ if x = c.object then c.newRole = some "owner" ∨ s.OwnedBesides x c.member
      else s.Owned x := by
  rcases h with ⟨hdel, hrole⟩ | ⟨e, ho, hm, hrole, hwrite⟩
  · rw [Store.owned_deleted hdel, hrole]
    simp
  · rw [Store.owned_written hwrite, hrole, ho, hm, Option.some.injEq]

/-- **One guarded change keeps an owned object owned.** -/
theorem Moves.keeps {c : RosterChange} {s t : Store} (h : c.Moves s t) (hguard : c.Guard s)
    {x : String} (hx : s.Owned x) : t.Owned x := by
  rw [h.owned]
  by_cases ho : x = c.object
  · rw [if_pos ho]
    by_cases hrole : c.newRole = some "owner"
    · exact Or.inl hrole
    · refine Or.inr ?_
      rcases (Store.owned_iff c.member).mp hx with hbesides | hcur
      · exact hbesides
      · rw [ho] at hcur ⊢
        exact (Store.one_lt_ownerCount hcur).mp (hguard hcur hrole)
  · rw [if_neg ho]
    exact hx

/-- A change that leaves the object owned would have passed the guard. -/
theorem Moves.guard {c : RosterChange} {s t : Store} (h : c.Moves s t)
    (hx : t.Owned c.object) : c.Guard s := by
  intro hcur hrole
  rw [h.owned, if_pos rfl] at hx
  rcases hx with howner | hbesides
  · exact absurd howner hrole
  · exact (Store.one_lt_ownerCount hcur).mpr hbesides

end RosterChange

theorem readOnly_ensureObject {id typeId : String} {ctx : RequestCtx} :
    ReadOnly (ensureObject id typeId ctx) :=
  readOnly_bind (readOnly_query _) fun _ => readOnly_ensure _ _

theorem readOnly_requireRank {caller : Caller} {id : String} {minRank : I32} {ctx : RequestCtx} :
    ReadOnly (requireRank caller id minRank ctx) := by
  unfold requireRank
  refine readOnly_ite (readOnly_pure _) (readOnly_bind (readOnly_query _) fun rank => ?_)
  cases rank with
  | none => exact readOnly_throw _
  | some r => exact readOnly_ite (readOnly_throw _) (readOnly_pure _)

theorem readOnly_requireGrantable {role : String} {rank : I32} {ctx : RequestCtx} :
    ReadOnly (requireGrantable role rank ctx) :=
  readOnly_bind (readOnly_query _) fun _ => readOnly_bind (readOnly_getOr _ _) fun _ =>
    readOnly_ensure _ _

theorem readOnly_requireAnotherOwner {id detail : String} {ctx : RequestCtx} :
    ReadOnly (requireAnotherOwner id detail ctx) :=
  readOnly_bind (readOnly_query _) fun _ => readOnly_ensure _ _

theorem requireAnotherOwner_ok {id detail : String} {ctx : RequestCtx} {s s' : Store} {u : Unit}
    (h : exec (requireAnotherOwner id detail ctx) s = (.ok u, s')) : 1 < s.ownerCount id := by
  obtain ⟨owners, t, howners, hensure⟩ := exec_bind_ok.mp h
  simp only [exec_query, Prod.mk.injEq, Except.ok.injEq] at howners
  obtain ⟨rfl, rfl⟩ := howners
  simpa using (exec_ensure_ok.mp hensure).1

theorem strField_ok {v : Json} {key a : String} {ctx : RequestCtx}
    (h : strField v key ctx = .ok a) : v.str? key = some a := by
  unfold strField at h
  cases hstr : v.str? key with
  | none => simp [hstr] at h
  | some b =>
      simp only [hstr, Except.ok.injEq] at h
      rw [h]

/-- The role of a grant is registered and not above the caller's rank. -/
theorem requireGrantable_ok {role : String} {rank : I32} {ctx : RequestCtx} {s s' : Store}
    {u : Unit} (h : exec (requireGrantable role rank ctx) s = (.ok u, s')) :
    ∃ r, s.rankOf role = some r ∧ r ≤ rank := by
  obtain ⟨found, t, hfound, hrest⟩ := exec_bind_ok.mp h
  simp only [exec_query, Prod.mk.injEq, Except.ok.injEq] at hfound
  obtain ⟨rfl, rfl⟩ := hfound
  obtain ⟨r, t', hrank, hensure⟩ := exec_bind_ok.mp hrest
  obtain ⟨hrank', rfl⟩ := exec_getOr_ok.mp hrank
  exact ⟨r, hrank', by simpa using (exec_ensure_ok.mp hensure).1⟩

/-- A role change fails and changes nothing, or writes the row it found, past the guard. -/
theorem setMember_next {ctx : RequestCtx} {caller : Caller} {typeId id m : String}
    {headers : HeaderMap} {body : Body} {s s' : Store} {r : Except AppError Response}
    (h : exec (setMember ctx caller typeId id m headers body) s = (r, s')) :
    ((∃ e, r = .error e) ∧ s' = s) ∨
      ∃ v current evs, ∃ e : MemberEdge, readJson headers body false = .ok v ∧
        v.str? "role" = some e.role ∧ (∃ r, s.rankOf e.role = some r) ∧
        s.currentRole id m = some current ∧
        (current = "owner" → e.role ≠ "owner" → 1 < s.ownerCount id) ∧
        e.objectId = id ∧ e.memberId = m ∧ s.memberships.has e.key = true ∧
        s' = { s with memberships := s.memberships.upsert e, events := evs } := by
  unfold setMember at h
  rcases exec_readOnly_next readOnly_ensureObject h with hfail | ⟨_, -, h₁⟩
  · exact Or.inl hfail
  rcases exec_readOnly_next readOnly_requireRank h₁ with hfail | ⟨callerRank, -, h₂⟩
  · exact Or.inl hfail
  rcases exec_readOnly_next (readOnly_check _) h₂ with hfail | ⟨v, hv, h₃⟩
  · exact Or.inl hfail
  rcases exec_readOnly_next (readOnly_check _) h₃ with hfail | ⟨role, hrole, h₄⟩
  · exact Or.inl hfail
  rcases exec_readOnly_next readOnly_requireGrantable h₄ with hfail | ⟨_, hgrantable, h₅⟩
  · exact Or.inl hfail
  rcases exec_readOnly_next (readOnly_query _) h₅ with hfail | ⟨found, hfound, h₆⟩
  · exact Or.inl hfail
  rcases exec_readOnly_next (readOnly_getOr _ _) h₆ with hfail | ⟨current, hcurrent, h₇⟩
  · exact Or.inl hfail
  rcases exec_readOnly_next (readOnly_onlyIf readOnly_requireAnotherOwner) h₇ with
    hfail | ⟨_, hguard, h₈⟩
  · exact Or.inl hfail
  rcases exec_writeTail h₈ with hfail | ⟨t, evs, hwrite, -, hs'⟩
  · exact Or.inl hfail
  simp only [exec_check, exec_query, Prod.mk.injEq, Except.ok.injEq, and_true]
    at hv hrole hfound
  obtain ⟨hfound', -⟩ := exec_getOr_ok.mp hcurrent
  have hcur : s.currentRole id m = some current := hfound.trans hfound'
  obtain ⟨rank, hrank, -⟩ := requireGrantable_ok hgrantable
  have hcount : current = "owner" → role ≠ "owner" → 1 < s.ownerCount id := by
    intro howner hne
    rcases exec_onlyIf_ok.mp hguard with ⟨-, hcount⟩ | ⟨hnot, -⟩
    · exact requireAnotherOwner_ok hcount
    · exact absurd ⟨howner, hne⟩ hnot
  rcases updateMembership_ok hwrite with ⟨hnone, -⟩ | ⟨e, ho, hm, rfl, hhas, rfl⟩
  · unfold Store.currentRole at hcur
    rw [hnone] at hcur
    simp at hcur
  · exact Or.inr ⟨v, current, evs, e, hv, strField_ok hrole, ⟨rank, hrank⟩, hcur, hcount, ho, hm,
      hhas, hs'⟩

/-- A removal fails and changes nothing, or deletes the row it found, past the guard. -/
theorem removeMember_next {ctx : RequestCtx} {caller : Caller} {typeId id m : String}
    {s s' : Store} {r : Except AppError Response}
    (h : exec (removeMember ctx caller typeId id m) s = (r, s')) :
    ((∃ e, r = .error e) ∧ s' = s) ∨
      ∃ current evs, s.currentRole id m = some current ∧
        (current = "owner" → 1 < s.ownerCount id) ∧
        s' = { s with memberships := s.memberships.filter (fun e => e.key ≠ (id, m)),
                      events := evs } := by
  unfold removeMember at h
  rcases exec_readOnly_next readOnly_ensureObject h with hfail | ⟨_, -, h₁⟩
  · exact Or.inl hfail
  rcases exec_readOnly_next (readOnly_query _) h₁ with hfail | ⟨found, hfound, h₂⟩
  · exact Or.inl hfail
  rcases exec_readOnly_next (readOnly_getOr _ _) h₂ with hfail | ⟨current, hcurrent, h₃⟩
  · exact Or.inl hfail
  have hmanage : ReadOnly (onlyIf (m ≠ caller.actorId) do
      let _ ← requireRank caller id manageRank ctx
      pure () : Handler Unit) :=
    readOnly_onlyIf (readOnly_bind readOnly_requireRank fun _ => readOnly_pure _)
  rcases exec_readOnly_next hmanage h₃ with hfail | ⟨_, -, h₄⟩
  · exact Or.inl hfail
  rcases exec_readOnly_next (readOnly_onlyIf readOnly_requireAnotherOwner) h₄ with
    hfail | ⟨_, hguard, h₅⟩
  · exact Or.inl hfail
  rcases exec_writeTail h₅ with hfail | ⟨t, evs, hwrite, -, hs'⟩
  · exact Or.inl hfail
  simp only [deleteMembership, Except.ok.injEq, Prod.mk.injEq, true_and] at hwrite
  simp only [exec_query, Prod.mk.injEq, Except.ok.injEq, and_true] at hfound
  obtain ⟨hfound', -⟩ := exec_getOr_ok.mp hcurrent
  refine Or.inr ⟨current, evs, hfound.trans hfound', ?_, ?_⟩
  · intro howner
    rcases exec_onlyIf_ok.mp hguard with ⟨-, hcount⟩ | ⟨hnot, -⟩
    · exact requireAnotherOwner_ok hcount
    · exact absurd howner hnot
  · rw [hs', ← hwrite]

/-- Everything a grant is checked for before it writes. -/
structure GrantChecked (ctx : RequestCtx) (caller : Caller) (typeId id : String)
    (headers : HeaderMap) (body : Body) (s : Store) (v : Json) (m role : String) (rank : I32) :
    Prop where
  found : exec (ensureObject id typeId ctx) s = (.ok (), s)
  managed : exec (requireRank caller id manageRank ctx) s = (.ok rank, s)
  parsed : readJson headers body false = .ok v
  named : v.str? "member_id" = some m
  asked : v.str? "role" = some role
  grantable : exec (requireGrantable role rank ctx) s = (.ok (), s)
  acyclic : s.principalsContain id m = false

section Grant

variable {ctx : RequestCtx} {caller : Caller} {typeId id : String} {headers : HeaderMap}
  {body : Body} {s s' : Store} {r : Except AppError Response}

theorem strField_of_some {v : Json} {key a : String} (h : v.str? key = some a) :
    strField v key ctx = .ok a := by
  unfold strField
  rw [h]

/-- A grant that passed its checks is one write and an event. -/
theorem GrantChecked.exec_eq {v : Json} {m role : String} {rank : I32}
    (h : GrantChecked ctx caller typeId id headers body s v m role rank) :
    exec (addMember ctx caller typeId id headers body) s =
      exec (do
        execute (upsertMembership id m role (some ((v.str? "context_role").getD "")))
        recordEvent ctx caller.actorId (some id) (typeId ++ ".member_granted")
          (.mkObj [("member_id", .str m), ("role", .str role)])
        pure { status := 201, body := some (.mkObj [("member_id", .str m), ("role", .str role),
          ("context_role", .str ((v.str? "context_role").getD ""))]) }) s := by
  simp only [addMember, exec_bind, h.found, h.managed, exec_check, h.parsed,
    strField_of_some h.named, strField_of_some h.asked, h.grantable, exec_query, h.acyclic,
    ensure, Bool.not_false, if_true, exec_pure]

/-- A grant fails its checks and changes nothing, or passes them all. -/
theorem addMember_checked (ctx : RequestCtx) (caller : Caller) (typeId id : String)
    (headers : HeaderMap) (body : Body) (s : Store) :
    (∃ e, exec (addMember ctx caller typeId id headers body) s = (.error e, s)) ∨
      ∃ v m role rank, GrantChecked ctx caller typeId id headers body s v m role rank := by
  simp only [addMember]
  rcases exec_readOnly_bind readOnly_ensureObject s with hfail | ⟨_, hfound, h₁⟩
  · exact Or.inl hfail
  rw [h₁]
  rcases exec_readOnly_bind readOnly_requireRank s with hfail | ⟨rank, hmanaged, h₂⟩
  · exact Or.inl hfail
  rw [h₂]
  rcases exec_readOnly_bind (readOnly_check _) s with hfail | ⟨v, hv, h₃⟩
  · exact Or.inl hfail
  rw [h₃]
  rcases exec_readOnly_bind (readOnly_check _) s with hfail | ⟨m, hm, h₄⟩
  · exact Or.inl hfail
  rw [h₄]
  rcases exec_readOnly_bind (readOnly_check _) s with hfail | ⟨role, hrole, h₅⟩
  · exact Or.inl hfail
  rw [h₅]
  rcases exec_readOnly_bind readOnly_requireGrantable s with hfail | ⟨_, hgrantable, h₆⟩
  · exact Or.inl hfail
  rw [h₆]
  rcases exec_readOnly_bind (readOnly_query _) s with hfail | ⟨cycle, hcycle, h₇⟩
  · exact Or.inl hfail
  rw [h₇]
  rcases exec_readOnly_bind (readOnly_ensure _ _) s with hfail | ⟨_, hensure, -⟩
  · exact Or.inl hfail
  simp only [exec_check, exec_query, Prod.mk.injEq, Except.ok.injEq, and_true]
    at hv hm hrole hcycle
  have hcycle' : cycle = false := by simpa using (exec_ensure_ok.mp hensure).1
  exact Or.inr ⟨v, m, role, rank, hfound, hmanaged, hv, strField_ok hm, strField_ok hrole,
    hgrantable, hcycle.trans hcycle'⟩

/-- A grant fails and changes nothing, or writes the row it was checked for. -/
theorem addMember_next (h : exec (addMember ctx caller typeId id headers body) s = (r, s')) :
    ((∃ e, r = .error e) ∧ s' = s) ∨
      ∃ v rank evs, ∃ e : MemberEdge,
        GrantChecked ctx caller typeId id headers body s v e.memberId e.role rank ∧
          e.objectId = id ∧ memberEdgeOk s e = true ∧
          s' = { s with memberships := s.memberships.upsert e, events := evs } := by
  rcases addMember_checked ctx caller typeId id headers body s with
    ⟨e, hfail⟩ | ⟨v, m, role, rank, hchecked⟩
  · rw [hfail] at h
    exact Or.inl ⟨⟨e, (congrArg Prod.fst h).symm⟩, (congrArg Prod.snd h).symm⟩
  · rw [hchecked.exec_eq] at h
    rcases exec_writeTail h with hfail | ⟨t, evs, hwrite, -, hs'⟩
    · exact Or.inl hfail
    · obtain ⟨e, ho, rfl, rfl, hok, rfl⟩ := upsertMembership_ok hwrite
      exact Or.inr ⟨v, rank, evs, e, hchecked, ho, hok, hs'⟩

end Grant

/-! ### Requests one at a time -/

/-- Any request on a roster. -/
inductive RosterRequest where
  | add (ctx : RequestCtx) (caller : Caller) (typeId id : String) (headers : HeaderMap)
      (body : Body)
  | change (c : RosterChange)

namespace RosterRequest

def handle : RosterRequest → Handler Response
  | .add ctx caller typeId id headers body => addMember ctx caller typeId id headers body
  | .change c => c.handle

/-- The state after the requests, one at a time. -/
def runAll (reqs : List RosterRequest) (s : Store) : Store :=
  reqs.foldl (fun t req => (exec req.handle t).2) s

end RosterRequest

/-- A body that names no field. -/
def emptyBody : Body := .ok ⟨.obj [], by decide⟩

/-- A grant of a role, as a body. -/
def grantBody (m role : String) : Body :=
  .ok ⟨.obj [("member_id", .str m), ("role", .str role)], by simp [JsonMap.keys]⟩

theorem setMember_writes {R : Store → Store → Prop} {ctx : RequestCtx} {caller : Caller}
    {typeId id m : String} {headers : HeaderMap} {body : Body}
    (hsame : ∀ s, R s s)
    (haudit : ∀ entityId kind payload,
      Writes R (recordEvent ctx caller.actorId entityId kind payload))
    (hwrite : ∀ v role contextRole s u t, readJson headers body false = .ok v →
      v.str? "role" = some role → updateMembership id m role contextRole s = .ok (u, t) → R s t) :
    Writes R (setMember ctx caller typeId id m headers body) := by
  simp only [setMember]
  refine writes_bind readOnly_ensureObject.writes fun _ => ?_
  refine writes_bind readOnly_requireRank.writes fun _ => ?_
  refine writes_check_bind fun v hv => writes_check_bind fun role hrole => ?_
  refine writes_bind readOnly_requireGrantable.writes fun _ => ?_
  refine writes_bind (readOnly_query _).writes fun _ => ?_
  refine writes_bind (readOnly_getOr _ _).writes fun _ => ?_
  refine writes_bind (readOnly_onlyIf readOnly_requireAnotherOwner).writes fun _ => ?_
  refine writes_bind (writes_execute hsame ?_) fun _ => ?_
  · intro s u t h
    exact hwrite v role _ s u t hv (strField_ok hrole) h
  · exact writes_bind (haudit _ _ _) fun _ => (readOnly_pure _).writes

theorem removeMember_writes {R : Store → Store → Prop} {ctx : RequestCtx} {caller : Caller}
    {typeId id m : String} (hsame : ∀ s, R s s)
    (haudit : ∀ entityId kind payload,
      Writes R (recordEvent ctx caller.actorId entityId kind payload))
    (hwrite : ∀ s u t, deleteMembership id m s = .ok (u, t) → R s t) :
    Writes R (removeMember ctx caller typeId id m) := by
  unfold removeMember
  refine writes_bind readOnly_ensureObject.writes fun _ => ?_
  refine writes_bind (readOnly_query _).writes fun _ => ?_
  refine writes_bind (readOnly_getOr _ _).writes fun _ => ?_
  refine writes_bind (readOnly_onlyIf
    (readOnly_bind readOnly_requireRank fun _ => readOnly_pure _)).writes fun _ => ?_
  refine writes_bind (readOnly_onlyIf readOnly_requireAnotherOwner).writes fun _ => ?_
  refine writes_bind (writes_execute hsame hwrite) fun _ => ?_
  exact writes_bind (haudit _ _ _) fun _ => (readOnly_pure _).writes

theorem addMember_writes {R : Store → Store → Prop} {ctx : RequestCtx} {caller : Caller}
    {typeId id : String} {headers : HeaderMap} {body : Body}
    (hsame : ∀ s, R s s)
    (haudit : ∀ entityId kind payload,
      Writes R (recordEvent ctx caller.actorId entityId kind payload))
    (hwrite : ∀ m role contextRole s u t,
      upsertMembership id m role contextRole s = .ok (u, t) → R s t) :
    Writes R (addMember ctx caller typeId id headers body) := by
  simp only [addMember]
  refine writes_bind readOnly_ensureObject.writes fun _ => ?_
  refine writes_bind readOnly_requireRank.writes fun _ => ?_
  refine writes_bind (readOnly_check _).writes fun v => ?_
  refine writes_bind (readOnly_check _).writes fun memberId => ?_
  refine writes_bind (readOnly_check _).writes fun role => ?_
  refine writes_bind readOnly_requireGrantable.writes fun _ => ?_
  refine writes_bind (readOnly_query _).writes fun _ => ?_
  refine writes_bind (readOnly_ensure _ _).writes fun _ => ?_
  refine writes_bind (writes_execute hsame (hwrite _ _ _)) fun _ => ?_
  exact writes_bind (haudit _ _ _) fun _ => (readOnly_pure _).writes

/-- A request on a roster writes memberships and events. -/
theorem RosterRequest.writes {R : Store → Store → Prop}
    (hevents : ∀ s evs, R s { s with events := evs })
    (hedges : ∀ s rows, R s { s with memberships := rows }) (r : RosterRequest) :
    Writes R r.handle := by
  have hsame : ∀ s, R s s := fun s => hevents s s.events
  cases r with
  | add ctx caller typeId id headers body =>
      refine addMember_writes hsame (writes_recordEvent hevents _ _) fun m role contextRole s u t h => ?_
      obtain ⟨e, -, -, -, -, rfl⟩ := upsertMembership_ok h
      exact hedges s _
  | change c =>
      cases c with
      | set ctx caller typeId id m headers body =>
          refine setMember_writes hsame (writes_recordEvent hevents _ _) fun v role contextRole s u t _ _ h => ?_
          rcases updateMembership_ok h with ⟨-, rfl⟩ | ⟨e, -, -, -, -, rfl⟩
          · exact hedges t t.memberships
          · exact hedges s _
      | remove ctx caller typeId id m =>
          refine removeMember_writes hsame (writes_recordEvent hevents _ _) fun s u t h => ?_
          simp only [deleteMembership, Except.ok.injEq, Prod.mk.injEq] at h
          rw [← h.2]
          exact hedges s _

/-- Whatever it read before, a change writes the memberships as it asked or not at all. -/
theorem RosterChange.writes (c : RosterChange) :
    Writes (fun s t => t.memberships = s.memberships ∨ c.Moves s t) c.handle := by
  have hevents : ∀ s evs, { s with events := evs }.memberships = s.memberships ∨
      c.Moves s { s with events := evs } := fun s evs => Or.inl rfl
  cases c with
  | set ctx caller typeId id m headers body =>
      refine setMember_writes (fun s => Or.inl rfl) (writes_recordEvent hevents _ _) ?_
      intro v role contextRole s u t hv hrole h
      rcases updateMembership_ok h with ⟨-, rfl⟩ | ⟨e, ho, hm, her, -, rfl⟩
      · exact Or.inl rfl
      · refine Or.inr (Or.inr ⟨e, ho, hm, ?_, rfl⟩)
        simp only [RosterChange.newRole, hv, hrole, her]
  | remove ctx caller typeId id m =>
      refine removeMember_writes (fun s => Or.inl rfl) (writes_recordEvent hevents _ _) ?_
      intro s u t h
      simp only [deleteMembership, Except.ok.injEq, Prod.mk.injEq] at h
      exact Or.inr (Or.inl ⟨by rw [← h.2]; rfl, rfl⟩)

/-- Every write of a membership of `o` found the guard of its own request still passing. -/
def GuardsCurrent (reqs : Nat → RosterChange) (o : String) (log : List (Commit Store)) : Prop :=
  ∀ c ∈ log, (reqs c.who).object = o → c.after.memberships ≠ c.before.memberships →
    (reqs c.who).Guard c.before

instance (reqs : Nat → RosterChange) (o : String) (log : List (Commit Store)) :
    Decidable (GuardsCurrent reqs o log) :=
  inferInstanceAs (Decidable (∀ c ∈ log, _))

/--
**In any interleaving of role changes and removals an owned object is owned at
every moment exactly when every write found its own guard still passing.**
-/
theorem owned_throughout_iff (reqs : Nat → RosterChange) (o : String) (s : Store)
    (ho : s.Owned o) (p : Pool Store (Except AppError Response))
    (hrun : Pool.Run (fun n => (reqs n).handle.run) (fun _ _ => True) (Pool.start s) p) :
    (∀ t, p.world.Visited t → t.Owned o) ↔ GuardsCurrent reqs o p.world.log := by
  have hmoves := hrun.log_writes fun n => (reqs n).writes
  refine ⟨fun howned => ?_, fun hguards => ?_⟩
  · intro c hc hobj hchange
    have hafter : c.after.Owned o := howned _ (hrun.from.visited_after c hc)
    rcases hmoves c hc with hsame | hmove
    · exact absurd hsame hchange
    · exact hmove.guard (hobj ▸ hafter)
  · refine hrun.from.visited ho ?_
    intro c hc hbefore
    by_cases hchange : c.after.memberships = c.before.memberships
    · exact (Store.owned_congr hchange).mpr hbefore
    rcases hmoves c hc with hsame | hmove
    · exact absurd hsame hchange
    by_cases hobj : (reqs c.who).object = o
    · exact hmove.keeps (hguards c hc hobj hchange) hbefore
    · rw [hmove.owned, if_neg (fun hc => hobj hc.symm)]
      exact hbefore

/-- The first request has Alice leave the project, every other one Bob. -/
def leaving : Nat → RosterChange
  | 0 => .remove plainCtx alice "project" "PRJ_1" "USR_alice"
  | _ + 1 => .remove plainCtx ⟨"USR_bob", false⟩ "project" "PRJ_1" "USR_bob"

/-- Alice counts two owners, Bob counts two owners and leaves, Alice leaves. -/
def leaveTogether : List Pool.Move :=
  [.spawn, .spawn, .advance 0, .advance 0, .advance 0, .advance 1, .advance 1, .advance 1,
    .advance 1, .advance 1, .advance 0, .advance 0]

/-- Both owners leave, each having counted the other, and nobody is left. -/
theorem both_owners_leave :
    (rosterStore bothOwn).Owned "PRJ_1" ∧
      ∃ p, Pool.Run (fun n => (leaving n).handle.run) (fun _ _ => True)
          (Pool.start (rosterStore bothOwn)) p ∧
        p.Finished 0 (.ok { status := 204 }) ∧ p.Finished 1 (.ok { status := 204 }) ∧ p.Quiet ∧
        ¬ p.world.now.Owned "PRJ_1" := by
  refine ⟨by decide, _, Pool.play_run _ leaveTogether _, rfl, rfl, ?_, by decide⟩
  intro c hc
  have hthreads : (Pool.play (fun n => (leaving n).handle.run)
      (Pool.start (rosterStore bothOwn)) leaveTogether).threads =
        [.done (.ok { status := 204 }), .done (.ok { status := 204 })] := rfl
  rw [hthreads] at hc
  simp only [List.mem_cons, List.not_mem_nil, or_false, or_self] at hc
  exact ⟨_, hc⟩

/-- One after the other, the second of them is refused and the project stays owned. -/
theorem second_owner_stays :
    ∃ p, Pool.Run (fun n => (leaving n).handle.run) (fun _ _ => True)
        (Pool.start (rosterStore bothOwn)) p ∧
      p.Finished 0 (.ok { status := 204 }) ∧
      p.Finished 1 (.error ((AppError.conflict "cannot remove the last owner").withRequestId "req")) ∧
      ∀ t, p.world.Visited t → t.Owned "PRJ_1" := by
  refine ⟨_, Pool.play_run _ [.spawn, .spawn, .advance 0, .advance 0, .advance 0, .advance 0,
    .advance 0, .advance 1, .advance 1, .advance 1] _, rfl, rfl, ?_⟩
  refine (owned_throughout_iff leaving "PRJ_1" (rosterStore bothOwn) (by decide) _
    (Pool.play_run _ _ _)).mpr ?_
  decide

end Numu
