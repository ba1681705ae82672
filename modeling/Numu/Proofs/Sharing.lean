/-
What a grant confers: the reach of everybody else, and the nesting of teams.

A membership row is an edge twice over.  On its object it anchors a rank, which
cascades to everything scoped below.  On a team it is also an edge of the graph of
principals: whoever is, or contains, the member takes over what the team reaches.
The guard of a grant compares one number, the rank of the role with the rank of
the caller on the object, and asks one question of the graph, whether the team
already leads to the member.

The question is the right one, and teams never nest in a circle.  The number is
not: what a grant confers is settled here by the two conditions under which nobody
ends up above both what they had and what the caller has.
-/
import Numu.Lib.Edges
import Numu.Proofs.Roster

namespace Numu

open Fallible Handler

namespace Store

/-! ### One more edge -/

section Written

variable {s t : Store} {e : MemberEdge}

/-- A written row adds the edge from its member to its object, when that is a team. -/
theorem teamEdge_written (hm : t.memberships = s.memberships.upsert e)
    (ht : t.entities = s.entities) {a b : String} :
    t.TeamEdge a b ↔ s.TeamEdge a b ∨
      (s.typeOf e.objectId = some "team" ∧ a = e.memberId ∧ b = e.objectId) := by
  have htype : ∀ x, t.typeOf x = s.typeOf x := by
    intro x
    unfold typeOf
    rw [ht]
  unfold TeamEdge
  rw [hm, htype]
  simp only [Table.mem_upsert]
  refine ⟨fun h => ?_, fun h => ?_⟩
  · obtain ⟨d, rfl | ⟨hd, -⟩, hda, hdb, hteam⟩ := h
    · exact Or.inr ⟨hdb ▸ hteam, hda.symm, hdb.symm⟩
    · exact Or.inl ⟨d, hd, hda, hdb, hteam⟩
  · rcases h with ⟨d, hd, hda, hdb, hteam⟩ | ⟨hteam, rfl, rfl⟩
    · by_cases hkey : d.key = e.key
      · simp only [MemberEdge.key, Prod.mk.injEq] at hkey
        exact ⟨e, Or.inl rfl, hkey.2.symm.trans hda, hkey.1.symm.trans hdb, hteam⟩
      · exact ⟨d, Or.inr ⟨hd, hkey⟩, hda, hdb, hteam⟩
    · exact ⟨e, Or.inl rfl, rfl, rfl, hteam⟩

/-- What a principal is after the write: what it was, or what the team is to a member's principal. -/
theorem principal_written (hm : t.memberships = s.memberships.upsert e)
    (ht : t.entities = s.entities) {a p : String} :
    t.Principal a p ↔ s.Principal a p ∨
      (s.typeOf e.objectId = some "team" ∧ s.Principal a e.memberId ∧
        s.Principal e.objectId p) := by
  unfold Principal
  by_cases hteam : s.typeOf e.objectId = some "team"
  · have hgraph : t.TeamEdge = Edges.With s.TeamEdge e.memberId e.objectId := by
      funext x y
      rw [teamEdge_written hm ht]
      simp [Edges.With, hteam]
    rw [hgraph, Edges.reflTransGen_with]
    simp [hteam]
  · have hgraph : t.TeamEdge = s.TeamEdge := by
      funext x y
      rw [teamEdge_written hm ht]
      simp [hteam]
    rw [hgraph]
    simp [hteam]

theorem Principal.written (hm : t.memberships = s.memberships.upsert e)
    (ht : t.entities = s.entities) {a p : String} (h : s.Principal a p) : t.Principal a p :=
  (principal_written hm ht).mpr (Or.inl h)

end Written

/-! ### Ranks -/

theorem scopes_congr {s t : Store} (h : t.entityData = s.entityData) (x : String) :
    t.scopes x = s.scopes x := by
  have hclimb : t.climb = s.climb := by
    funext row
    unfold climb parentOf
    rw [h]
  unfold scopes
  rw [hclimb]

theorem rankOf_congr {s t : Store} (h : t.roles = s.roles) (role : String) :
    t.rankOf role = s.rankOf role := by
  unfold rankOf
  rw [h]

/-- An edge of a principal in the scope chain is a lower bound of the effective rank. -/
theorem effectiveRank_ge {s : Store} {a x : String} {m : MemberEdge} {r : I32}
    (hm : m ∈ s.memberships) (hp : s.Principal a m.memberId) (hscope : m.objectId ∈ s.scopes x)
    (hrank : s.rankOf m.role = some r) : ∃ r', s.effectiveRank a x = some r' ∧ r ≤ r' := by
  have hmem := mem_rankedEdges.mpr ⟨m, hm, hp, hscope, hrank⟩
  obtain ⟨r', hr'⟩ := Option.isSome_iff_exists.mp
    (List.isSome_max?_iff.mpr (List.ne_nil_of_mem hmem))
  exact ⟨r', hr', (List.max?_eq_some_iff.mp hr').2 r hmem⟩

/-- Whoever is a principal of an actor passes its rank on to the actor. -/
theorem effectiveRank_mono {s : Store} {a p x : String} {r : I32} (hp : s.Principal a p)
    (h : s.effectiveRank p x = some r) : ∃ r', s.effectiveRank a x = some r' ∧ r ≤ r' := by
  obtain ⟨m, hm, hpm, hscope, hrank⟩ := effectiveRank_eq_some h
  exact effectiveRank_ge hm (hp.trans hpm) hscope hrank

/-- The rank of an actor on an entity; no reach counts as zero. -/
def rankOr0 (s : Store) (a x : String) : I32 := (s.effectiveRank a x).getD 0

theorem le_rankOr0 {s : Store} {a x : String} {r r' : I32} (h : s.effectiveRank a x = some r')
    (hle : r ≤ r') : r ≤ s.rankOr0 a x := by
  unfold rankOr0
  rw [h]
  exact hle

end Store

/-! ### What a grant confers -/

/-- The larger of what an actor and the caller have on an entity. -/
def Store.ceiling (s : Store) (caller a x : String) : I32 :=
  max (s.rankOr0 a x) (s.rankOr0 caller x)

/-- No actor ends up, on any entity, above both what it had and what the caller had. -/
def NoEscalation (s s' : Store) (caller : String) : Prop :=
  ∀ a x, s.typeOf a = some "actor" → s.entities.has x = true →
    s'.rankOr0 a x ≤ s.ceiling caller a x

/--
A role on `o` confers nothing above the ceiling to those the member speaks for:
below `o` not the role's rank, and where `o` is a team nowhere the team's own rank.
-/
def GrantContained (s : Store) (caller o m role : String) : Prop :=
  ∀ a x, s.typeOf a = some "actor" → s.entities.has x = true → m ∈ s.principals a →
    (o ∈ s.scopes x → ∀ r, s.rankOf role = some r → r ≤ s.ceiling caller a x) ∧
      (s.typeOf o = some "team" → ∀ r, s.effectiveRank o x = some r → r ≤ s.ceiling caller a x)

/-- A membership row of the store `s` was written, and `t` is the result. -/
structure EdgeWritten (s t : Store) (e : MemberEdge) : Prop where
  memberships : t.memberships = s.memberships.upsert e
  entities : t.entities = s.entities
  entityData : t.entityData = s.entityData
  roles : t.roles = s.roles
  /-- The role is registered. -/
  ranked : ∃ r, s.rankOf e.role = some r
  /-- The row was there before, or the object does not lead to the member. -/
  guarded : s.memberships.has e.key = true ∨ ¬ s.Principal e.objectId e.memberId

namespace EdgeWritten

variable {s t : Store} {e : MemberEdge} (h : EdgeWritten s t e)

include h

theorem mem_written : e ∈ t.memberships := by
  rw [h.memberships]
  exact Table.mem_upsert.mpr (Or.inl rfl)

theorem mem_kept {d : MemberEdge} (hd : d ∈ s.memberships) (hkey : d.key ≠ e.key) :
    d ∈ t.memberships := by
  rw [h.memberships]
  exact Table.mem_upsert.mpr (Or.inr ⟨hd, hkey⟩)

/-- Reach is not lost by the write. -/
theorem effectiveRank_kept {a x : String} {r : I32} (hr : s.effectiveRank a x = some r) :
    ∃ r', t.effectiveRank a x = some r' := by
  obtain ⟨d, hd, hp, hscope, hrank⟩ := Store.effectiveRank_eq_some hr
  have hp' : t.Principal a d.memberId := hp.written h.memberships h.entities
  have hscope' : d.objectId ∈ t.scopes x := by rwa [Store.scopes_congr h.entityData]
  by_cases hkey : d.key = e.key
  · simp only [MemberEdge.key, Prod.mk.injEq] at hkey
    obtain ⟨r', hr'⟩ := h.ranked
    have hrank' : t.rankOf e.role = some r' := by rwa [Store.rankOf_congr h.roles]
    obtain ⟨r'', hr'', -⟩ := Store.effectiveRank_ge h.mem_written (hkey.2 ▸ hp')
      (hkey.1 ▸ hscope') hrank'
    exact ⟨r'', hr''⟩
  · have hrank' : t.rankOf d.role = some r := by rwa [Store.rankOf_congr h.roles]
    obtain ⟨r'', hr'', -⟩ := Store.effectiveRank_ge (h.mem_kept hd hkey) hp' hscope' hrank'
    exact ⟨r'', hr''⟩

/-- A rank after the write is one of three: the role's, the team's, or an old one. -/
theorem effectiveRank_cases {a x : String} {r : I32} (hr : t.effectiveRank a x = some r) :
    (s.Principal a e.memberId ∧ e.objectId ∈ s.scopes x ∧ s.rankOf e.role = some r) ∨
      (s.Principal a e.memberId ∧ s.typeOf e.objectId = some "team" ∧
        ∃ r', s.effectiveRank e.objectId x = some r' ∧ r ≤ r') ∨
      ∃ r', s.effectiveRank a x = some r' ∧ r ≤ r' := by
  obtain ⟨d, hd, hp, hscope, hrank⟩ := Store.effectiveRank_eq_some hr
  rw [Store.scopes_congr h.entityData] at hscope
  rw [Store.rankOf_congr h.roles] at hrank
  rw [h.memberships] at hd
  have hp' := (Store.principal_written h.memberships h.entities).mp hp
  rcases Table.mem_upsert.mp hd with rfl | ⟨hd, -⟩
  · have hpm : s.Principal a d.memberId := by
      rcases hp' with hold | ⟨-, hold, -⟩
      · exact hold
      · exact hold
    exact Or.inl ⟨hpm, hscope, hrank⟩
  · rcases hp' with hold | ⟨hteam, hpm, hpo⟩
    · exact Or.inr (Or.inr (Store.effectiveRank_ge hd hold hscope hrank))
    · exact Or.inr (Or.inl ⟨hpm, hteam, Store.effectiveRank_ge hd hpo hscope hrank⟩)

/-- The team's own rank passes to those the member speaks for, or they had it already. -/
theorem team_rank_passes {a x : String} {r : I32} (hteam : s.typeOf e.objectId = some "team")
    (hp : s.Principal a e.memberId) (hr : s.effectiveRank e.objectId x = some r) :
    r ≤ s.rankOr0 a x ∨ r ≤ t.rankOr0 a x := by
  obtain ⟨d, hd, hpd, hscope, hrank⟩ := Store.effectiveRank_eq_some hr
  have hedge : s.memberships.has e.key = true → s.TeamEdge e.memberId e.objectId := by
    intro hhas
    obtain ⟨d', hd', hkey⟩ := Table.has_iff.mp hhas
    simp only [MemberEdge.key, Prod.mk.injEq] at hkey
    exact ⟨d', hd', hkey.2, hkey.1, hteam⟩
  by_cases hkey : d.key = e.key
  · simp only [MemberEdge.key, Prod.mk.injEq] at hkey
    rcases h.guarded with hhas | hback
    · obtain ⟨r', hr', hle⟩ := Store.effectiveRank_mono (hp.tail (hedge hhas)) hr
      exact Or.inl (Store.le_rankOr0 hr' hle)
    · exact absurd (hkey.2 ▸ hpd) hback
  · have hp' : t.Principal a d.memberId :=
      (Store.principal_written h.memberships h.entities).mpr (Or.inr ⟨hteam, hp, hpd⟩)
    have hscope' : d.objectId ∈ t.scopes x := by rwa [Store.scopes_congr h.entityData]
    have hrank' : t.rankOf d.role = some r := by rwa [Store.rankOf_congr h.roles]
    obtain ⟨r', hr', hle⟩ := Store.effectiveRank_ge (h.mem_kept hd hkey) hp' hscope' hrank'
    exact Or.inr (Store.le_rankOr0 hr' hle)

/-- **A written row escalates nobody exactly when what it confers is contained.** -/
theorem noEscalation_iff {caller : String} :
    NoEscalation s t caller ↔ GrantContained s caller e.objectId e.memberId e.role := by
  refine ⟨fun hno => ?_, fun hcontained => ?_⟩
  · intro a x ha hx hm
    have hp : s.Principal a e.memberId := Store.mem_principals.mp hm
    refine ⟨fun hscope r hr => ?_, fun hteam r hr => ?_⟩
    · have hp' : t.Principal a e.memberId := hp.written h.memberships h.entities
      have hscope' : e.objectId ∈ t.scopes x := by rwa [Store.scopes_congr h.entityData]
      have hr' : t.rankOf e.role = some r := by rwa [Store.rankOf_congr h.roles]
      obtain ⟨r', hr'', hle⟩ := Store.effectiveRank_ge h.mem_written hp' hscope' hr'
      exact (Store.le_rankOr0 hr'' hle).trans (hno a x ha hx)
    · rcases h.team_rank_passes hteam hp hr with hle | hle
      · exact hle.trans (le_max_left _ _)
      · exact hle.trans (hno a x ha hx)
  · intro a x ha hx
    cases hr : t.effectiveRank a x with
    | none =>
        -- Without reach afterwards there was none before, and the ceiling is not below zero.
        have hnone : s.effectiveRank a x = none := by
          cases hs : s.effectiveRank a x with
          | none => rfl
          | some r =>
              obtain ⟨r', hr'⟩ := h.effectiveRank_kept hs
              simp [hr] at hr'
        have hzero : t.rankOr0 a x = s.rankOr0 a x := by
          simp only [Store.rankOr0, hr, hnone]
        rw [hzero]
        exact le_max_left _ _
    | some r =>
        have hrank : t.rankOr0 a x = r := by simp only [Store.rankOr0, hr, Option.getD_some]
        rw [hrank]
        rcases h.effectiveRank_cases hr with ⟨hp, hscope, hrole⟩ | ⟨hp, hteam, r', hr', hle⟩ |
          ⟨r', hr', hle⟩
        · exact (hcontained a x ha hx (Store.mem_principals.mpr hp)).1 hscope r hrole
        · exact hle.trans ((hcontained a x ha hx (Store.mem_principals.mpr hp)).2 hteam r' hr')
        · exact (Store.le_rankOr0 hr' hle).trans (le_max_left _ _)

end EdgeWritten

/-- A request that gives a member a role. -/
inductive ShareRequest where
  | add (typeId id : String) (headers : HeaderMap) (body : Body)
  | set (typeId id memberId : String) (headers : HeaderMap) (body : Body)

namespace ShareRequest

def handle (ctx : RequestCtx) (caller : Caller) : ShareRequest → Handler Response
  | .add typeId id headers body => addMember ctx caller typeId id headers body
  | .set typeId id memberId headers body => setMember ctx caller typeId id memberId headers body

def object : ShareRequest → String
  | .add _ id _ _ => id
  | .set _ id _ _ _ => id

/-- A text field of the body. -/
def bodyField (headers : HeaderMap) (body : Body) (key : String) : Option String :=
  match readJson headers body false with
  | .ok v => v.str? key
  | .error _ => none

def member? : ShareRequest → Option String
  | .add _ _ headers body => bodyField headers body "member_id"
  | .set _ _ memberId _ _ => some memberId

def role? : ShareRequest → Option String
  | .add _ _ headers body => bodyField headers body "role"
  | .set _ _ _ headers body => bodyField headers body "role"

theorem bodyField_eq {headers : HeaderMap} {body : Body} {v : Json}
    (h : readJson headers body false = .ok v) (key : String) :
    bodyField headers body key = v.str? key := by
  unfold bodyField
  rw [h]

/-- A request that succeeded wrote the row it names. -/
theorem handle_ok {ctx : RequestCtx} {caller : Caller} {req : ShareRequest} {s s' : Store}
    {resp : Response} (h : exec (req.handle ctx caller) s = (.ok resp, s')) :
    ∃ e : MemberEdge, EdgeWritten s s' e ∧ e.objectId = req.object ∧
      req.member? = some e.memberId ∧ req.role? = some e.role := by
  cases req with
  | add typeId id headers body =>
      rcases addMember_next h with ⟨⟨e, he⟩, -⟩ | ⟨v, rank, evs, e, hchecked, ho, -, rfl⟩
      · simp at he
      obtain ⟨r, hr, -⟩ := requireGrantable_ok hchecked.grantable
      have hback : ¬ s.Principal e.objectId e.memberId := by
        intro hp
        have hmem : e.memberId ∈ s.principals id := Store.mem_principals.mpr (ho ▸ hp)
        have hcycle := hchecked.acyclic
        unfold Store.principalsContain at hcycle
        simp [hmem] at hcycle
      refine ⟨e, ⟨rfl, rfl, rfl, rfl, ⟨r, hr⟩, Or.inr hback⟩, ho, ?_, ?_⟩
      · exact (bodyField_eq hchecked.parsed _).trans hchecked.named
      · exact (bodyField_eq hchecked.parsed _).trans hchecked.asked
  | set typeId id m headers body =>
      rcases setMember_next h with ⟨⟨e, he⟩, -⟩ |
        ⟨v, current, evs, e, hv, hrole, hrank, -, -, ho, hm, hhas, rfl⟩
      · simp at he
      exact ⟨e, ⟨rfl, rfl, rfl, rfl, hrank, Or.inl hhas⟩, ho, congrArg some hm.symm,
        (bodyField_eq hv _).trans hrole⟩

end ShareRequest

/--
**A sharing request that succeeds escalates nobody exactly when the grant it makes
is contained: the role is within the ceiling below the object, and where the object
is a team so is everything the team reaches.**
-/
theorem sharing_escalates_nobody_iff (ctx : RequestCtx) (caller : Caller) (req : ShareRequest)
    (s s' : Store) (resp : Response) (h : exec (req.handle ctx caller) s = (.ok resp, s')) :
    NoEscalation s s' caller.actorId ↔
      ∀ m role, req.member? = some m → req.role? = some role →
        GrantContained s caller.actorId req.object m role := by
  obtain ⟨e, hwritten, ho, hm, hrole⟩ := ShareRequest.handle_ok h
  rw [hwritten.noEscalation_iff, ho]
  refine ⟨fun hcontained m role hm' hrole' => ?_, fun hall => hall _ _ hm hrole⟩
  obtain rfl : e.memberId = m := Option.some.inj (hm.symm.trans hm')
  obtain rfl : e.role = role := Option.some.inj (hrole.symm.trans hrole')
  exact hcontained

/-! #### A workspace admin who joins a team -/

def jsonHeaders : HeaderMap where
  contentType := some (some "application/json")

/-- Alice is admin of a workspace with a team in it; the team owns a project elsewhere. -/
def teamStore : Store where
  typeDefinitions := ⟨[plainType "actor" "USR", plainType "workspace" "ORG",
    plainType "team" "TEM", plainType "project" "PRJ"], by decide⟩
  entities := ⟨[⟨"USR_alice", "actor", none⟩, ⟨"USR_bob", "actor", none⟩,
    ⟨"ORG_1", "workspace", none⟩, ⟨"TEM_1", "team", none⟩, ⟨"PRJ_1", "project", none⟩], by decide⟩
  entityData := ⟨[{ entityId := "ORG_1", typeId := "workspace", data := .obj [] },
    { entityId := "TEM_1", typeId := "team", data := .obj [("workspace_id", .str "ORG_1")],
      scopeParentId := some "ORG_1" },
    { entityId := "PRJ_1", typeId := "project", data := .obj [] }], by decide⟩
  memberships := ⟨[⟨"ORG_1", "USR_alice", "admin", ""⟩, ⟨"PRJ_1", "TEM_1", "owner", ""⟩],
    by decide⟩
  roles := seededRoles

theorem teamStore_valid : teamStore.Valid where
  entityType := by decide
  dataEntity := by decide
  dataParent := by decide
  edgeRefs := by decide
  caseRefs := by decide

/-- Alice makes herself a viewer of the team, and owns the project. -/
theorem joining_a_team_escalates :
    teamStore.Valid ∧ alice.isPlatformAdmin = false ∧
      teamStore.effectiveRank "USR_alice" "PRJ_1" = none ∧
      ∃ resp s', exec (addMember plainCtx alice "team" "TEM_1" jsonHeaders
          (grantBody "USR_alice" "viewer")) teamStore = (.ok resp, s') ∧
        s'.effectiveRank "USR_alice" "PRJ_1" = some 4 ∧
        ¬ NoEscalation teamStore s' alice.actorId := by
  refine ⟨teamStore_valid, rfl, by decide, _, _, rfl, by decide, ?_⟩
  intro hno
  have hle := hno "USR_alice" "PRJ_1" (by decide) (by decide)
  exact absurd hle (by decide)

/-- Bob made a viewer of the workspace gets nothing Alice does not have. -/
theorem sharing_a_workspace_escalates_nobody :
    ∃ resp s', exec (addMember plainCtx alice "workspace" "ORG_1" jsonHeaders
        (grantBody "USR_bob" "viewer")) teamStore = (.ok resp, s') ∧
      NoEscalation teamStore s' alice.actorId := by
  refine ⟨_, _, rfl, ?_⟩
  refine (sharing_escalates_nobody_iff plainCtx alice
    (.add "workspace" "ORG_1" jsonHeaders (grantBody "USR_bob" "viewer")) teamStore _ _ rfl).mpr ?_
  intro m role hm hrole
  obtain rfl : "USR_bob" = m := Option.some.inj hm
  obtain rfl : "viewer" = role := Option.some.inj hrole
  intro a x _ hx hp
  refine ⟨fun hscope r hr => ?_, fun hteam => absurd hteam (by decide)⟩
  obtain rfl : (1 : I32) = r := Option.some.inj hr
  obtain ⟨d, hd, rfl⟩ := Table.has_iff.mp hx
  have hcaller : ∀ d ∈ teamStore.entities, "ORG_1" ∈ teamStore.scopes d.id →
      (1 : I32) ≤ teamStore.rankOr0 "USR_alice" d.id := by decide
  exact (hcaller d hd hscope).trans (le_max_right _ _)

/-! ### Teams never nest in a circle -/

/-- A request that may change who belongs to what. -/
inductive NestingRequest where
  | create (ctx : RequestCtx) (env : Ambient) (caller : Caller) (typeId : String)
      (headers : HeaderMap) (body : Body)
  | roster (req : RosterRequest)
  | delete (ctx : RequestCtx) (caller : Caller) (typeId id : String) (headers : HeaderMap)

namespace NestingRequest

def handle (st : AppState) : NestingRequest → Handler Response
  | .create ctx env caller typeId headers body => collCreate st ctx env caller typeId headers body
  | .roster req => req.handle
  | .delete ctx caller typeId id headers => itemDelete st ctx caller typeId id headers

/-- A create does not mint the id of its own caller. -/
def MintsFresh (st : AppState) : NestingRequest → Prop
  | .create _ env caller typeId _ _ =>
    ∀ td, TypeDefCache.get st.registry typeId = some td → mint td env.uuid ≠ caller.actorId
  | .roster _ => True
  | .delete _ _ _ _ _ => True

/-- The store after the requests, one at a time. -/
def runAll (st : AppState) (reqs : List NestingRequest) (s : Store) : Store :=
  reqs.foldl (fun t req => (exec (req.handle st) t).2) s

end NestingRequest

/-- Memberships are between entities, and no team contains itself. -/
structure Nested (s : Store) : Prop where
  ends : ∀ e ∈ s.memberships, s.entities.has e.objectId = true ∧ s.entities.has e.memberId = true
  acyclic : Edges.Acyclic s.TeamEdge

namespace Nested

theorem of_no_memberships {s : Store} (h : s.memberships.rows = []) : Nested s where
  ends e he := by
    rw [Table.mem_def, h] at he
    simp at he
  acyclic := by
    refine Edges.acyclic_of_forall_not ?_
    intro x y hxy
    obtain ⟨e, he, -⟩ := hxy
    rw [Table.mem_def, h] at he
    simp at he

variable {s t : Store}

/-- Events are no part of it. -/
theorem congr (h : Nested s) (hm : t.memberships = s.memberships) (he : t.entities = s.entities) :
    Nested t := by
  have hgraph : t.TeamEdge = s.TeamEdge := by
    funext x y
    unfold Store.TeamEdge Store.typeOf
    rw [hm, he]
  refine ⟨?_, hgraph ▸ h.acyclic⟩
  rw [hm, he]
  exact h.ends

/-- Fewer rows over the same entities, or over fewer of them, nest no deeper. -/
theorem shrink (h : Nested s) (hm : ∀ e ∈ t.memberships, e ∈ s.memberships)
    (ht : ∀ o, t.typeOf o = some "team" → s.typeOf o = some "team")
    (hends : ∀ e ∈ t.memberships, t.entities.has e.objectId = true ∧
      t.entities.has e.memberId = true) : Nested t := by
  refine ⟨hends, h.acyclic.mono ?_⟩
  intro x y hxy
  obtain ⟨e, he, hx, hy, hteam⟩ := hxy
  exact ⟨e, hm e he, hx, hy, ht y hteam⟩

/-- **A written row whose object does not lead to its member keeps the nesting sound.** -/
theorem written (h : Nested s) {e : MemberEdge} (hm : t.memberships = s.memberships.upsert e)
    (he : t.entities = s.entities) (hobj : s.entities.has e.objectId = true)
    (hmem : s.entities.has e.memberId = true)
    (hguard : s.memberships.has e.key = true ∨ ¬ s.Principal e.objectId e.memberId) :
    Nested t := by
  have hends : ∀ d ∈ t.memberships, t.entities.has d.objectId = true ∧
      t.entities.has d.memberId = true := by
    intro d hd
    rw [hm] at hd
    rw [he]
    rcases Table.mem_upsert.mp hd with rfl | ⟨hd, -⟩
    · exact ⟨hobj, hmem⟩
    · exact h.ends d hd
  refine ⟨hends, ?_⟩
  rcases hguard with hhas | hback
  · -- The edge was there before, so the graph is the same.
    refine h.acyclic.mono ?_
    intro x y hxy
    rcases (Store.teamEdge_written hm he).mp hxy with hold | ⟨hteam, rfl, rfl⟩
    · exact hold
    · obtain ⟨d, hd, hkey⟩ := Table.has_iff.mp hhas
      simp only [MemberEdge.key, Prod.mk.injEq] at hkey
      exact ⟨d, hd, hkey.2, hkey.1, hteam⟩
  · refine (h.acyclic.with hback).mono ?_
    intro x y hxy
    rcases (Store.teamEdge_written hm he).mp hxy with hold | ⟨-, hx, hy⟩
    · exact Or.inl hold
    · exact Or.inr ⟨hx, hy⟩

/-- A new entity whose creator becomes its owner: nothing leads out of it yet. -/
theorem created (h : Nested s) {td : TypeDef} {typeId id actorId : String} {data : Json}
    {sp : Option String} {now : Timestamp} {u : Unit}
    (htx : createTx td typeId id actorId data sp now s = .ok (u, t)) (hne : id ≠ actorId) :
    Nested t := by
  obtain ⟨ents, rows, e, cases, hents, -, ho, hm, -, hok, -, -, -, -, rfl⟩ := createTx_ok htx
  have hfree : s.entities.has id = false := (Table.insert_eq_some hents).1
  simp only [memberEdgeOk, Bool.and_eq_true] at hok
  have hgrow : ∀ x, s.entities.has x = true → ents.has x = true :=
    fun x hx => (Table.has_insert hents).mpr (Or.inl hx)
  have hnew : ∀ x, s.entities.has x = true → x ≠ id := by
    rintro x hx rfl
    rw [hfree] at hx
    simp at hx
  -- The entity alone adds no edge: no row has it as its object.
  have hmid : Nested { s with entities := ents, entityData := rows, cases := cases } := by
    refine ⟨fun d hd => ⟨hgrow _ (h.ends d hd).1, hgrow _ (h.ends d hd).2⟩, h.acyclic.mono ?_⟩
    intro x y hxy
    obtain ⟨d, hd, hx, hy, hteam⟩ := hxy
    refine ⟨d, hd, hx, hy, ?_⟩
    have hyid : id ≠ y := fun hc => hnew _ (h.ends d hd).1 (hy.trans hc.symm)
    simp only [Store.typeOf, Table.find?_insert hents, if_neg hyid] at hteam
    exact hteam
  refine hmid.written (e := e) rfl rfl hok.1.1 hok.1.2 (Or.inr ?_)
  intro hback
  rw [ho, hm] at hback
  rcases Relation.ReflTransGen.cases_head hback with heq | ⟨y, hedge, -⟩
  · exact hne heq
  · obtain ⟨d, hd, hx, -⟩ := hedge
    exact hnew _ (h.ends d hd).2 hx

/-- A deletion takes the rows of the entity with it. -/
theorem deleted (h : Nested s) (x : String) : Nested (cascadeDelete s x) := by
  have hmem : ∀ e, e ∈ (cascadeDelete s x).memberships ↔
      e ∈ s.memberships ∧ e.objectId ≠ x ∧ e.memberId ≠ x := by
    intro e
    show e ∈ s.memberships.filter _ ↔ _
    rw [Table.mem_filter]
    simp
  have hfind : ∀ y, (cascadeDelete s x).entities.find? y =
      (s.entities.find? y).filter fun e => decide (e.id ≠ x) := fun y => Table.find?_filter _ _ y
  have hhas : ∀ y, y ≠ x → s.entities.has y = true → (cascadeDelete s x).entities.has y = true := by
    intro y hy hs
    obtain ⟨e, he, hid⟩ := Table.has_iff.mp hs
    exact Table.has_iff.mpr ⟨e, Table.mem_filter.mpr ⟨he, by simpa [hid] using hy⟩, hid⟩
  refine h.shrink (fun e he => ((hmem e).mp he).1) ?_ ?_
  · intro o hteam
    simp only [Store.typeOf, hfind] at hteam
    obtain ⟨e, he, htype⟩ := Option.map_eq_some_iff.mp hteam
    have hfound : s.entities.find? o = some e := (Option.filter_eq_some_iff.mp he).1
    unfold Store.typeOf
    rw [hfound]
    exact congrArg some htype
  · intro e he
    obtain ⟨hold, ho, hm⟩ := (hmem e).mp he
    exact ⟨hhas _ ho (h.ends e hold).1, hhas _ hm (h.ends e hold).2⟩

/-- **One request keeps the nesting sound.** -/
theorem step {st : AppState} {req : NestingRequest} (h : Nested s) (hfresh : req.MintsFresh st) :
    Nested (exec (req.handle st) s).2 := by
  rcases hexec : exec (req.handle st) s with ⟨r, s'⟩
  show Nested s'
  cases req with
  | create ctx env caller typeId headers body =>
      rcases collCreate_cases hexec with ⟨-, rfl⟩ | ⟨td, data, t, evs, htd, htx, -, rfl⟩
      · exact h
      · exact (h.created htx (hfresh td htd)).congr rfl rfl
  | delete ctx caller typeId id headers =>
      rcases itemDelete_cases hexec with ⟨-, rfl⟩ | ⟨resp, evs, -, rfl⟩
      · exact h
      · exact (h.deleted id).congr rfl rfl
  | roster req =>
      cases req with
      | add ctx caller typeId id headers body =>
          rcases addMember_next hexec with ⟨-, rfl⟩ | ⟨v, rank, evs, e, hchecked, ho, hok, rfl⟩
          · exact h
          simp only [memberEdgeOk, Bool.and_eq_true] at hok
          refine h.written (e := e) rfl rfl hok.1.1 hok.1.2 (Or.inr ?_)
          intro hp
          have hmem : e.memberId ∈ s.principals id := Store.mem_principals.mpr (ho ▸ hp)
          have hcycle := hchecked.acyclic
          unfold Store.principalsContain at hcycle
          simp [hmem] at hcycle
      | change c =>
          cases c with
          | set ctx caller typeId id m headers body =>
              rcases setMember_next hexec with ⟨-, rfl⟩ |
                ⟨v, current, evs, e, -, -, -, -, -, ho, hm, hhas, rfl⟩
              · exact h
              obtain ⟨d, hd, hkey⟩ := Table.has_iff.mp hhas
              have hkey' := hkey
              simp only [MemberEdge.key, Prod.mk.injEq] at hkey'
              have hends := h.ends d hd
              rw [hkey'.1, hkey'.2] at hends
              exact h.written (e := e) rfl rfl hends.1 hends.2 (Or.inl hhas)
          | remove ctx caller typeId id m =>
              rcases removeMember_next hexec with ⟨-, rfl⟩ | ⟨current, evs, -, -, rfl⟩
              · exact h
              have hsub : ∀ e ∈ s.memberships.filter (fun e => e.key ≠ (id, m)),
                  e ∈ s.memberships := fun e he => (Table.mem_filter.mp he).1
              exact h.shrink hsub (fun _ hteam => hteam) fun e he => h.ends e (hsub e he)

theorem runAll {st : AppState} (reqs : List NestingRequest) :
    ∀ {s : Store}, Nested s → (∀ req ∈ reqs, req.MintsFresh st) →
      Nested (NestingRequest.runAll st reqs s) := by
  induction reqs with
  | nil => intro s h _; exact h
  | cons req rest ih =>
      intro s h hfresh
      refine ih (h.step (hfresh req (by simp))) ?_
      intro req' hreq'
      exact hfresh req' (by simp [hreq'])

end Nested

/--
**From a store without memberships, whatever is created, shared and deleted, no
team ever contains itself, directly or through other teams.**
-/
theorem team_nesting_acyclic (st : AppState) (s : Store) (hs : s.memberships.rows = [])
    (reqs : List NestingRequest) (hfresh : ∀ req ∈ reqs, req.MintsFresh st) :
    Edges.Acyclic (NestingRequest.runAll st reqs s).TeamEdge :=
  (Nested.runAll reqs (Nested.of_no_memberships hs) hfresh).acyclic

/-- Two teams and an admin, and no memberships. -/
def twoTeams : Store where
  typeDefinitions := ⟨[plainType "actor" "USR", plainType "team" "TEM"], by decide⟩
  entities := ⟨[⟨"USR_alice", "actor", none⟩, ⟨"TEM_1", "team", none⟩, ⟨"TEM_2", "team", none⟩],
    by decide⟩
  entityData := ⟨[{ entityId := "TEM_1", typeId := "team", data := .obj [] },
    { entityId := "TEM_2", typeId := "team", data := .obj [] }], by decide⟩
  roles := seededRoles

/-- The first team is put into the second, then the second into the first. -/
def nestBothWays : List NestingRequest :=
  [.roster (.add plainCtx ⟨"USR_alice", true⟩ "team" "TEM_2" jsonHeaders
      (grantBody "TEM_1" "member")),
    .roster (.add plainCtx ⟨"USR_alice", true⟩ "team" "TEM_1" jsonHeaders
      (grantBody "TEM_2" "member"))]

/-- The second grant is refused. -/
theorem teams_nest_one_way :
    (NestingRequest.runAll ⟨∅, ∅⟩ nestBothWays twoTeams).currentRole "TEM_2" "TEM_1" =
        some "member" ∧
      (NestingRequest.runAll ⟨∅, ∅⟩ nestBothWays twoTeams).currentRole "TEM_1" "TEM_2" = none ∧
      Edges.Acyclic (NestingRequest.runAll ⟨∅, ∅⟩ nestBothWays twoTeams).TeamEdge := by
  refine ⟨by decide, by decide, team_nesting_acyclic ⟨∅, ∅⟩ twoTeams rfl nestBothWays ?_⟩
  intro req hreq
  rcases List.mem_cons.mp hreq with rfl | hreq
  · trivial
  · obtain rfl := List.mem_singleton.mp hreq
    trivial

end Numu
