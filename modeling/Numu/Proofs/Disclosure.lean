/-
Whom an answer is given to.

A write is authorized by what its request saw before it; a success is cleared by what
its request saw before it answered.  `Endpoint.Cleared` says for every endpoint what
that is: the rank on the object it is addressed to, platform admin, or, where the
answer lists things, a membership on each of them or on something above it.  Data
that are read show no field but those whose read floor the caller's rank reached.

The rank is seen in one state, the row in another and each floor in one of its own.
All of them lie between the start of the request and its answer.
-/
import Numu.Proofs.Answers

namespace Numu

open Fallible Handler

/-! ### Clearance -/

section Clearance

variable (past : Store → Prop) (caller : Caller)

/-- At one of the moments a membership of the caller, or of a team of it, was on the object or on
one above it; an admin needs none. -/
def Near (id : String) : Prop :=
  caller.isPlatformAdmin = true ∨ ∃ s, past s ∧ ∃ n, s.AnchorAt caller.actorId id n

/-- The caller's rank at one moment reached the read floor of the field at another. -/
def FloorRead (td : TypeDef) (id : String) (f : FieldDef) : Prop :=
  ∃ s u, past s ∧ past u ∧
    (u.fieldFloors td.typeId f.field f.permClass).1 ≤ s.callerRank caller id

/-- The caller may read every field of the data. -/
def Readable (td : TypeDef) (id : String) (data : Json) : Prop :=
  ∀ f ∈ td.fields, (data.get? f.field).isSome = true →
    caller.isPlatformAdmin = true ∨ FloorRead past caller td id f

/-- An item of a listing. -/
def ItemCleared (td : TypeDef) (typeId : String) (item : Json) : Prop :=
  ∃ x data version, item = entityJson x typeId data version ∧ Near past caller x ∧
    Readable past caller td x data

/-- The runs of a case are shown to who may view it; those without one to admins. -/
def ViewedCase : Option String → Prop
  | some id => Held past caller id 1
  | none => caller.isPlatformAdmin = true

/-- What the caller of an endpoint was seen to be allowed by the time of a success. -/
def Endpoint.Cleared (st : AppState) : Endpoint → Response → Prop
  | .collGet typeId _, resp => ∃ td items limit offset,
      TypeDefCache.get st.registry typeId = some td ∧
      resp.body = some (.mkObj [("items", .arr items), ("limit", limit), ("offset", offset)]) ∧
      ∀ item ∈ items, ItemCleared past caller td typeId item
  | .collCreate typeId headers body, _ => ∃ td payload,
      TypeDefCache.get st.registry typeId = some td ∧ readJson headers body false = .ok payload ∧
      ∀ parent, scopeParent td (buildCreateData td payload) = some parent →
        Held past caller parent 2
  | .itemGet typeId id _, resp => ∃ td, TypeDefCache.get st.registry typeId = some td ∧
      Held past caller id 1 ∧
      ∀ x data, resp.Shows x data → x = id ∧ Readable past caller td id data
  | .itemHead _ id, _ => Held past caller id 1
  | .itemOptions _ id, _ => Held past caller id 1
  | .listMembers _ id, _ => Held past caller id 1
  | .itemUpdate v typeId id headers body, resp => ∃ td payload,
      TypeDefCache.get st.registry typeId = some td ∧
      readJson headers body v.allowMerge = .ok payload ∧ Held past caller id 2 ∧
      (∀ k ∈ JsonMap.keys payload.asMap, ∀ f, td.field k = some f →
        FloorHeld past caller td id f) ∧
      ∀ x data, resp.Shows x data → x = id
  | .itemDelete typeId id _, _ => ∃ td, TypeDefCache.get st.registry typeId = some td ∧
      Held past caller id (Action.minRank td .delete)
  | .addMember _ id _ _, _ => Held past caller id manageRank
  | .setMember _ id _ _ _, _ => Held past caller id manageRank
  | .recordCheck _ id _ _ _, _ => Held past caller id manageRank
  | .removeMember _ id memberId, _ => memberId = caller.actorId ∨ Held past caller id manageRank
  | .createRelation (.ok input), _ =>
      Held past caller input.subjectId 2 ∧ Held past caller input.objectId 1
  | .listRelations q, resp => ∃ entity, ∃ rows : List RelationRow, q.entity = some entity ∧
      Held past caller entity 1 ∧
      resp.body = some (.mkObj [("relations", .arr (rows.map relationJson))]) ∧
      ∀ r ∈ rows, (r.subjectId = entity ∨ r.objectId = entity) ∧
        Near past caller (r.other entity)
  | .deleteRelation id, _ => ∃ s subject, past s ∧
      (s.relations.find? id).map RelationRow.subjectId = some subject ∧ Held past caller subject 2
  | .search qp, resp => ∃ results,
      resp.body = some (.mkObj [("query", .str (qp.q.getD "")), ("results", .arr results)]) ∧
      ∀ r ∈ results, ∃ x, r.get? "entity_id" = some (.str x) ∧ Near past caller x
  | .startRun (.ok input), _ => HeldCase past caller input.caseId
  | .recordHandoff id _, _ => ∃ s run, past s ∧ s.featureRuns.find? id = some run ∧
      HeldCase past caller run.caseId
  | .getRun id, _ => ∃ s run, past s ∧ s.featureRuns.find? id = some run ∧
      ViewedCase past caller run.caseId
  | .listRuns caseId, _ => ViewedCase past caller caseId
  | .runConnector id, _ => Held past caller id 2
  | .createType _, _ => caller.isPlatformAdmin = true
  | .echo _ _, _ => caller.isPlatformAdmin = true
  | .setLogLevel _, _ => caller.isPlatformAdmin = true
  -- Nothing is done for a body that does not parse, and no object is shown by the others.
  | .createRelation (.error _), _ => False
  | .startRun (.error _), _ => False
  | _, _ => True

end Clearance

section Mono

variable {past past' : Store → Prop} {caller : Caller}

theorem Near.mono {id : String} (h : Near past caller id) (hp : ∀ s, past s → past' s) :
    Near past' caller id := by
  rcases h with hadmin | ⟨s, hs, hanchor⟩
  · exact Or.inl hadmin
  · exact Or.inr ⟨s, hp s hs, hanchor⟩

theorem Readable.mono {td : TypeDef} {id : String} {data : Json}
    (h : Readable past caller td id data) (hp : ∀ s, past s → past' s) :
    Readable past' caller td id data := by
  intro f hf hshown
  rcases h f hf hshown with hadmin | ⟨s, u, hs, hu, hle⟩
  · exact Or.inl hadmin
  · exact Or.inr ⟨s, u, hp s hs, hp u hu, hle⟩

theorem ItemCleared.mono {td : TypeDef} {typeId : String} {item : Json}
    (h : ItemCleared past caller td typeId item) (hp : ∀ s, past s → past' s) :
    ItemCleared past' caller td typeId item := by
  obtain ⟨x, data, version, hitem, hnear, hreadable⟩ := h
  exact ⟨x, data, version, hitem, hnear.mono hp, hreadable.mono hp⟩

theorem ViewedCase.mono {caseId : Option String} (h : ViewedCase past caller caseId)
    (hp : ∀ s, past s → past' s) : ViewedCase past' caller caseId := by
  cases caseId with
  | some id => exact Held.mono h hp
  | none => exact h

/-- A clearance stays when more moments are looked at. -/
theorem Endpoint.Cleared.mono {st : AppState} {e : Endpoint} {resp : Response}
    (h : e.Cleared past caller st resp) (hp : ∀ s, past s → past' s) :
    e.Cleared past' caller st resp := by
  cases e with
  | collGet =>
      obtain ⟨td, items, limit, offset, htd, hbody, hitems⟩ := h
      exact ⟨td, items, limit, offset, htd, hbody, fun item hi => (hitems item hi).mono hp⟩
  | collCreate =>
      obtain ⟨td, payload, htd, hread, hparent⟩ := h
      exact ⟨td, payload, htd, hread, fun p hsp => (hparent p hsp).mono hp⟩
  | itemGet =>
      obtain ⟨td, htd, hheld, hshows⟩ := h
      refine ⟨td, htd, hheld.mono hp, fun x data hx => ?_⟩
      exact ⟨(hshows x data hx).1, (hshows x data hx).2.mono hp⟩
  | itemUpdate =>
      obtain ⟨td, payload, htd, hread, hheld, hfloors, hshows⟩ := h
      exact ⟨td, payload, htd, hread, hheld.mono hp,
        fun k hk f hf => (hfloors k hk f hf).mono hp, hshows⟩
  | itemDelete =>
      obtain ⟨td, htd, hheld⟩ := h
      exact ⟨td, htd, hheld.mono hp⟩
  | itemHead | itemOptions | listMembers | addMember | setMember | recordCheck | runConnector =>
      exact Held.mono h hp
  | removeMember => exact Or.imp id (fun hheld => hheld.mono hp) h
  | createRelation body =>
      cases body with
      | ok input => exact ⟨h.1.mono hp, h.2.mono hp⟩
      | error x => exact h
  | listRelations =>
      obtain ⟨entity, rows, hq, hheld, hbody, hrows⟩ := h
      exact ⟨entity, rows, hq, hheld.mono hp, hbody,
        fun r hr => ⟨(hrows r hr).1, (hrows r hr).2.mono hp⟩⟩
  | deleteRelation =>
      obtain ⟨u, subject, hu, hsubject, hheld⟩ := h
      exact ⟨u, subject, hp u hu, hsubject, hheld.mono hp⟩
  | search =>
      obtain ⟨results, hbody, hresults⟩ := h
      refine ⟨results, hbody, fun r hr => ?_⟩
      obtain ⟨x, hx, hnear⟩ := hresults r hr
      exact ⟨x, hx, hnear.mono hp⟩
  | startRun body =>
      cases body with
      | ok input => exact HeldCase.mono h hp
      | error x => exact h
  | recordHandoff =>
      obtain ⟨u, run, hu, hrun, hheld⟩ := h
      exact ⟨u, run, hp u hu, hrun, hheld.mono hp⟩
  | getRun =>
      obtain ⟨u, run, hu, hrun, hviewed⟩ := h
      exact ⟨u, run, hp u hu, hrun, hviewed.mono hp⟩
  | listRuns => exact ViewedCase.mono h hp
  | _ => exact h

end Mono

/-! ### The filter and the reach -/

section Filter

variable {past : Store → Prop} {W : List (Glance Store) → Store → Store → Prop} {caller : Caller}
  {td : TypeDef} {typeId id : String} {m : List (Glance Store)}

end Filter

/-! ### The handlers -/

section Handlers

variable {ρ : Type} [LinearOrder ρ] {text : FullText ρ} {st : AppState} {env : Ambient}
  {ctx : RequestCtx} {caller : Caller} {typeId id : String} {headers : HeaderMap} {body : Body}

end Handlers

/-! ### The server -/

namespace Server

variable {ρ : Type} [LinearOrder ρ] {D : Deployment ρ} {req : Incoming} {ctx : RequestCtx}
  {caller : Caller}

section Runs

variable {reqs : Nat → Incoming} {p q : Pool Server (Option HttpReply)} {i : Nat}
  {reply : HttpReply} {e : Endpoint}

end Runs

/-! ### A look at the projects -/

end Server

end Numu
