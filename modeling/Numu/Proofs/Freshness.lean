/-
Versions as clients see them.

The version of an object is in the tag of every answer about it: of a read, of a
create or an update, of a run of its connector.  Each of these answers tells of a
moment between the start of its request and its end, and at that moment the object
was at that version.

No write takes a version back.  So of two answers about an object, when the second
request was started after the first answer was given, the second tag is the same or a
later one, whoever asks: a client reads its own writes, and whatever it has seen it
does not see undone.  The one thing that starts the count again is the deletion of the
object.
-/
import Numu.Proofs.Answers
import Numu.Proofs.Conditional
import Numu.Proofs.Rows

namespace Numu

open Fallible

/-! ### Rows at a version -/

/-- The row of the object is at this version or at a later one. -/
def Store.AtLeast (s : Store) (id : String) (v : I32) : Prop :=
  ∃ row ∈ s.entityData, row.entityId = id ∧ v ≤ row.version

section AtLeast

variable {s t : Store} {id : String} {v : I32}

/-- There is one row under a key. -/
theorem Table.eq_of_key {κ ρ : Type} [DecidableEq κ] {key : ρ → κ} {t : Table key} {r q : ρ}
    (hr : r ∈ t) (hq : q ∈ t) (h : key r = key q) : r = q := by
  have hfound : t.find? (key q) = some r := Table.find?_eq_some.mpr ⟨hr, h⟩
  exact Option.some.inj (hfound.symm.trans (Table.find?_eq_some.mpr ⟨hq, rfl⟩))

/-- A row that is replaced by one that is no older stays at its version. -/
theorem Store.AtLeast.upsert {old d : EntityData} (h : s.AtLeast id v) (hold : old ∈ s.entityData)
    (hkey : d.entityId = old.entityId) (hversion : old.version ≤ d.version) :
    { s with entityData := s.entityData.upsert d }.AtLeast id v := by
  obtain ⟨row, hrow, rfl, hle⟩ := h
  by_cases hsame : row.entityId = d.entityId
  · obtain rfl : row = old := Table.eq_of_key hrow hold (hsame.trans hkey)
    exact ⟨d, Table.mem_upsert.mpr (Or.inl rfl), hkey, le_trans hle hversion⟩
  · exact ⟨row, Table.mem_upsert.mpr (Or.inr ⟨hrow, hsame⟩), rfl, hle⟩

theorem Store.AtLeast.insert {d : EntityData} {rows : Table EntityData.entityId}
    (h : s.AtLeast id v) (hrows : s.entityData.insert d = some rows) :
    ∃ row ∈ rows, row.entityId = id ∧ v ≤ row.version := by
  obtain ⟨row, hrow, hid, hle⟩ := h
  exact ⟨row, (Table.mem_insert hrows).mpr (Or.inl hrow), hid, hle⟩

theorem I32.le_of_succ? {a b : I32} (h : a.succ? = some b) : a ≤ b := by
  have hval := I32.succ?_eq_some.mp h
  show a.val ≤ b.val
  omega

/-- An endpoint takes no version back, and only the deletion of the object takes its row. -/
theorem Endpoint.WroteRows.atLeast {draws : Draws} {caller : Caller} {e : Endpoint}
    (h : e.WroteRows draws caller s t) (hs : s.AtLeast id v) :
    t.AtLeast id v ∨ ∃ typeId headers, e = .itemDelete typeId id headers := by
  cases h with
  | none hsame =>
      refine Or.inl ?_
      unfold Store.AtLeast
      rw [hsame]
      exact hs
  | created _ h =>
      obtain ⟨ents, rows, m, cases, -, hrows, -, -, -, -, -, -, -, -, rfl⟩ := createTx_ok h
      exact Or.inl (hs.insert hrows)
  | updated h =>
      rcases updateEntityData_ok h with ⟨-, rfl, -⟩ | ⟨-, row, w, hrow, hversion, hsucc, -, rfl⟩
      · exact Or.inl hs
      · refine Or.inl (hs.upsert (Table.mem_of_find? (Store.row?_eq_some.mp hrow).1) rfl ?_)
        rw [hversion]
        exact I32.le_of_succ? hsucc
  | @deleted typeId x headers expected n _ _ h =>
      rcases deleteEntity_ok h with ⟨-, rfl⟩ | ⟨-, -, rfl⟩
      · exact Or.inl hs
      by_cases hx : x = id
      · subst hx
        exact Or.inr ⟨typeId, headers, rfl⟩
      · obtain ⟨row, hrow, rfl, hle⟩ := hs
        refine Or.inl ⟨row.orphaned x, ?_, row.orphaned_entityId x, ?_⟩
        · exact Store.mem_entityData_deleted.mpr ⟨row, hrow, fun hc => hx hc.symm, rfl⟩
        · rw [row.orphaned_version x]
          exact hle
  | stamped _ h =>
      obtain ⟨row, m, hrow, -, hsucc, rfl⟩ := stampConnector_ok h
      refine Or.inl (hs.upsert (Table.mem_of_find? (Store.row?_eq_some.mp hrow).1) rfl ?_)
      exact I32.le_of_succ? hsucc

end AtLeast

/-- There is no object of this id. -/
def Store.Lacks (s : Store) (id : String) : Prop := ∀ row ∈ s.entityData, row.entityId ≠ id

theorem Store.Lacks.upsert {s : Store} {id : String} {old d : EntityData} (h : s.Lacks id)
    (hold : old ∈ s.entityData) (hkey : d.entityId = old.entityId) :
    { s with entityData := s.entityData.upsert d }.Lacks id := by
  intro row hrow
  rcases Table.mem_upsert.mp hrow with rfl | ⟨hrow, -⟩
  · rw [hkey]
    exact h old hold
  · exact h row hrow

/-- An endpoint makes an object under the id it mints only. -/
theorem Endpoint.WroteRows.lacks {draws : Draws} {caller : Caller} {e : Endpoint} {s t : Store}
    {id : String} (h : e.WroteRows draws caller s t) (hs : s.Lacks id) :
    t.Lacks id ∨ ∃ typeId headers body td, e = .collCreate typeId headers body ∧
      td.typeId = typeId ∧ id = mint td draws.uuid.text := by
  cases h with
  | none hsame =>
      refine Or.inl fun row hrow => hs row ?_
      rw [← hsame]
      exact hrow
  | @created typeId headers body td data sp _ _ type h =>
      obtain ⟨ents, rows, m, cases, -, hrows, -, -, -, -, -, -, -, -, rfl⟩ := createTx_ok h
      by_cases hid : id = mint td draws.uuid.text
      · exact Or.inr ⟨typeId, headers, body, td, rfl, type, hid⟩
      · refine Or.inl fun row hrow => ?_
        rcases (Table.mem_insert hrows).mp hrow with hold | rfl
        · exact hs row hold
        · exact fun hc => hid hc.symm
  | updated h =>
      rcases updateEntityData_ok h with ⟨-, rfl, -⟩ | ⟨-, row, w, hrow, -, -, -, rfl⟩
      · exact Or.inl hs
      · exact Or.inl (hs.upsert (Table.mem_of_find? (Store.row?_eq_some.mp hrow).1) rfl)
  | deleted h =>
      rcases deleteEntity_ok h with ⟨-, rfl⟩ | ⟨-, -, rfl⟩
      · exact Or.inl hs
      · refine Or.inl fun row hrow => ?_
        obtain ⟨old, hold, -, rfl⟩ := Store.mem_entityData_deleted.mp hrow
        rw [old.orphaned_entityId]
        exact hs old hold
  | stamped _ h =>
      obtain ⟨row, m, hrow, -, -, rfl⟩ := stampConnector_ok h
      exact Or.inl (hs.upsert (Table.mem_of_find? (Store.row?_eq_some.mp hrow).1) rfl)

/-! ### Tags -/

/-- An answer of the endpoint is about the object: the one it is asked for, or the one whose
location it gives. -/
def Endpoint.About (e : Endpoint) (resp : Response) (id : String) : Prop :=
  match e with
  | .itemGet _ x _ | .itemHead _ x | .itemUpdate _ _ x _ _ | .runConnector x => x = id
  | .collCreate typeId _ _ => resp.location = some ("/api/objects/" ++ typeId ++ "/" ++ id)
  | _ => False

/-- The row of the object is at this version. -/
def Store.At (s : Store) (id : String) (v : I32) : Prop :=
  ∃ row ∈ s.entityData, row.entityId = id ∧ row.version = v

theorem Store.At.atLeast {s : Store} {id : String} {v : I32} (h : s.At id v) : s.AtLeast id v := by
  obtain ⟨row, hrow, hid, rfl⟩ := h
  exact ⟨row, hrow, hid, le_refl _⟩

/-- A row is at one version. -/
theorem Store.At.of_atLeast {s : Store} {id : String} {v w : I32} (h : s.At id w)
    (hv : s.AtLeast id v) : v ≤ w := by
  obtain ⟨row, hrow, hid, rfl⟩ := h
  obtain ⟨row', hrow', hid', hle⟩ := hv
  obtain rfl : row = row' := Table.eq_of_key hrow hrow' (hid.trans hid'.symm)
  exact hle

theorem Store.at_of_row? {s : Store} {id typeId : String} {row : EntityData}
    (h : s.row? id typeId = some row) : s.At id row.version :=
  ⟨row, Table.mem_of_find? (Store.row?_eq_some.mp h).1, Store.row?_entityId h, rfl⟩

/-- The tag of an answer is the version of the object in a state the request met or left. -/
theorem Endpoint.Tells.tagged {ρ : Type} [LinearOrder ρ] {text : FullText ρ} {draws : Draws}
    {caller : Caller} {read : Store → Prop} {wrote : Store → Store → Prop} {e : Endpoint}
    {resp : Response} (h : e.Tells text draws caller read wrote resp) {id : String} {v : I32}
    (habout : e.About resp id) (htag : resp.etag = some (etag v)) :
    (∃ s, read s ∧ s.At id v) ∨ ∃ s t, wrote s t ∧ t.At id v := by
  cases h with
  | got seen found shown | unmodified seen found hit | headed seen found =>
      obtain rfl := habout
      obtain rfl := etag_inj (Option.some.inj htag)
      exact Or.inl ⟨_, seen, Store.at_of_row? found⟩
  | created type done h =>
      obtain rfl := etag_inj (Option.some.inj htag)
      have hid := String.append_right_inj _ |>.mp (Option.some.inj habout)
      obtain ⟨ents, rows, m, cases, -, hrows, -, -, -, -, -, -, -, -, rfl⟩ := createTx_ok h
      exact Or.inr ⟨_, _, done, _, (Table.mem_insert hrows).mpr (Or.inr rfl), hid, rfl⟩
  | updated done h hit mirror =>
      obtain rfl := habout
      obtain rfl := etag_inj (Option.some.inj htag)
      rcases updateEntityData_ok h with ⟨hmiss, -⟩ | ⟨-, row, w, hrow, -, hsucc, -, rfl⟩
      · exact absurd hmiss hit
      · have hid := Store.row?_entityId hrow
        refine Or.inr ⟨_, _, done, _, Table.mem_upsert.mpr (Or.inl rfl), hid, ?_⟩
        exact (I32.succ_eq_of_succ? hsucc).symm
  | ran done h =>
      obtain rfl := habout
      obtain rfl := etag_inj (Option.some.inj htag)
      obtain ⟨row, m, hrow, -, -, rfl⟩ := stampConnector_ok h
      have hid := Store.row?_entityId hrow
      exact Or.inr ⟨_, _, done, _, Table.mem_upsert.mpr (Or.inl rfl), hid, rfl⟩
  | other _ plain =>
      rw [plain] at htag
      cases htag
  | _ => exact habout.elim

namespace Server

variable {ρ : Type} {D : Deployment ρ}

/-- No write takes a version back, and only a deletion of the object takes its row. -/
theorem Wrote.atLeast {req : Incoming} {past : Server → Prop} {π π' : Server}
    (h : Wrote D req past π π') {id : String} {v : I32} (hπ : π.store.AtLeast id v) :
    π'.store.AtLeast id v ∨ ∃ typeId headers, req.route = .api (.itemDelete typeId id headers) := by
  have hstored := h.rewrote
  generalize π'.store = t at hstored ⊢
  cases hstored with
  | same => exact Or.inl hπ
  | served _ route _ _ _ h =>
      rcases h.rows.atLeast hπ with hkept | ⟨typeId, headers, rfl⟩
      · exact Or.inl hkept
      · exact Or.inr ⟨typeId, headers, route⟩
  | promoted _ _ found _ =>
      exact Or.inl (hπ.upsert (Table.mem_of_find? (Store.row?_eq_some.mp found).1) rfl (le_refl _))
  | enrolled _ h =>
      obtain ⟨ents, rows, ids, -, hrows, -, -, rfl⟩ := loginTx_ok h
      exact Or.inl (hπ.insert hrows)

/-- What a request makes of an id that no object has. -/
inductive Mints (req : Incoming) (id : String) : Prop
  | created {typeId : String} {headers : HeaderMap} {body : Body} {td : TypeDef}
      (route : req.route = .api (.collCreate typeId headers body)) (type : td.typeId = typeId)
      (own : id = mint td req.draws.uuid.text)
  | enrolled {name : String} {query : CallbackQuery} (route : req.route = .oauthCallback name query)
      (own : id = "USR_" ++ req.draws.uuid.text)

/-- An object is made under the id that its request mints. -/
theorem Wrote.lacks {req : Incoming} {past : Server → Prop} {π π' : Server}
    (h : Wrote D req past π π') {id : String} (hπ : π.store.Lacks id) :
    π'.store.Lacks id ∨ Mints req id := by
  have hstored := h.rewrote
  generalize π'.store = t at hstored ⊢
  cases hstored with
  | same => exact Or.inl hπ
  | served _ route _ _ _ h =>
      rcases h.rows.lacks hπ with hkept | ⟨typeId, headers, body, td, rfl, type, own⟩
      · exact Or.inl hkept
      · exact Or.inr (.created route type own)
  | promoted _ _ found _ =>
      exact Or.inl (hπ.upsert (Table.mem_of_find? (Store.row?_eq_some.mp found).1) rfl)
  | enrolled vouched h =>
      obtain ⟨ents, rows, ids, -, hrows, -, -, rfl⟩ := loginTx_ok h
      by_cases hid : id = "USR_" ++ req.draws.uuid.text
      · obtain ⟨name, query, nonce, route, -⟩ := vouched
        exact Or.inr (.enrolled route hid)
      · refine Or.inl fun row hrow => ?_
        rcases (Table.mem_insert hrows).mp hrow with hold | rfl
        · exact hπ row hold
        · exact fun hc => hid hc.symm

section Runs

variable [LinearOrder ρ] {reqs : Nat → Incoming} {p₀ p q : Pool Server (Option HttpReply)}
  {i j : Nat} {reply reply' : HttpReply} {e e' : Endpoint} {id : String} {v v' : I32}

/-- A commit that takes the row of an object is one of a request to delete it. -/
theorem Runs.taken (hrun : Runs D reqs q) {c : Commit Server} (hc : c ∈ q.world.log)
    (hbefore : c.before.store.AtLeast id v) (hafter : ¬ c.after.store.AtLeast id v) :
    ∃ typeId headers, (reqs c.who).route = .api (.itemDelete typeId id headers) := by
  obtain ⟨l₁, l₂, hlog⟩ := List.append_of_mem hc
  exact ((hrun.wrote hlog).atLeast hbefore).resolve_left hafter

/-- A tag is the version of the object at a moment between the start of its request and its end. -/
theorem Later.tagged (hlater : Later D reqs p q) (hstart : p.threads.length ≤ i)
    (hdone : q.Finished i (some reply)) (hroute : (reqs i).route = .api e)
    (habout : e.About reply.toResponse id) (htag : reply.etag = some (etag v)) :
    ∃ π, (p.world.since q.world).Visited π ∧ π.store.At id v := by
  have hfine : ¬ reply.Failed := by
    intro hfailed
    rw [hfailed.2] at htag
    cases htag
  obtain ⟨caller, -, htells⟩ := hlater.tells hstart hdone hroute hfine
  rcases htells.tagged habout htag with ⟨s, ⟨π, hπ, rfl⟩, hat⟩ | ⟨s, t, ⟨c, hc, -, -, rfl⟩, hat⟩
  · exact ⟨π, hπ, hat⟩
  · exact ⟨c.after, (Pool.Run.from_since hlater).visited_after c hc, hat⟩

/--
**Tags never go back.**  In every interleaving, when a request about an object was started after
another one about it, whosever, had been answered, its tag is the same or a later version, unless
the object was deleted between the start of the first request and the end of the second.
-/
theorem tags_never_go_back (hrun : Runs D reqs p₀) (hfirst : Later D reqs p₀ p)
    (hsecond : Later D reqs p q) (hi : p₀.threads.length ≤ i) (hj : p.threads.length ≤ j)
    (hdone : p.Finished i (some reply)) (hdone' : q.Finished j (some reply'))
    (hroute : (reqs i).route = .api e) (hroute' : (reqs j).route = .api e')
    (habout : e.About reply.toResponse id) (habout' : e'.About reply'.toResponse id)
    (htag : reply.etag = some (etag v)) (htag' : reply'.etag = some (etag v')) :
    v ≤ v' ∨ ∃ c ∈ (p₀.world.since q.world).log, ∃ typeId headers,
      (reqs c.who).route = .api (.itemDelete typeId id headers) ∧
        c.before.store.AtLeast id v ∧ ¬ c.after.store.AtLeast id v := by
  have hwhole : Runs D reqs q := (hrun.trans hfirst).trans hsecond
  obtain ⟨π, hπ, hat⟩ := hfirst.tagged hi hdone hroute habout htag
  obtain ⟨π', hπ', hat'⟩ := hsecond.tagged hj hdone' hroute' habout' htag'
  rcases Pool.Run.kept_across hfirst hsecond (P := fun π => π.store.AtLeast id v) hπ hπ' hat.atLeast
    with hkept | ⟨c, hc, hbefore, hafter⟩
  · exact Or.inl (hat'.of_atLeast hkept)
  · have hlog : c ∈ q.world.log := Pool.Run.mem_since (Relation.ReflTransGen.trans hfirst hsecond) hc
    obtain ⟨typeId, headers, hdelete⟩ := hwhole.taken hlog hbefore hafter
    exact Or.inr ⟨c, hc, typeId, headers, hdelete, hbefore, hafter⟩

/--
**A deletion is final.**  In every interleaving, when a request about an object was started after
its deletion had been answered with a success, its answer has no tag, unless some request since
minted the very id again.
-/
theorem deletion_is_final (hrun : Runs D reqs p₀) (hfirst : Later D reqs p₀ p)
    (hsecond : Later D reqs p q) (hi : p₀.threads.length ≤ i) (hj : p.threads.length ≤ j)
    (hdone : p.Finished i (some reply)) (hdone' : q.Finished j (some reply')) {typeId : String}
    {headers : HeaderMap} (hroute : (reqs i).route = .api (.itemDelete typeId id headers))
    (hfine : ¬ reply.Failed) (hroute' : (reqs j).route = .api e')
    (habout' : e'.About reply'.toResponse id) :
    (∀ v, reply'.etag ≠ some (etag v)) ∨ ∃ c ∈ (p₀.world.since q.world).log,
      Mints (reqs c.who) id ∧ c.before.store.Lacks id ∧ ¬ c.after.store.Lacks id := by
  have hwhole : Runs D reqs q := (hrun.trans hfirst).trans hsecond
  obtain ⟨d, hd, hlacks⟩ : ∃ d ∈ (p₀.world.since p.world).log, d.after.store.Lacks id := by
    obtain ⟨caller, -, htells⟩ := hfirst.tells hi hdone hroute hfine
    generalize reply.toResponse = resp at htells
    cases htells with
    | deleted done h hit =>
        obtain ⟨d, hd, -, -, rfl⟩ := done
        rcases deleteEntity_ok h with ⟨hmiss, -⟩ | ⟨-, -, hgone⟩
        · exact absurd hmiss hit
        · refine ⟨d, hd, fun row hrow => ?_⟩
          rw [hgone] at hrow
          obtain ⟨old, -, hother, rfl⟩ := Store.mem_entityData_deleted.mp hrow
          rw [old.orphaned_entityId]
          exact hother
    | other h => exact h.elim
  by_cases htagged : ∃ v, reply'.etag = some (etag v)
  · obtain ⟨v, htag⟩ := htagged
    obtain ⟨π, hπ, row, hrow, hid, -⟩ := hsecond.tagged hj hdone' hroute' habout' htag
    rcases Pool.Run.kept_across hfirst hsecond (P := fun π => π.store.Lacks id)
      ((Pool.Run.from_since hfirst).visited_after d hd) hπ hlacks with hstill | ⟨c, hc, hbefore, hafter⟩
    · exact absurd hid (hstill row hrow)
    · have hlog : c ∈ q.world.log :=
        Pool.Run.mem_since (Relation.ReflTransGen.trans hfirst hsecond) hc
      obtain ⟨l₁, l₂, hsplit⟩ := List.append_of_mem hlog
      have hmints := ((hwhole.wrote hsplit).lacks hbefore).resolve_left hafter
      exact Or.inr ⟨c, hc, hmints, hbefore, hafter⟩
  · exact Or.inl fun v htag => htagged ⟨v, htag⟩

end Runs

/-- The tag of the renamed project is no older than that of the new one. -/
theorem evening_tag : ∃ reply reply', noon.Finished 1 (some reply) ∧
    evening.Finished 2 (some reply') ∧ reply.etag = some (etag 1) ∧ reply'.etag = some (etag 2) ∧
    ((1 : I32) ≤ 2 ∨ ∃ c ∈ (morning.world.since evening.world).log, ∃ typeId headers,
      (adasDay c.who).route = .api (.itemDelete typeId launchId headers) ∧
        c.before.store.AtLeast launchId 1 ∧ ¬ c.after.store.AtLeast launchId 1) := by
  obtain ⟨reply, hdone, -, htag, hlocation, -⟩ := noon_answer
  obtain ⟨reply', hdone', -, htag'⟩ := evening_answer
  exact ⟨reply, reply', hdone, hdone', htag, htag', tags_never_go_back morning_runs noon_later
    evening_later (Nat.le_of_eq pauses_facts.1) (Nat.le_of_eq pauses_facts.2.1) hdone hdone' rfl rfl
    hlocation rfl htag htag'⟩

/-! ### The night after -/

/-- After her day Ada deletes the project, and looks for it. -/
def adasNight : Nat → Incoming
  | 3 => { draws := drawsOf (uuidOf 'd' rfl) spareToken, network := providerNet,
           jwt := ⟨fun _ => none, fun _ _ => false, fun _ _ _ _ => none⟩, cookie := some adaCookie,
           route := .api (.itemDelete "project" launchId { ifMatch := some (some "W/\"2\"") }) }
  | 4 => { draws := drawsOf (uuidOf 'e' rfl) spareToken, network := providerNet,
           jwt := ⟨fun _ => none, fun _ _ => false, fun _ _ _ _ => none⟩, cookie := some adaCookie,
           route := .api (.itemGet "project" launchId {}) }
  | n => adasDay n

def dusk : Pool Server (Option HttpReply) :=
  Pool.play (fun n => serve hosted (adasNight n)) (Pool.start booted)
    (.spawn :: .spawn :: .spawn :: (List.replicate 4 (.advance 0) ++
      List.replicate 9 (.advance 1) ++ List.replicate 12 (.advance 2)))

def dark : Pool Server (Option HttpReply) :=
  Pool.play (fun n => serve hosted (adasNight n)) dusk (.spawn :: List.replicate 9 (.advance 3))

def late : Pool Server (Option HttpReply) :=
  Pool.play (fun n => serve hosted (adasNight n)) dark (.spawn :: List.replicate 9 (.advance 4))

theorem night_facts : dusk.threads.length = 3 ∧ dark.threads.length = 4 ∧
    ((dark.answer? 3).join.map fun reply => (reply.status, reply.contentType)) =
      some (204, none) ∧
    ((late.answer? 4).join.map fun reply => reply.status) = some 404 := by
  decide +kernel

/-- Ada does not find the project that she deleted. -/
theorem project_stays_gone : ∃ reply, late.Finished 4 (some reply) ∧ reply.status = 404 ∧
    ((∀ v, reply.etag ≠ some (etag v)) ∨ ∃ c ∈ (dusk.world.since late.world).log,
      Mints (adasNight c.who) launchId ∧ c.before.store.Lacks launchId ∧
        ¬ c.after.store.Lacks launchId) := by
  obtain ⟨reply, hjoin, hfields⟩ := Option.map_eq_some_iff.mp night_facts.2.2.1
  obtain ⟨reply', hjoin', hstatus'⟩ := Option.map_eq_some_iff.mp night_facts.2.2.2
  have hfine : ¬ reply.Failed := by
    rintro ⟨htype, -⟩
    simp only [htype, Prod.mk.injEq, reduceCtorEq, and_false] at hfields
  have hrun : Runs hosted adasNight dusk := Pool.play_run _ _ _
  exact ⟨reply', Pool.finished_of_answer (Option.join_eq_some_iff.mp hjoin'), hstatus',
    deletion_is_final hrun (Pool.play_run _ _ _) (Pool.play_run _ _ _)
      (Nat.le_of_eq night_facts.1) (Nat.le_of_eq night_facts.2.1)
      (Pool.finished_of_answer (Option.join_eq_some_iff.mp hjoin))
      (Pool.finished_of_answer (Option.join_eq_some_iff.mp hjoin')) rfl hfine rfl rfl⟩

end Server

end Numu
