/-
How long a session lives, and where a caller comes from.

A session is opened by a login, and it ends in one of three ways: its thirty days are
over, a logout drops all sessions of its actor, or the actor's entity is removed and
the session with it.  Nothing else ends it, and nothing brings it back: the digest of
its token is drawn once.

Every caller the server ever serves is read off such a session.  So what a request
changes for a caller is, in the end, on behalf of an identity that a provider vouched
for at most thirty days before.
-/
import Numu.Proofs.Mediation
import Numu.Proofs.Oauth

namespace Numu

open Fallible

variable {ρ : Type}

namespace Server

/-! ### The table of sessions -/

theorem insertSession_ok {x : Session} {u : Unit} {π π' : Server}
    (h : insertSession x π = .ok (u, π')) :
    ∃ rows, π.sessions.insert x = some rows ∧ (∀ y ∈ π.sessions, y.tokenHash ≠ x.tokenHash) ∧
      π.store.entities.has x.actorId = true ∧ π' = { π with sessions := rows } := by
  unfold insertSession at h
  cases hrows : π.sessions.insert x with
  | none => simp [hrows] at h
  | some rows =>
      simp only [hrows] at h
      split at h
      · simp at h
      · rename_i hfresh
        split at h
        · rename_i hactor
          obtain ⟨-, rfl⟩ := Prod.mk.inj (Except.ok.inj h)
          refine ⟨rows, rfl, fun y hy heq => hfresh ?_, hactor, rfl⟩
          exact List.any_eq_true.mpr ⟨y, hy, by simpa using heq⟩
        · simp at h

theorem mem_put {σ : Service} {π : Server} {x : Session} :
    x ∈ (service.put σ π).sessions ↔ x ∈ π.sessions ∧ σ.store.entities.has x.actorId = true :=
  Table.mem_filter

/-- Every session has its actor, and no two have one digest. -/
structure SessionsOk (π : Server) : Prop where
  actors : ∀ x ∈ π.sessions, π.store.entities.has x.actorId = true
  digests : ∀ x ∈ π.sessions, ∀ y ∈ π.sessions, x.tokenHash = y.tokenHash → x = y

theorem SessionsOk.put {π : Server} (h : SessionsOk π) (σ : Service) :
    SessionsOk (service.put σ π) where
  actors := fun _ hx => (mem_put.mp hx).2
  digests := fun x hx y hy => h.digests x (mem_put.mp hx).1 y (mem_put.mp hy).1

/-- The caller of a digest is the actor of its session. -/
theorem SessionsOk.caller {π : Server} (h : SessionsOk π) {digest : String} {now : Timestamp}
    {caller : Caller} :
    π.sessionCaller digest now = some caller ↔ ∃ x ∈ π.sessions, x.tokenHash = digest ∧
      now.micros < x.expiresAt ∧ π.store.callerOf x.actorId = some caller := by
  constructor
  · intro hcaller
    obtain ⟨x, hx, hfound⟩ := List.exists_of_findSome?_eq_some hcaller
    by_cases hlive : x.tokenHash = digest ∧ now.micros < x.expiresAt
    · rw [if_pos hlive] at hfound
      exact ⟨x, hx, hlive.1, hlive.2, hfound⟩
    · rw [if_neg hlive] at hfound
      cases hfound
  · rintro ⟨x, hx, hdigest, hlive, hfound⟩
    have hsome : (π.sessionCaller digest now).isSome = true := by
      refine List.findSome?_isSome_iff.mpr ⟨x, hx, ?_⟩
      rw [if_pos ⟨hdigest, hlive⟩, hfound]
      rfl
    obtain ⟨other, hother⟩ := Option.isSome_iff_exists.mp hsome
    obtain ⟨y, hy, hfirst⟩ := List.exists_of_findSome?_eq_some hother
    by_cases hmatch : y.tokenHash = digest ∧ now.micros < y.expiresAt
    · obtain rfl := h.digests y hy x hx (hmatch.1.trans hdigest.symm)
      rw [if_pos hmatch] at hfirst
      rw [hother, ← hfirst, hfound]
    · rw [if_neg hmatch] at hfirst
      cases hfirst

theorem callerOf_actorId {s : Store} {actorId : String} {caller : Caller}
    (h : s.callerOf actorId = some caller) : caller.actorId = actorId := by
  obtain ⟨d, -, rfl⟩ := Option.map_eq_some_iff.mp h
  rfl

/-! ### One write -/

section Write

variable {D : Deployment ρ} {req : Incoming} {past : Server → Prop} {π π' : Server}

/-- A session that was not there was opened by a login. -/
theorem Wrote.opens (h : Wrote D req past π π') {x : Session} (hx : x ∈ π'.sessions)
    (hnew : x ∉ π.sessions) : LogsIn D req past x.actorId ∧
      x = req.draws.session D.sha x.actorId ∧
      insertSession (req.draws.session D.sha x.actorId) π = .ok ((), π') := by
  cases h with
  | counted => exact absurd hx hnew
  | idle => exact absurd (mem_put.mp hx).1 hnew
  | caller known h =>
      cases h with
      | served => exact absurd (mem_put.mp hx).1 hnew
      | promoted => exact absurd (mem_put.mp hx).1 hnew
      | closed => exact absurd (Table.mem_filter.mp hx).1 hnew
  | login h =>
      cases h with
      | enrolled => exact absurd (mem_put.mp hx).1 hnew
      | opened logsIn hinsert =>
          obtain ⟨rows, hrows, -, -, rfl⟩ := insertSession_ok hinsert
          rcases (Table.mem_insert hrows).mp hx with hold | rfl
          · exact absurd hold hnew
          · exact ⟨logsIn, rfl, hinsert⟩

/-- The request logged the actor out: none of its sessions was left. -/
def SignsOut (req : Incoming) (actorId : String) (π π' : Server) : Prop :=
  req.route = .logout ∧ (∃ x ∈ π.sessions, x.actorId = actorId) ∧
    ∀ x ∈ π'.sessions, x.actorId ≠ actorId

/-- A session that was there stays, unless its actor goes or is logged out. -/
theorem Wrote.keeps (h : Wrote D req past π π') {x : Session} (hx : x ∈ π.sessions)
    (hok : SessionsOk π) :
    x ∈ π'.sessions ↔ ¬ SignsOut req x.actorId π π' ∧ π'.store.entities.has x.actorId = true := by
  have hactor := hok.actors x hx
  -- A write that only keeps the sessions of the entities left signs nobody out who is left.
  have hput : ∀ σ : Service, x ∈ (service.put σ π).sessions ↔
      ¬ SignsOut req x.actorId π (service.put σ π) ∧ σ.store.entities.has x.actorId = true := by
    intro σ
    rw [mem_put]
    refine ⟨fun hmem => ⟨fun hout => ?_, hmem.2⟩, fun hmem => ⟨hx, hmem.2⟩⟩
    exact hout.2.2 x (mem_put.mpr hmem) rfl
  cases h with
  | counted => exact ⟨fun _ => ⟨fun hout => hout.2.2 x hx rfl, hactor⟩, fun _ => hx⟩
  | idle => exact hput _
  | caller known h =>
      cases h with
      | served => exact hput _
      | promoted => exact hput _
      | closed route =>
          rename_i caller
          by_cases hself : x.actorId = caller.actorId
          · refine ⟨fun hmem => ?_, fun hstay => ?_⟩
            · exact absurd hself (by simpa using (Table.mem_filter.mp hmem).2)
            · refine absurd ⟨route, ⟨x, hx, rfl⟩, fun y hy => ?_⟩ hstay.1
              rw [hself]
              simpa using (Table.mem_filter.mp hy).2
          · have hmem : x ∈ π.sessions.filter fun y => y.actorId ≠ caller.actorId :=
              Table.mem_filter.mpr ⟨hx, by simpa using hself⟩
            exact ⟨fun _ => ⟨fun hout => hout.2.2 x hmem rfl, hactor⟩, fun _ => hmem⟩
  | login h =>
      cases h with
      | enrolled => exact hput _
      | opened logsIn hinsert =>
          obtain ⟨rows, hrows, -, -, rfl⟩ := insertSession_ok hinsert
          have hmem : x ∈ rows := (Table.mem_insert hrows).mpr (Or.inl hx)
          exact ⟨fun _ => ⟨fun hout => hout.2.2 x hmem rfl, hactor⟩, fun _ => hmem⟩

/-- Every write keeps the sessions in order. -/
theorem Wrote.sessionsOk (h : Wrote D req past π π') (hok : SessionsOk π) : SessionsOk π' := by
  cases h with
  | counted => exact ⟨hok.actors, hok.digests⟩
  | idle => exact hok.put _
  | caller known h =>
      cases h with
      | served => exact hok.put _
      | promoted => exact hok.put _
      | closed =>
          refine ⟨fun x hx => hok.actors x (Table.mem_filter.mp hx).1, fun x hx y hy => ?_⟩
          exact hok.digests x (Table.mem_filter.mp hx).1 y (Table.mem_filter.mp hy).1
  | login h =>
      cases h with
      | enrolled => exact hok.put _
      | opened logsIn hinsert =>
          obtain ⟨rows, hrows, hfresh, hactor, rfl⟩ := insertSession_ok hinsert
          constructor
          · intro x hx
            rcases (Table.mem_insert hrows).mp hx with hold | rfl
            · exact hok.actors x hold
            · exact hactor
          · intro x hx y hy heq
            rcases (Table.mem_insert hrows).mp hx with hx | rfl
            · rcases (Table.mem_insert hrows).mp hy with hy | rfl
              · exact hok.digests x hx y hy heq
              · exact absurd heq (hfresh x hx)
            · rcases (Table.mem_insert hrows).mp hy with hy | rfl
              · exact absurd heq.symm (hfresh y hy)
              · rfl

end Write

/-! ### A session is the last a login writes -/

section Concludes

variable {D : Deployment ρ} {req : Incoming} {Q : Reply → Prop}

end Concludes

/-! ### Every run -/

section Runs

variable [LinearOrder ρ] {D : Deployment ρ} {reqs : Nat → Incoming}
  {p : Pool Server (Option HttpReply)} {l₁ l₂ : List (Commit Server)} {c : Commit Server}

/-- The runs of the server from its first start, with any requests in any order of their steps. -/
abbrev Runs (D : Deployment ρ) (reqs : Nat → Incoming) (p : Pool Server (Option HttpReply)) :
    Prop :=
  Pool.Run (fun n => serve D (reqs n)) (fun _ _ => True) (Pool.start booted) p

theorem Runs.wrote (hrun : Runs D reqs p) (hlog : p.world.log = l₁ ++ c :: l₂) :
    Wrote D (reqs c.who) (Earlier l₁ c) c.before c.after := by
  obtain ⟨m, hseen, hwrote⟩ := Pool.Run.justified hrun
    (W := fun n => Justifies D (reqs n)) (fun n => guarded_serve) hlog
  exact hwrote.mono hseen

/-- What holds at the first start and is kept by every write holds at every moment. -/
theorem Runs.always (hrun : Runs D reqs p) {P : Server → Prop} (hstart : P booted)
    (hstep : ∀ req past π π', Wrote D req past π π' → P π → P π') :
    ∀ π, p.world.Visited π → P π := by
  refine (Pool.Run.from hrun).visited hstart fun c hc hbefore => ?_
  obtain ⟨k, k', hsplit⟩ := List.append_of_mem hc
  exact hstep _ _ _ _ (hrun.wrote hsplit) hbefore

theorem Runs.visited (hrun : Runs D reqs p) (hlog : p.world.log = l₁ ++ c :: l₂) {π : Server}
    (h : Earlier l₁ c π) : p.world.Visited π := by
  rcases h with rfl | ⟨d, hd, rfl | rfl⟩
  · exact Or.inr ⟨c, by simp [hlog], rfl⟩
  · exact Or.inr ⟨d, by simp [hlog, hd], rfl⟩
  · exact (Pool.Run.from hrun).visited_after d (by simp [hlog, hd])

theorem Runs.sessionsOk (hrun : Runs D reqs p) : ∀ π, p.world.Visited π → SessionsOk π := by
  refine hrun.always ?_ fun req past π π' h hok => h.sessionsOk hok
  exact ⟨fun x hx => absurd hx List.not_mem_nil, fun x hx => absurd hx List.not_mem_nil⟩

/--
The login behind a caller: an earlier commit opened a session for this actor, the request presents
its token within thirty days, and at some moment before the commit the actor's row made it this
caller.
-/
inductive LoggedIn (D : Deployment ρ) (reqs : Nat → Incoming) (l : List (Commit Server))
    (c : Commit Server) (caller : Caller) : Prop
  | intro {k k' : List (Commit Server)} {d : Commit Server} {token : String} {π : Server}
      (split : l = k ++ d :: k')
      (login : LogsIn D (reqs d.who) (Earlier k d) caller.actorId)
      (opened : insertSession ((reqs d.who).draws.session D.sha caller.actorId) d.before =
        .ok ((), d.after))
      (presented : (reqs c.who).token = some token)
      (digest : sha256Hex D.sha token = sha256Hex D.sha (reqs d.who).draws.token)
      (inTime : (reqs c.who).draws.now.micros < (reqs d.who).draws.now.micros + thirtyDays)
      (moment : Earlier l c π) (role : π.store.callerOf caller.actorId = some caller)

/-- A caller that a request knows at the end of a part of the log comes from a login in it. -/
theorem Runs.behind (hrun : Runs D reqs p) {l rest : List (Commit Server)}
    (hlog : p.world.log = l ++ rest) (hfrom : World.From booted ⟨c.before, l⟩)
    (hvisited : ∀ π, Earlier l c π → p.world.Visited π) {caller : Caller}
    (h : Known D (reqs c.who) (Earlier l c) caller) : LoggedIn D reqs l c caller := by
  obtain ⟨token, π, htoken, hπ, hcaller⟩ := h
  have hok := hrun.sessionsOk π (hvisited π hπ)
  obtain ⟨x, hx, hdigest, hlive, hrole⟩ := hok.caller.mp hcaller
  have hthrough : (World.commit ⟨c.before, l⟩ c.who fun _ => c.after).log = l ++ c :: [] := rfl
  obtain ⟨l', ⟨rest', rfl⟩, hfrom'⟩ := (hfrom.commit c.who fun _ => c.after).earlier hthrough hπ
  -- The commit that opened the session.
  obtain ⟨k, d, k', hsplit, hbefore, hafter, -⟩ :=
    hfrom'.gained (P := fun π => x ∈ π.sessions) List.not_mem_nil hx
  have hsplit : l' = k ++ d :: k' := hsplit
  subst hsplit
  have hearlier : k ++ d :: k' ++ rest' = k ++ d :: (k' ++ rest') := by simp
  have hd : p.world.log = k ++ d :: (k' ++ rest' ++ rest) := by simp [hlog]
  obtain ⟨hlogin, hrow, hopened⟩ := (hrun.wrote hd).opens hafter hbefore
  have hactor := callerOf_actorId hrole
  rw [← hactor] at hlogin hopened hrole
  rw [hrow] at hdigest hlive
  exact .intro hearlier hlogin hopened htoken hdigest.symm hlive hπ hrole

/-- A caller that a request knows comes from a login. -/
theorem Runs.loggedIn (hrun : Runs D reqs p) (hlog : p.world.log = l₁ ++ c :: l₂)
    {caller : Caller} (h : Known D (reqs c.who) (Earlier l₁ c) caller) :
    LoggedIn D reqs l₁ c caller :=
  hrun.behind hlog ((Pool.Run.from hrun).upTo hlog) (fun _ hπ => hrun.visited hlog hπ) h

/--
**Nothing is written on nobody's behalf.**  In every interleaving of any requests, each commit
changes nothing but the counters of the limiter, or is a login's, or is made for a caller: one with
a login of the last thirty days behind it, by an endpoint that was authorized for that caller, by
the first-admin claim for the caller itself, or by the caller's logout.
-/
theorem behind_every_change (hrun : Runs D reqs p) (hlog : p.world.log = l₁ ++ c :: l₂) :
    (∃ b, c.after = { c.before with buckets := b }) ∨
      ByLogin D (reqs c.who) (Earlier l₁ c) c.before c.after ∨
      ∃ caller, LoggedIn D reqs l₁ c caller ∧
        ByCaller (reqs c.who) (Earlier l₁ c) caller c.before c.after := by
  have hok := hrun.sessionsOk c.before (hrun.visited hlog (Or.inl rfl))
  have hwrote := hrun.wrote hlog
  generalize hbefore : c.before = π at *
  generalize hafter : c.after = π' at *
  cases hwrote with
  | counted => exact Or.inl ⟨_, rfl⟩
  | idle =>
      -- No session is left behind by its actor.
      refine Or.inl ⟨π.buckets, ?_⟩
      have hsame : cascade π.sessions π.store = π.sessions :=
        Table.ext (List.filter_eq_self.mpr hok.actors)
      show { π with sessions := cascade π.sessions π.store } = π
      rw [hsame]
  | caller known h => exact Or.inr (Or.inr ⟨_, hrun.loggedIn hlog known, h⟩)
  | login h => exact Or.inr (Or.inl h)

end Runs

/-! ### A day of the server -/

/-- A uuid of one digit. -/
def uuidOf (digit : Char) (h : isUuidDigit digit = true) : Uuid :=
  ⟨List.replicate 32 digit, List.length_replicate, by simp [h]⟩

/-- A request of that day mints one uuid throughout. -/
def drawsOf (u : Uuid) (token : Uuid × Uuid) : Draws where
  now := { micros := 1700000000000000 }
  unix := 1700000000
  requestUuid := u
  traceUuid := u
  uuid := u
  sessionUuid := u
  tokenUuids := token

def adaToken : Uuid × Uuid := (uuidOf '1' rfl, uuidOf '2' rfl)

def spareToken : Uuid × Uuid := (uuidOf '0' rfl, uuidOf '0' rfl)

/-- The digest of the token of Ada's login. -/
def adaDigest : Digest :=
  ⟨[226, 2, 134, 78, 56, 221, 107, 80, 194, 85, 243, 125, 52, 146, 188, 50,
    82, 243, 69, 226, 50, 156, 102, 155, 84, 95, 215, 144, 240, 8, 72, 244], rfl⟩

/-- The digest of sixty-four zeros. -/
def spareDigest : Digest :=
  ⟨[96, 224, 91, 209, 177, 149, 175, 47, 148, 17, 47, 167, 25, 122, 92, 136,
    40, 144, 88, 132, 12, 231, 198, 223, 150, 147, 117, 107, 198, 37, 15, 85], rfl⟩

def accessBytes : List UInt8 := Text.utf8Bytes "\x7b\"access_token\":\"at\"\x7d".toList

def userBytes : List UInt8 := Text.utf8Bytes "\x7b\"sub\":\"7\"\x7d".toList

/-- The provider answers its two endpoints, for a user without an email or a name. -/
def providerNet : Network where
  parse url :=
    if url = "https://oauth2.googleapis.com/token" then
      some ⟨"https", some "oauth2.googleapis.com", some 443⟩
    else if url = "https://openidconnect.googleapis.com/v1/userinfo" then
      some ⟨"https", some "openidconnect.googleapis.com", some 443⟩
    else none
  lookupHost _ _ := some [⟨.v4 ⟨142, 250, 74, 74⟩, 443⟩]
  buildError _ := none
  send _ _ outgoing :=
    match outgoing with
    | .post _ => .ok ⟨200, .ok accessBytes⟩
    | .get _ => .ok ⟨200, .ok userBytes⟩
  fromSlice bytes :=
    if bytes = accessBytes then some (.obj [("access_token", .str "at")])
    else if bytes = userBytes then some (.obj [("sub", .str "7")])
    else none

/-- A release build with one provider. -/
def hosted : Deployment Nat where
  release := true
  env key :=
    if key = "GOOGLE_CLIENT_ID" then some "numu"
    else if key = "GOOGLE_CLIENT_SECRET" then some "secret"
    else if key = "GOOGLE_REDIRECT_URI" then some "https://numu.example/auth/google/callback"
    else none
  sha bytes := if bytes = Text.utf8Bytes (drawsOf (uuidOf 'a' rfl) adaToken).token.toList then adaDigest
    else spareDigest
  mac := loginEnv.mac
  limiter := ⟨10, 60⟩
  text := { hits := fun _ _ => false, rank := fun _ _ => 0, place := fun _ => 0,
            shown := fun _ => .null, textOf := fun _ => "", title := fun _ _ _ id => id }
  display _ := ""
  reason _ := none
  showStatus _ := ""
  withParams _ _ := none
  reload := none

/-- The `Cookie` header that Ada's browser sends after the login. -/
def adaCookie : List UInt8 :=
  Text.utf8Bytes (sessionCookie ++ "=" ++ (drawsOf (uuidOf 'a' rfl) adaToken).token).toList

/-- Ada logs in for the first time, creates a project and renames it. -/
def adasDay : Nat → Incoming
  | 0 => { draws := drawsOf (uuidOf 'a' rfl) adaToken, network := providerNet,
           jwt := ⟨fun _ => none, fun _ _ => false, fun _ _ _ _ => none⟩,
           cookie := some stateHeader, route := .oauthCallback "google" ⟨"code", "st_0"⟩ }
  | 1 => { draws := drawsOf (uuidOf 'b' rfl) spareToken, network := providerNet,
           jwt := ⟨fun _ => none, fun _ _ => false, fun _ _ _ _ => none⟩, cookie := some adaCookie,
           route := .api (.collCreate "project" versionOne launchBody) }
  | 2 => { draws := drawsOf (uuidOf 'c' rfl) spareToken, network := providerNet,
           jwt := ⟨fun _ => none, fun _ _ => false, fun _ _ _ _ => none⟩, cookie := some adaCookie,
           route := .api (.itemUpdate .patch "project" ("PRJ_" ++ (uuidOf 'b' rfl).text) versionOne
             (.ok ⟨.obj [("name", .str "Lift-off")], by simp [JsonMap.keys]⟩)) }
  | _ => { draws := drawsOf (uuidOf '0' rfl) spareToken, network := providerNet,
           jwt := ⟨fun _ => none, fun _ _ => false, fun _ _ _ _ => none⟩, route := .healthz }

/-- The requests start together and run one after another. -/
def adasRun : Pool Server (Option HttpReply) :=
  Pool.play (fun n => serve hosted (adasDay n)) (Pool.start booted)
    ([.spawn, .spawn, .spawn] ++ List.replicate 4 (.advance 0) ++ List.replicate 9 (.advance 1) ++
      List.replicate 12 (.advance 2))

theorem adasRun_runs : Runs hosted adasDay adasRun := Pool.play_run _ _ _

/-- Ada, under the id of her first login. -/
def ada : Caller := ⟨"USR_" ++ (uuidOf 'a' rfl).text, false⟩

/-- What that day left: the answer of the login, the commit that created the project for Ada, the one
that rewrote its row, and the tables in the evening. -/
theorem adasRun_facts :
    ((adasRun.answer? 0).join.map fun reply => reply.setCookies.length) = some 2 ∧
      (adasRun.world.log.any fun c => c.who = 1 && c.before.store.memberships.rows.isEmpty &&
        !c.after.store.memberships.rows.isEmpty &&
        c.before.sessionCaller (sha256Hex hosted.sha (drawsOf (uuidOf 'a' rfl) adaToken).token)
          (adasDay 1).draws.now = some ada) = true ∧
      (adasRun.world.log.any fun c => c.before.store.entityData.rows.any fun row =>
        !adasRun.world.now.store.entityData.rows.contains row) = true ∧
      adasRun.world.now.store.memberships.rows.length = 1 ∧
      adasRun.world.now.store.events.length = 2 := by
  decide +kernel

theorem adasRun_created : ∃ l₁ c l₂, adasRun.world.log = l₁ ++ c :: l₂ ∧ c.who = 1 ∧
    c.before.store.memberships.rows = [] ∧ c.after.store.memberships.rows ≠ [] ∧
    c.before.sessionCaller (sha256Hex hosted.sha (drawsOf (uuidOf 'a' rfl) adaToken).token)
      (adasDay 1).draws.now = some ada := by
  obtain ⟨c, hc, hchecks⟩ := List.any_eq_true.mp adasRun_facts.2.1
  simp only [Bool.and_eq_true, decide_eq_true_eq, List.isEmpty_iff, Bool.not_eq_true',
    List.isEmpty_eq_false_iff] at hchecks
  obtain ⟨⟨⟨hwho, hbefore⟩, hafter⟩, hcaller⟩ := hchecks
  obtain ⟨l₁, l₂, hlog⟩ := List.append_of_mem hc
  exact ⟨l₁, c, l₂, hlog, hwho, hbefore, hafter, hcaller⟩

theorem adasRun_rewritten : ∃ l₁ c l₂, adasRun.world.log = l₁ ++ c :: l₂ ∧
    ∃ row ∈ c.before.store.entityData, row ∉ adasRun.world.now.store.entityData := by
  obtain ⟨c, hc, hlost⟩ := List.any_eq_true.mp adasRun_facts.2.2.1
  obtain ⟨row, hrow, hgone⟩ := List.any_eq_true.mp hlost
  obtain ⟨l₁, l₂, hlog⟩ := List.append_of_mem hc
  exact ⟨l₁, c, l₂, hlog, row, hrow, by simpa [Table.mem_def] using hgone⟩

/-- The commit that gives out the first role of that day is made for somebody. -/
theorem ada_behind_her_project : ∃ l₁ c l₂, adasRun.world.log = l₁ ++ c :: l₂ ∧
    c.before.store.memberships.rows = [] ∧ c.after.store.memberships.rows ≠ [] ∧
    ((∃ b, c.after = { c.before with buckets := b }) ∨
      ByLogin hosted (adasDay c.who) (Earlier l₁ c) c.before c.after ∨
      ∃ caller, LoggedIn hosted adasDay l₁ c caller ∧
        ByCaller (adasDay c.who) (Earlier l₁ c) caller c.before c.after) := by
  obtain ⟨l₁, c, l₂, hlog, -, hbefore, hafter, -⟩ := adasRun_created
  exact ⟨l₁, c, l₂, hlog, hbefore, hafter, behind_every_change adasRun_runs hlog⟩

end Server

end Numu
