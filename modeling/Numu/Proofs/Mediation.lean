/-
Nothing is written on nobody's behalf.

The server lets a request change the database in three ways: as the statement of an
endpoint, for a caller it was given by the cookie and for whom the gates answered; as
a login, for an identity a provider vouched for; and, in debug builds, as a dev
login.  `Server.Wrote` is that list, with what the request knew when it wrote.  What
it knew is about moments before the write, so nothing here depends on the order in
which the steps of different requests come.

A caller is known by a session.  Sessions are rows like any other, and only logins
put them in.  So behind every change there is a login that is still in the log.
-/
import Numu.Proofs.Checks
import Numu.Proofs.Logins

namespace Numu

open Fallible

variable {ρ : Type}

/-! ### What a request knows -/

/-- The token of the cookie. -/
def Incoming.token (req : Incoming) : Option String := (req.cookie.bind toStr?).bind cookieToken

/-- The registry stays, or it is what was loaded of the database at one of the moments. -/
def Loaded (past : Service → Prop) (σ τ : Service) : Prop :=
  τ.registry = σ.registry ∨ ∃ υ, past υ ∧ τ.registry = υ.store.typeDefinitions

namespace Server

section Knowledge

variable (D : Deployment ρ) (req : Incoming) (past : Server → Prop)

/-- At one of the moments the token was that of a session, and the session made it this caller. -/
def Known (caller : Caller) : Prop :=
  ∃ token π, req.token = some token ∧ past π ∧
    π.sessionCaller (sha256Hex D.sha token) req.draws.now = some caller

/-- The provider vouched for the identity, in answer to the code of this flow. -/
def Vouched (p : Provider) (identity : Identity) : Prop :=
  ∃ name q nonce, req.route = .oauthCallback name q ∧
    callbackGate (oauthEnv D req) name q req.cookie = .ok (.ok (p, nonce)) ∧
    fetchIdentity req.jwt (fetcher D req) p q.code nonce = .ok identity

/-- Whom the request may log in. -/
inductive LogsIn (actorId : String) : Prop
  | provider {p : Provider} {identity : Identity} (vouched : Vouched D req p identity)
      (linked : ∃ π, past π ∧ π.store.linkedActor (p.name, identity.sub) = some actorId)
  | dev {body : Option (Option String)} (debug : D.release = false)
      (route : req.route = .devLogin body) (asked : body.join.getD "USR_dev" = actorId)
      (there : ∃ π, past π ∧ (π.store.row? actorId "actor").isSome = true)

/-- The moments of the database. -/
def stores (s : Store) : Prop := ∃ π, past π ∧ π.store = s

/-- The moments of the process. -/
def services (σ : Service) : Prop := ∃ π, past π ∧ π.toService = σ

/-- A write for a caller: by an endpoint that was authorized and checked its rows, by the
first-admin claim, by the logout. -/
inductive ByCaller (caller : Caller) : Server → Server → Prop
  | served {π υ : Server} {σ : Service} {e : Endpoint} (route : req.route = .api e)
      (seen : past υ)
      (authorized : e.Authorized (stores past) caller υ.toAppState π.store σ.store)
      (checked : e.Checked (stores past) υ.toAppState (requestCtx req.requestId req.draws)
        π.store σ.store)
      (loaded : Loaded (services past) π.toService σ)
      (changed : e.Changed req.draws (requestCtx req.requestId req.draws) caller π.toService σ) :
      ByCaller caller π (service.put σ π)
  | promoted {π : Server} {taken : Bool} {n : Nat} {s : Store} (route : req.route = .claimAdmin)
      (h : promoteUnless taken caller.actorId π.store = .ok (n, s)) :
      ByCaller caller π (service.put { π.toService with store := s } π)
  | closed {π : Server} (route : req.route = .logout) :
      ByCaller caller π
        { π with sessions := π.sessions.filter fun x => x.actorId ≠ caller.actorId }

/-- A write of a login: a first one links its identity, and each opens a session. -/
inductive ByLogin : Server → Server → Prop
  | enrolled {π : Server} {p : Provider} {identity : Identity} {s : Store}
      (vouched : Vouched D req p identity)
      (h : loginTx ("USR_" ++ req.draws.uuid.text) p.name identity.sub identity.name
        identity.email req.draws.now π.store = .ok ((), s)) :
      ByLogin π (service.put { π.toService with store := s } π)
  | opened {π π' : Server} {actorId : String} (logsIn : LogsIn D req past actorId)
      (h : insertSession (req.draws.session D.sha actorId) π = .ok ((), π')) : ByLogin π π'

/-- One write of a request, from the server before it to the one after. -/
inductive Wrote : Server → Server → Prop
  | counted {π : Server} {b : Buckets} : Wrote π { π with buckets := b }
  | idle {π : Server} : Wrote π (service.put π.toService π)
  | caller {π π' : Server} {caller : Caller} (known : Known D req past caller)
      (h : ByCaller req past caller π π') : Wrote π π'
  | login {π π' : Server} (h : ByLogin D req past π π') : Wrote π π'

end Knowledge

section Mono

variable {D : Deployment ρ} {req : Incoming} {past past' : Server → Prop}

theorem Loaded.mono {past past' : Service → Prop} {σ τ : Service} (h : Loaded past σ τ)
    (hp : ∀ υ, past υ → past' υ) : Loaded past' σ τ := by
  rcases h with hsame | ⟨υ, hυ, hloaded⟩
  · exact Or.inl hsame
  · exact Or.inr ⟨υ, hp υ hυ, hloaded⟩

theorem Known.mono {caller : Caller} (h : Known D req past caller)
    (hp : ∀ π, past π → past' π) : Known D req past' caller := by
  obtain ⟨token, π, htoken, hπ, hcaller⟩ := h
  exact ⟨token, π, htoken, hp π hπ, hcaller⟩

theorem LogsIn.mono {actorId : String} (h : LogsIn D req past actorId)
    (hp : ∀ π, past π → past' π) : LogsIn D req past' actorId := by
  cases h with
  | provider vouched linked =>
      obtain ⟨π, hπ, hlinked⟩ := linked
      exact .provider vouched ⟨π, hp π hπ, hlinked⟩
  | dev debug route asked there =>
      obtain ⟨π, hπ, hrow⟩ := there
      exact .dev debug route asked ⟨π, hp π hπ, hrow⟩

theorem ByCaller.mono {caller : Caller} {π π' : Server} (h : ByCaller req past caller π π')
    (hp : ∀ π, past π → past' π) : ByCaller req past' caller π π' := by
  cases h with
  | served route seen authorized checked loaded changed =>
      have hstores : ∀ s, stores past s → stores past' s := by
        rintro s ⟨u, hu, hs⟩
        exact ⟨u, hp u hu, hs⟩
      have hservices : ∀ υ, services past υ → services past' υ := by
        rintro υ ⟨u, hu, hs⟩
        exact ⟨u, hp u hu, hs⟩
      exact .served route (hp _ seen) (authorized.mono hstores) (checked.mono hstores)
        (Loaded.mono loaded hservices) changed
  | promoted route h => exact .promoted route h
  | closed route => exact .closed route

/-- A write stays justified when more moments are looked at. -/
theorem Wrote.mono {π π' : Server} (h : Wrote D req past π π') (hp : ∀ π, past π → past' π) :
    Wrote D req past' π π' := by
  cases h with
  | counted => exact .counted
  | idle => exact .idle
  | caller known h => exact .caller (known.mono hp) (h.mono hp)
  | login h =>
      cases h with
      | enrolled vouched h => exact .login (.enrolled vouched h)
      | opened logsIn h => exact .login (.opened (logsIn.mono hp) h)

end Mono

/-! ### The endpoints -/

section Endpoints

variable [LinearOrder ρ] {D : Deployment ρ} {req : Incoming} {ctx : RequestCtx} {caller : Caller}

/-- The writes of the service that the moments so far authorize and check. -/
def MayChange (e : Endpoint) (ctx : RequestCtx) (caller : Caller) (m : List (Glance Service))
    (σ τ : Service) : Prop :=
  (∃ υ, Seen m υ ∧
    e.Authorized (fun s => ∃ u, Seen m u ∧ u.store = s) caller υ.toAppState σ.store τ.store ∧
    e.Checked (fun s => ∃ u, Seen m u ∧ u.store = s) υ.toAppState ctx σ.store τ.store) ∧
  Loaded (Seen m) σ τ

/-- A handler whose writes are authorized and checked is a program of the service whose writes
are. -/
theorem guarded_handle {e : Endpoint} {h : AppState → Handler Response}
    (hh : ∀ st, GuardedBy st caller e (h st)) (hc : ∀ st, ChecksRows st ctx e (h st))
    (m : List (Glance Service)) :
    Guarded (MayChange e ctx caller) (fun _ _ => True) (Service.handle h) m := by
  refine guarded_query_bind fun υ => ?_
  have hzoom := guarded_zoom (z := Service.database) (m := .read υ :: m) (guarded_and
    (hh υ.toAppState ((Glance.read υ :: m).map (Glance.zoom Service.database)))
    (hc υ.toAppState ((Glance.read υ :: m).map (Glance.zoom Service.database))))
  refine guarded_justify hzoom ?_
  -- What the process read first stays in the memory of the handler.
  rintro m' hm σ τ ⟨s, hs, rfl⟩
  have hseen : ∀ u, Seen (m'.map (Glance.zoom Service.database)) u →
      ∃ t, Seen m' t ∧ t.store = u := by
    intro u hu
    obtain ⟨t, ht, rfl⟩ := hu.of_zoom
    exact ⟨t, ht, rfl⟩
  exact ⟨⟨υ, Seen.read.mono hm, hs.1.mono hseen, hs.2.mono hseen⟩, Or.inl rfl⟩

theorem guarded_createType {display : Json → String} {spec : Except String TypeSpec}
    (m : List (Glance Service)) :
    Guarded (MayChange (.createType spec) ctx caller) (fun _ _ => True)
      (createType display ctx caller spec) m := by
  refine guarded_ensure_bind fun hadmin => ?_
  refine guarded_check_bind fun input _ => ?_
  refine guarded_query_bind fun υ => ?_
  have hmay : ∀ {m' : List (Glance Service)} {σ τ : Service}, Glance.read υ :: m <:+ m' →
      Loaded (Seen m') σ τ → MayChange (.createType spec) ctx caller m' σ τ :=
    fun hm hloaded => ⟨⟨υ, Seen.read.mono hm, hadmin, trivial⟩, hloaded⟩
  refine guarded_check_bind fun _ _ => ?_
  refine guarded_attempt_bind (fun σ _ τ h => ⟨hmay (List.suffix_refl _) (Or.inl ?_), ?_⟩)
    fun _ _ _ => hmay (List.suffix_refl _) (Or.inl rfl)
  · split at h
    · obtain ⟨-, rfl⟩ := Prod.mk.inj (Except.ok.inj h)
      rfl
    · cases h
  -- What is published was loaded just before.
  refine guarded_query_bind fun loaded => ?_
  have hm : Glance.read υ :: m <:+ .read loaded :: .write σ τ :: .read υ :: m :=
    (List.suffix_cons _ _).trans (List.suffix_cons _ _)
  refine guarded_attempt_bind (fun σ' _ τ' h' => ⟨hmay hm (Or.inr ⟨loaded, .read, ?_⟩), ?_⟩)
    fun _ _ h' => by cases h'
  · obtain ⟨-, rfl⟩ := Prod.mk.inj (Except.ok.inj h')
    rfl
  refine guarded_attempt_bind (fun π _ π' h'' => ⟨hmay (hm.trans (List.suffix_cons _ _))
    (Or.inl ?_), guarded_pure trivial⟩) fun _ _ _ =>
      hmay (hm.trans (List.suffix_cons _ _)) (Or.inl rfl)
  split at h''
  · obtain ⟨-, rfl⟩ := Prod.mk.inj (Except.ok.inj h'')
    rfl
  · obtain ⟨-, rfl⟩ := Prod.mk.inj (Except.ok.inj h'')
    rfl

/-- The same where the endpoint stores no data of the caller's. -/
theorem guarded_unchecked {e : Endpoint} {h : AppState → Handler Response}
    (hh : ∀ st, GuardedBy st caller e (h st)) (m : List (Glance Service))
    (he : ∀ past st s t, e.Checked past st ctx s t := by exact fun _ _ _ _ => trivial) :
    Guarded (MayChange e ctx caller) (fun _ _ => True) (Service.handle h) m :=
  guarded_handle hh (fun st => checksRows_of_forall fun past s t => he past st s t) m

theorem guarded_reading {e : Endpoint} {h : AppState → Handler Response}
    (hr : ∀ st, ReadOnly (h st)) (m : List (Glance Service))
    (he : ∀ past st s t, e.Checked past st ctx s t := by exact fun _ _ _ _ => trivial) :
    Guarded (MayChange e ctx caller) (fun _ _ => True) (Service.handle h) m :=
  guarded_unchecked (fun st => guarded_readOnly (hr st)) m he

/-- Every write of an endpoint is authorized and checked. -/
theorem guarded_endpoint (e : Endpoint) (m : List (Glance Service)) :
    Guarded (MayChange e ctx caller) (fun _ _ => True) (endpoint D req ctx caller e) m := by
  cases e with
  | collGet => exact guarded_reading (fun _ => readOnly_collGet) m
  | collHead => exact guarded_reading (fun _ => readOnly_collHead) m
  | collCreate => exact guarded_handle (fun _ => authorized_collCreate) (fun _ => checksRows_collCreate) m
  | collOptions => exact guarded_reading (fun _ => readOnly_collOptions) m
  | m405Coll => exact guarded_reading (fun _ => readOnly_m405) m
  | itemGet => exact guarded_reading (fun _ => readOnly_itemGet) m
  | itemHead => exact guarded_reading (fun _ => readOnly_itemHead) m
  | itemUpdate => exact guarded_handle (fun _ => authorized_itemUpdate) (fun _ => checksRows_itemUpdate) m
  | itemDelete => exact guarded_unchecked (fun _ => authorized_itemDelete) m
  | itemOptions => exact guarded_reading (fun _ => readOnly_itemOptions) m
  | m405Item => exact guarded_reading (fun _ => readOnly_m405) m
  | listMembers => exact guarded_reading (fun _ => readOnly_listMembers) m
  | addMember => exact guarded_unchecked (fun _ => authorized_addMember) m
  | setMember => exact guarded_unchecked (fun _ => authorized_setMember) m
  | removeMember => exact guarded_unchecked (fun _ => authorized_removeMember) m
  | recordCheck => exact guarded_unchecked (fun _ => authorized_recordCheck) m
  | listTypes => exact guarded_reading (fun _ => readOnly_pure _) m
  | getType => exact guarded_reading (fun _ => readOnly_getType) m
  | createType => exact guarded_createType m
  | createRelation => exact guarded_unchecked (fun _ => authorized_createRelation) m
  | listRelations => exact guarded_reading (fun _ => readOnly_listRelations) m
  | deleteRelation => exact guarded_unchecked (fun _ => authorized_deleteRelation) m
  | search => exact guarded_reading (fun _ => readOnly_search) m
  | startRun => exact guarded_unchecked (fun _ => authorized_startRun) m
  | listRuns => exact guarded_reading (fun _ => readOnly_listRuns) m
  | getRun => exact guarded_reading (fun _ => readOnly_getRun) m
  | recordHandoff =>
      exact guarded_handle (fun _ => authorized_recordHandoff) (fun _ => checksRows_recordHandoff) m
  | runConnector => exact guarded_unchecked (fun _ => authorized_runConnector) m
  | echo => exact guarded_reading (fun _ => readOnly_echo) m
  | setLogLevel => exact guarded_unchecked (fun _ => authorized_setLogLevel) m

end Endpoints

/-! ### The routes -/

section Routes

variable {D : Deployment ρ} {req : Incoming} {m : List (Glance Server)}

/-- The writes of a request that its memory justifies. -/
abbrev Justifies (D : Deployment ρ) (req : Incoming) (m : List (Glance Server)) :
    Server → Server → Prop :=
  Wrote D req (Seen m)

/-- A handler that asks for a caller goes on for one it knows. -/
theorem guarded_authed {h : Caller → Fallible AppError Server Reply}
    {Q : Reply → List (Glance Server) → Prop}
    (hh : ∀ caller m', m <:+ m' → Known D req (Seen m') caller →
      Guarded (Justifies D req) Q (h caller) m') :
    Guarded (Justifies D req) Q (authed D req h) m := by
  refine guarded_bind ?_
  refine guarded_getOr_bind fun token htoken => ?_
  refine guarded_query_bind fun π => ?_
  show Guarded _ _ (getOr (π.sessionCaller (sha256Hex D.sha token) req.draws.now) _) _
  cases hcaller : π.sessionCaller (sha256Hex D.sha token) req.draws.now with
  | none => exact guarded_throw _
  | some caller =>
      exact guarded_pure (hh caller _ (List.suffix_cons _ m) ⟨token, π, htoken, .read, hcaller⟩)

/-- The limiter only counts. -/
theorem guarded_limited {ctx : RequestCtx} {h : Fallible AppError Server Reply}
    {Q : Reply → List (Glance Server) → Prop}
    (hh : ∀ m', m <:+ m' → Guarded (Justifies D req) Q h m') :
    Guarded (Justifies D req) Q (limited D req ctx h) m := by
  refine guarded_attempt_bind (fun π ok π' hallow => ?_) fun π e hfail => ?_
  · obtain ⟨-, rfl⟩ := Prod.mk.inj (Except.ok.inj hallow)
    exact ⟨.counted, guarded_ensure_bind fun _ => hh _ (List.suffix_cons _ m)⟩
  · cases hfail

theorem guarded_onService {p : Fallible AppError Service Response}
    {W : List (Glance Service) → Service → Service → Prop}
    (hp : Guarded W (fun _ _ => True) p (m.map (Glance.zoom service)))
    (hW : ∀ m', m <:+ m' → ∀ π σ, W (m'.map (Glance.zoom service)) π.toService σ →
      Justifies D req m' π (service.put σ π)) :
    Guarded (Justifies D req) (fun _ _ => True) (onService p) m := by
  refine guarded_bind ?_
  refine guarded_weaken (guarded_justify (guarded_zoom hp) ?_) fun _ _ _ => guarded_pure trivial
  rintro m' hm π π' ⟨σ, hσ, rfl⟩
  exact hW m' hm π σ hσ

/-- The claim writes its own caller, or nothing. -/
theorem writes_claim {caller : Caller} :
    Writes (fun s t => t = s ∨ ∃ taken n, promoteUnless taken caller.actorId s = .ok (n, t))
      (claimAdminSnapshot caller) := by
  refine writes_bind (readOnly_query _).writes fun taken => ?_
  refine writes_bind (writes_execute (fun _ => Or.inl rfl) fun s n t h =>
    Or.inr ⟨taken, n, h⟩) fun n => ?_
  exact writes_bind (readOnly_ensure _ _).writes fun _ => (readOnly_pure _).writes

theorem guarded_claim (hroute : req.route = .claimAdmin) :
    Guarded (Justifies D req) (fun _ _ => True) (authed D req fun caller =>
      onService (Service.handle fun _ => claimAdminSnapshot caller)) m := by
  refine guarded_authed fun caller m' hm hknown => ?_
  refine guarded_onService (W := fun _ σ τ => ∃ s, (s = σ.store ∨ ∃ taken n,
    promoteUnless taken caller.actorId σ.store = .ok (n, s)) ∧ τ = { σ with store := s }) ?_ ?_
  · refine guarded_query_bind fun υ => ?_
    exact guarded_of_writes (writes_zoom (z := Service.database) writes_claim)
      (fun _ _ _ h => h) _
  · rintro m'' hm' π σ ⟨s, hs, rfl⟩
    rcases hs with rfl | ⟨taken, n, h⟩
    · exact .idle
    · exact .caller (hknown.mono fun _ h => h.mono hm') (.promoted hroute h)

theorem guarded_logout (hroute : req.route = .logout) :
    Guarded (Justifies D req) (fun _ _ => True)
      (authed D req fun caller => logout D.secure caller) m := by
  refine guarded_authed fun caller m' hm hknown => ?_
  refine guarded_attempt_bind (fun π _ π' h => ?_) fun π e h => ?_
  · obtain ⟨-, rfl⟩ := Prod.mk.inj (Except.ok.inj h)
    exact ⟨.caller hknown (.closed hroute), guarded_pure trivial⟩
  · cases h

/-- What a login left behind: a session, and the cookie for it. -/
def Minted (D : Deployment ρ) (req : Incoming) (cookie : String) (m : List (Glance Server)) :
    Prop :=
  cookie = sessionCookie ++ "=" ++ req.draws.token ++ cookieAttributes 2592000 D.secure ∧
    ∃ π π' actorId, Glance.write π π' ∈ m ∧ LogsIn D req (Seen m) actorId ∧
      insertSession (req.draws.session D.sha actorId) π = .ok ((), π')

theorem guarded_mintSession {actorId : String} (hin : LogsIn D req (Seen m) actorId) :
    Guarded (Justifies D req) (fun cookie m' => Minted D req cookie m')
      (mintSession D.sha req.draws D.secure actorId) m := by
  refine guarded_attempt_bind (fun π _ π' h => ?_) fun π e h => .counted
  have hinsert : insertSession (req.draws.session D.sha actorId) π = .ok ((), π') := by
    cases hrun : insertSession (req.draws.session D.sha actorId) π with
    | error e => simp [hrun, Except.mapError] at h
    | ok r => simpa [hrun, Except.mapError] using h
  refine ⟨.login (.opened hin hinsert), guarded_pure ⟨rfl, π, π', actorId, ?_⟩⟩
  exact ⟨List.mem_cons_self, hin.mono fun _ hs => hs.cons, hinsert⟩

theorem guarded_devLogin {body : Option (Option String)} (hroute : req.route = .devLogin body)
    (hdebug : D.release = false) :
    Guarded (Justifies D req)
      (fun reply m' => ∃ cookie, reply.setCookies.head? = some cookie ∧ Minted D req cookie m')
      (devLogin D.sha req.draws D.secure body) m := by
  refine guarded_query_bind fun π => ?_
  refine guarded_ensure_bind fun hrow => ?_
  refine guarded_bind (guarded_weaken (guarded_mintSession ?_) fun cookie m' h => ?_)
  · exact .dev hdebug hroute rfl ⟨π, .read, hrow⟩
  · exact guarded_pure ⟨cookie, rfl, h⟩

/-- A login looks the identity up or links it, and ends with the actor it is linked to. -/
theorem guarded_upsertIdentity (env : Ambient) (provider sub : String) (email : Option String)
    (name : String) {k : List (Glance Store)} :
    Guarded (fun _ s t => t = s ∨
        loginTx ("USR_" ++ env.uuid) provider sub name email env.now s = .ok ((), t))
      (fun actorId k' => ∃ s, Seen k' s ∧ s.linkedActor (provider, sub) = some actorId)
      (upsertIdentity env provider sub email name) k := by
  refine guarded_query_bind fun s => ?_
  cases hfound : (s.authIdentities.find? (provider, sub)).map AuthIdentity.actorId with
  | some actorId => exact guarded_pure ⟨s, .read, hfound⟩
  | none =>
      refine guarded_execute_bind (fun _ => Or.inl rfl) fun s' u t h => ⟨Or.inr h, ?_⟩
      refine guarded_pure ⟨t, .after, ?_⟩
      exact (Login.linkedActor_tx (l := ⟨env, provider, sub, email, name⟩) h _).trans (if_pos rfl)

theorem guarded_completeLogin {p : Provider} {code nonce name : String} {q : CallbackQuery}
    {fetcher : Fetcher} (hcode : q.code = code) (hroute : req.route = .oauthCallback name q)
    (hgate : callbackGate (oauthEnv D req) name q req.cookie = .ok (.ok (p, nonce)))
    (hfetcher : Server.fetcher D req = fetcher) :
    Guarded (Justifies D req) (fun cookie m' => Minted D req cookie m')
      (completeLogin D.sha req.jwt fetcher req.draws D.secure p code nonce) m := by
  subst hcode hfetcher
  refine guarded_check_bind fun identity hidentity => ?_
  have hvouched : Vouched D req p identity := ⟨name, q, nonce, hroute, hgate, hidentity⟩
  have hlogin := guarded_zoom (z := service) (m := m) (guarded_zoom (z := Service.database)
    (guarded_upsertIdentity req.draws.ambient p.name identity.sub identity.email identity.name))
  refine guarded_bind (guarded_weaken (guarded_justify hlogin ?_) fun actorId m' hlinked => ?_)
  · rintro m' _ π π' ⟨σ, ⟨s, hs, rfl⟩, rfl⟩
    rcases hs with rfl | h
    · exact .idle
    · exact .login (.enrolled hvouched h)
  · obtain ⟨s, hs, hlinked⟩ := hlinked
    obtain ⟨σ, hσ, rfl⟩ := hs.of_zoom
    obtain ⟨π, hπ, rfl⟩ := hσ.of_zoom
    exact guarded_mintSession (.provider hvouched ⟨π, hπ, hlinked⟩)

end Routes

/-- An error sets no cookie. -/
theorem respond_setCookies {reason : Nat → Option String} {ctx : RequestCtx}
    {r : Except AppError Reply} :
    (respond reason ctx r).setCookies = match r with
      | .ok reply => reply.setCookies
      | .error _ => [] := by
  unfold respond
  cases r <;> cases headerValue? ctx.requestId <;> rfl

section Requests

variable [LinearOrder ρ] {D : Deployment ρ} {req : Incoming} {m : List (Glance Server)}

theorem guarded_api {e : Endpoint} (hroute : req.route = .api e) :
    Guarded (Justifies D req) (fun _ _ => True)
      (authed D req fun caller =>
        onService (endpoint D req (requestCtx req.requestId req.draws) caller e)) m := by
  refine guarded_authed fun caller m' hm hknown => ?_
  refine guarded_onService
    (guarded_and_writes (guarded_endpoint e _) (writes_endpoint D req)) ?_
  rintro m'' hm' π σ ⟨⟨⟨υ, hυ, hauth, hchecked⟩, hloaded⟩, hchanged⟩
  obtain ⟨u, hu, rfl⟩ := hυ.of_zoom
  have hservices : ∀ v, Seen (m''.map (Glance.zoom service)) v → services (Seen m'') v :=
    fun _ hv => hv.of_zoom
  have hstores : ∀ s, (∃ v, Seen (m''.map (Glance.zoom service)) v ∧ v.store = s) →
      stores (Seen m'') s := by
    rintro s ⟨v, hv, rfl⟩
    obtain ⟨w, hw, rfl⟩ := hv.of_zoom
    exact ⟨w, hw, rfl⟩
  exact .caller (hknown.mono fun _ h => h.mono hm') (.served hroute hu (hauth.mono hstores)
    (hchecked.mono hstores) (Loaded.mono hloaded hservices) hchanged)

/-- The routes that log in. -/
def IsLogin (D : Deployment ρ) (req : Incoming) : Prop :=
  (∃ body, req.route = .devLogin body ∧ D.release = false) ∨
    ∃ name q, req.route = .oauthCallback name q

/-- A login that is answered left a session, and its cookie is the first of the answer. -/
def Answered (D : Deployment ρ) (req : Incoming) (reply : Reply) (m : List (Glance Server)) :
    Prop :=
  IsLogin D req → ∃ cookie, reply.setCookies.head? = some cookie ∧ Minted D req cookie m

/-- What a request runs, route by route. -/
theorem program_cases {ctx : RequestCtx} {p : Fallible AppError Server Reply}
    {P : Fallible AppError Server Reply → Prop} (hp : program D req ctx = .ok p)
    (api : ∀ e, req.route = .api e →
      P (authed D req fun caller => onService (endpoint D req ctx caller e)))
    (claimAdmin : req.route = .claimAdmin →
      P (limited D req ctx (authed D req fun caller =>
        onService (Service.handle fun _ => claimAdminSnapshot caller))))
    (logout : req.route = .logout →
      P (limited D req ctx (authed D req fun caller => Numu.logout D.secure caller)))
    (absent : ∀ body, req.route = .devLogin body → D.release = true → P (pure { status := 404 }))
    (devLogin : ∀ body, req.route = .devLogin body → D.release = false →
      P (limited D req ctx (Numu.devLogin D.sha req.draws D.secure body)))
    (oauthStart : ∀ name, req.route = .oauthStart name →
      P (check (Numu.oauthStart (oauthEnv D req) D.withParams req.draws name)))
    (oauthCallback : ∀ name q gate, req.route = .oauthCallback name q →
      callbackGate (oauthEnv D req) name q req.cookie = .ok gate →
      P (do
        let flow ← check gate
        let session ← completeLogin D.sha req.jwt (fetcher D req) req.draws
          (oauthEnv D req).secure flow.1 q.code flow.2
        pure (landed session (oauthEnv D req).secure)))
    (healthz : req.route = .healthz → P (pure (healthReply "ok")))
    (readyz : req.route = .readyz → P (do
      let _ ← query fun _ : Server => ()
      pure (healthReply "ready"))) : P p := by
  unfold program at hp
  cases hroute : req.route with
  | api e =>
      simp only [hroute, Except.ok.injEq] at hp
      exact hp ▸ api e hroute
  | claimAdmin =>
      simp only [hroute, Except.ok.injEq] at hp
      exact hp ▸ claimAdmin hroute
  | logout =>
      simp only [hroute, Except.ok.injEq] at hp
      exact hp ▸ logout hroute
  | devLogin body =>
      simp only [hroute] at hp
      by_cases hrelease : D.release = true
      · rw [if_pos hrelease, Except.ok.injEq] at hp
        exact hp ▸ absent body hroute hrelease
      · rw [if_neg hrelease, Except.ok.injEq] at hp
        exact hp ▸ devLogin body hroute (by simpa using hrelease)
  | oauthStart name =>
      simp only [hroute, Except.ok.injEq] at hp
      exact hp ▸ oauthStart name hroute
  | oauthCallback name q =>
      simp only [hroute, Numu.oauthCallback] at hp
      cases hgate : callbackGate (oauthEnv D req) name q req.cookie with
      | error stopped => simp [hgate, Except.map] at hp
      | ok gate =>
          simp only [hgate, Except.map, Except.ok.injEq] at hp
          exact hp ▸ oauthCallback name q gate hroute hgate
  | healthz =>
      simp only [hroute, Except.ok.injEq] at hp
      exact hp ▸ healthz hroute
  | readyz =>
      simp only [hroute, Except.ok.injEq] at hp
      exact hp ▸ readyz hroute

theorem guarded_program {p : Fallible AppError Server Reply}
    (hp : program D req (requestCtx req.requestId req.draws) = .ok p) :
    Guarded (Justifies D req) (Answered D req) p m := by
  -- Only the logins promise anything of their answers.
  have hother : ∀ {p : Fallible AppError Server Reply}, (∀ body, req.route ≠ .devLogin body) →
      (∀ name q, req.route ≠ .oauthCallback name q) →
      Guarded (Justifies D req) (fun _ _ => True) p m →
      Guarded (Justifies D req) (Answered D req) p m := by
    intro p hdev hoauth h
    refine guarded_weaken h ?_
    rintro reply m' - (⟨body, hbody, -⟩ | ⟨name, q, hq⟩)
    · exact absurd hbody (hdev body)
    · exact absurd hq (hoauth name q)
  refine program_cases (P := fun p => Guarded (Justifies D req) (Answered D req) p m) hp
    ?api ?claimAdmin ?logout ?absent ?devLogin ?oauthStart ?oauthCallback ?healthz ?readyz
  case api =>
    intro e hroute
    exact hother (by simp [hroute]) (by simp [hroute]) (guarded_api hroute)
  case claimAdmin =>
    intro hroute
    exact hother (by simp [hroute]) (by simp [hroute])
      (guarded_limited fun m' _ => guarded_claim hroute)
  case logout =>
    intro hroute
    exact hother (by simp [hroute]) (by simp [hroute])
      (guarded_limited fun m' _ => guarded_logout hroute)
  case absent =>
    intro body hroute hrelease
    refine guarded_pure ?_
    rintro (⟨_, -, hdebug⟩ | ⟨name, q, hq⟩)
    · simp [hrelease] at hdebug
    · simp [hroute] at hq
  case devLogin =>
    intro body hroute hdebug
    refine guarded_limited fun m' _ => ?_
    exact guarded_weaken (guarded_devLogin hroute hdebug) fun reply m'' h _ => h
  case oauthStart =>
    intro name hroute
    exact hother (by simp [hroute]) (by simp [hroute])
      (guarded_of_writes (R := fun _ _ => False) (readOnly_check _).writes (fun _ _ _ h => h.elim) m)
  case oauthCallback =>
    intro name q gate hroute hgate
    refine guarded_check_bind fun flow hflow => ?_
    subst hflow
    refine guarded_bind (guarded_weaken
      (guarded_completeLogin rfl hroute hgate rfl) fun cookie m' h => ?_)
    exact guarded_pure fun _ => ⟨cookie, rfl, h⟩
  case healthz =>
    intro hroute
    exact hother (by simp [hroute]) (by simp [hroute]) (guarded_pure trivial)
  case readyz =>
    intro hroute
    exact hother (by simp [hroute]) (by simp [hroute])
      (guarded_query_bind fun _ => guarded_pure trivial)

theorem serve_error {stopped : Panic}
    (hp : program D req (requestCtx req.requestId req.draws) = .error stopped) :
    serve D req = .done none := by
  simp only [serve, hp]

theorem serve_ok {p : Fallible AppError Server Reply}
    (hp : program D req (requestCtx req.requestId req.draws) = .ok p) :
    serve D req = (ExceptT.run p).bind fun r =>
      .done (some (respond D.reason (requestCtx req.requestId req.draws) r)) := by
  simp only [serve, hp]

/-- A request writes only what it may, and a login answers a cookie only for a session it left. -/
theorem guarded_serve : (serve D req).Guarded (Justifies D req) (fun out m => IsLogin D req →
    ∀ reply, out = some reply → ∀ cookie, reply.setCookies.head? = some cookie →
      Minted D req cookie m) m := by
  cases hp : program D req (requestCtx req.requestId req.draws) with
  | error stopped =>
      rw [serve_error hp]
      intro _ reply hout
      cases hout
  | ok p =>
      rw [serve_ok hp]
      refine Resumption.Guarded.bind ?_
      refine Resumption.Guarded.weaken (fun r m' hr => ?_) (guarded_program hp)
      rintro hlogin reply ⟨rfl⟩ cookie hcookie
      cases r with
      | error e => simp [respond_setCookies] at hcookie
      | ok out =>
          obtain ⟨cookie', hhead, hminted⟩ := hr out rfl hlogin
          rw [respond_setCookies] at hcookie
          obtain rfl := Option.some.inj (hhead.symm.trans hcookie)
          exact hminted

end Requests

end Server

end Numu
