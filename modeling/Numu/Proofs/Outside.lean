/-
Whom the server asks, and what.

Two routes ask another host for something.  A run of a connector gets the target of
its row, with no credentials.  A callback whose gate let it through exchanges its code
at the token endpoint of the provider, with the client's secret, and then shows the
access token it was given at the provider's userinfo endpoint, or gets its keys.  Each
request goes out through a client that follows no redirect and is pinned to one of the
addresses that the https host of the URL resolved to, none of them blocked.

Nothing else is asked, and so nothing else is heard: however the hosts outside of that
answer, every run of the server stays the same, step for step.
-/
import Numu.Proofs.HttpClient
import Numu.Proofs.Sessions

namespace Numu

open Fallible

/-! ### Clients that may be used -/

/-- A client for a URL as the gate builds it. -/
structure Admitted (net : Outbound) (client : ClientBuilder) (url : String) : Prop where
  direct : client.redirects = false
  brief : client.timeoutSecs = 10
  host : ∃ parsed addrs, net.parse url = some parsed ∧ parsed.scheme = "https" ∧
    parsed.hostStr = some client.resolve.1 ∧
    net.lookupHost client.resolve.1 (parsed.portOrKnownDefault.getD 443) = some addrs ∧
    client.resolve.2 ∈ addrs ∧ ∀ addr ∈ addrs, isBlockedIp addr.ip = false

theorem admitted_of_guardedClient {net : Outbound} {url : String} {client : ClientBuilder × Url}
    (h : guardedClient net url = .ok client) : Admitted net client.1 url := by
  obtain ⟨hparse, hscheme, host, hhost, addrs, hlookup, hgate⟩ := guardedClient_ok.mp h
  cases addrs with
  | nil => cases hgate
  | cons pinned others =>
      obtain ⟨hnone, -, hclient⟩ := gateAddrs_ok.mp hgate
      rw [hclient]
      exact ⟨rfl, rfl, client.2, _, hparse, hscheme, hhost, hlookup, List.mem_cons_self, hnone⟩

/-- A request hears another network as it hears this one when the two agree on the clients that the
gate lets through. -/
theorem request_congr {net net' : Network} {url : String} {outgoing : Outgoing}
    {showStatus : Nat → String} (hout : net'.toOutbound = net.toOutbound)
    (hparse : net'.fromSlice = net.fromSlice)
    (hsend : ∀ client, Admitted net.toOutbound client url →
      net'.send client url outgoing = net.send client url outgoing) :
    net'.request showStatus url outgoing = net.request showStatus url outgoing := by
  unfold Network.request Network.readJson
  rw [hout, hparse]
  cases hgate : guardedClient net.toOutbound url with
  | error e => rfl
  | ok client =>
      show (Except.mapError netErr (net'.send client.1 url outgoing) >>= _) =
        (Except.mapError netErr (net.send client.1 url outgoing) >>= _)
      rw [hsend client.1 (admitted_of_guardedClient hgate)]

/-- An id token is verified with nothing but the keys of its provider. -/
theorem verifyIdToken_congr {jwt : Jwt} {fetcher fetcher' : Fetcher}
    {idToken clientId issuer jwksUrl nonce : String}
    (hkeys : fetcher'.getJson jwksUrl none = fetcher.getJson jwksUrl none) :
    verifyIdToken jwt fetcher' idToken clientId issuer jwksUrl nonce =
      verifyIdToken jwt fetcher idToken clientId issuer jwksUrl nonce := by
  simp only [verifyIdToken, hkeys]

namespace Server

variable {ρ : Type}

/-! ### What is asked -/

/-- The requests that a request to the server makes of other hosts. -/
inductive Asks (D : Deployment ρ) (req : Incoming) : String → Outgoing → Prop
  | target {id url : String} (route : req.route = .api (.runConnector id)) :
      Asks D req url (.get none)
  | token {name nonce : String} {q : CallbackQuery} {p : Provider}
      (route : req.route = .oauthCallback name q)
      (gate : callbackGate (oauthEnv D req) name q req.cookie = .ok (.ok (p, nonce))) :
      Asks D req p.tokenUrl (.post (tokenForm p q.code))
  | userinfo {name nonce access : String} {q : CallbackQuery} {p : Provider} {token : Json}
      (route : req.route = .oauthCallback name q)
      (gate : callbackGate (oauthEnv D req) name q req.cookie = .ok (.ok (p, nonce)))
      (kind : p.kind = .userinfo)
      (exchanged : req.network.request D.showStatus p.tokenUrl (.post (tokenForm p q.code)) =
        .ok token) (own : token.str? "access_token" = some access) :
      Asks D req p.userinfoUrl (.get (some access))
  | keys {name nonce jwksUrl issuer idToken : String} {q : CallbackQuery} {p : Provider}
      {token : Json} (route : req.route = .oauthCallback name q)
      (gate : callbackGate (oauthEnv D req) name q req.cookie = .ok (.ok (p, nonce)))
      (kind : p.kind = .idToken jwksUrl issuer)
      (exchanged : req.network.request D.showStatus p.tokenUrl (.post (tokenForm p q.code)) =
        .ok token) (own : token.str? "id_token" = some idToken) :
      Asks D req jwksUrl (.get none)

/-- The same request in another network: names and addresses are the same, and so are the answers
to what it asks, through clients that the gate lets through. -/
structure SameFor (D : Deployment ρ) (req req' : Incoming) : Prop where
  request : req' = { req with network := req'.network }
  outbound : req'.network.toOutbound = req.network.toOutbound
  parser : req'.network.fromSlice = req.network.fromSlice
  heard : ∀ client url outgoing, Asks D req url outgoing →
    Admitted req.network.toOutbound client url →
    req'.network.send client url outgoing = req.network.send client url outgoing

section Serve

variable {D : Deployment ρ} {req req' : Incoming}

theorem SameFor.asked (h : SameFor D req req') {url : String} {outgoing : Outgoing}
    (hasks : Asks D req url outgoing) :
    req'.network.request D.showStatus url outgoing = req.network.request D.showStatus url outgoing :=
  request_congr h.outbound h.parser fun client hclient => h.heard client url outgoing hasks hclient

/-- A provider's identity is derived from what is asked. -/
theorem SameFor.fetchIdentity (h : SameFor D req req') {name nonce : String} {q : CallbackQuery}
    {p : Provider} (route : req.route = .oauthCallback name q)
    (gate : callbackGate (oauthEnv D req) name q req.cookie = .ok (.ok (p, nonce))) :
    Numu.fetchIdentity req.jwt (fetcher D req') p q.code nonce =
      Numu.fetchIdentity req.jwt (fetcher D req) p q.code nonce := by
  unfold Numu.fetchIdentity
  show (req'.network.request D.showStatus p.tokenUrl (.post (tokenForm p q.code)) >>= _) =
    (req.network.request D.showStatus p.tokenUrl (.post (tokenForm p q.code)) >>= _)
  rw [h.asked (.token route gate)]
  cases htoken : req.network.request D.showStatus p.tokenUrl (.post (tokenForm p q.code)) with
  | error e => rfl
  | ok token =>
      show tokenIdentity req.jwt (fetcher D req') p token nonce =
        tokenIdentity req.jwt (fetcher D req) p token nonce
      unfold tokenIdentity
      cases hkind : p.kind with
      | userinfo =>
          cases haccess : token.str? "access_token" with
          | none => rfl
          | some access =>
              show (req'.network.request D.showStatus p.userinfoUrl (.get (some access)) >>= _) =
                (req.network.request D.showStatus p.userinfoUrl (.get (some access)) >>= _)
              rw [h.asked (.userinfo route gate hkind htoken haccess)]
      | idToken jwksUrl issuer =>
          cases hown : token.str? "id_token" with
          | none => rfl
          | some idToken =>
              have hverify : verifyIdToken req.jwt (fetcher D req') idToken p.clientId issuer jwksUrl
                  nonce = verifyIdToken req.jwt (fetcher D req) idToken p.clientId issuer jwksUrl
                  nonce :=
                verifyIdToken_congr (h.asked (.keys route gate hkind htoken hown))
              show (verifyIdToken req.jwt (fetcher D req') idToken p.clientId issuer jwksUrl nonce >>=
                  _) =
                (verifyIdToken req.jwt (fetcher D req) idToken p.clientId issuer jwksUrl nonce >>= _)
              rw [hverify]

variable [LinearOrder ρ]

theorem SameFor.program (h : SameFor D req req') (ctx : RequestCtx) :
    Server.program D req' ctx = Server.program D req ctx := by
  have hroute : req'.route = req.route := by rw [h.request]
  have hdraws : req'.draws = req.draws := by rw [h.request]
  have hcookie : req'.cookie = req.cookie := by rw [h.request]
  have hjwt : req'.jwt = req.jwt := by rw [h.request]
  have hforwarded : req'.forwardedFor = req.forwardedFor := by rw [h.request]
  have hpeer : req'.peer = req.peer := by rw [h.request]
  have hauthed : ∀ k, authed D req' k = authed D req k := by
    intro k
    unfold authed
    rw [hdraws, hcookie]
  have hlimited : ∀ k, limited D req' ctx k = limited D req ctx k := by
    intro k
    unfold limited allow
    rw [hdraws, hforwarded, hpeer]
  have henv : oauthEnv D req' = oauthEnv D req := by
    unfold oauthEnv
    rw [hdraws]
  unfold Server.program
  rw [hroute]
  cases hr : req.route with
  | api e =>
      simp only [hauthed]
      refine congrArg Except.ok (congrArg (authed D req) (funext fun caller => congrArg onService ?_))
      unfold endpoint
      rw [hdraws]
      cases e with
      | runConnector id =>
          have hfetch : (fun url => (fetcher D req').getJson url none) =
              fun url => (fetcher D req).getJson url none :=
            funext fun url => h.asked (.target hr)
          simp only [hfetch]
      | _ => rfl
  | claimAdmin => simp only [hlimited, hauthed]
  | logout => simp only [hlimited, hauthed]
  | devLogin body => simp only [hlimited, hdraws]
  | oauthStart name => simp only [henv, hdraws]
  | oauthCallback name q =>
      simp only [Numu.oauthCallback, henv, hdraws, hcookie, hjwt]
      cases hgate : callbackGate (oauthEnv D req) name q req.cookie with
      | error stopped => rfl
      | ok gate =>
          cases gate with
          | error e => rfl
          | ok flow =>
              refine congrArg Except.ok ?_
              show (completeLogin D.sha req.jwt (fetcher D req') req.draws D.secure flow.1 q.code
                  flow.2 >>= _) =
                (completeLogin D.sha req.jwt (fetcher D req) req.draws D.secure flow.1 q.code
                  flow.2 >>= _)
              unfold completeLogin
              rw [h.fetchIdentity hr hgate]
  | healthz => rfl
  | readyz => rfl

/-- A request is the same program in both networks. -/
theorem SameFor.serve (h : SameFor D req req') : Server.serve D req' = Server.serve D req := by
  have hid : req'.requestId = req.requestId := by rw [h.request]
  have hdraws : req'.draws = req.draws := by rw [h.request]
  simp only [Server.serve, hid, hdraws, h.program]

end Serve

/-! ### A day with the provider and nobody else -/

end Server

end Numu
