/-
Logging in with a provider: from the code of the redirect to a session.

A provider is known by what it yields, a subject with perhaps an email and a name.
Some give it at a userinfo endpoint for the access token; others put it into a
signed id token, which counts only when a published key of the issuer verifies it
for this client and it carries the nonce of this very flow.  The identity is looked
up by provider and subject, never by email, and the actor it is linked to gets a
session.

The verification of tokens, the parser of URLs and the environment are arguments;
the other hosts answer through the `Fetcher`.
-/
import Numu.Api.Fetcher
import Numu.Api.Wire

namespace Numu

open Fallible

/-! ### Providers -/

/-- How a provider yields the identity after the token exchange. -/
inductive ProviderKind where
  | userinfo
  | idToken (jwksUrl issuer : String)
deriving DecidableEq

structure Provider where
  name : String
  authorizeUrl : String
  tokenUrl : String
  userinfoUrl : String
  scopes : String
  clientId : String
  clientSecret : String
  redirectUri : String
  kind : ProviderKind
deriving DecidableEq

section Providers

variable (env : String → Option String)

def google : Option Provider := do
  let clientId ← env "GOOGLE_CLIENT_ID"
  let clientSecret ← env "GOOGLE_CLIENT_SECRET"
  let redirectUri ← env "GOOGLE_REDIRECT_URI"
  pure { name := "google"
         authorizeUrl := "https://accounts.google.com/o/oauth2/v2/auth"
         tokenUrl := "https://oauth2.googleapis.com/token"
         userinfoUrl := "https://openidconnect.googleapis.com/v1/userinfo"
         scopes := "openid email profile"
         clientId, clientSecret, redirectUri
         kind := .userinfo }

def apple : Option Provider := do
  let clientId ← env "APPLE_CLIENT_ID"
  let clientSecret ← env "APPLE_CLIENT_SECRET"
  let redirectUri ← env "APPLE_REDIRECT_URI"
  pure { name := "apple"
         authorizeUrl := "https://appleid.apple.com/auth/authorize"
         tokenUrl := "https://appleid.apple.com/auth/token"
         userinfoUrl := ""
         scopes := "name email"
         clientId, clientSecret, redirectUri
         kind := .idToken "https://appleid.apple.com/auth/keys" "https://appleid.apple.com" }

def facebook : Option Provider := do
  let clientId ← env "FACEBOOK_CLIENT_ID"
  let clientSecret ← env "FACEBOOK_CLIENT_SECRET"
  let redirectUri ← env "FACEBOOK_REDIRECT_URI"
  pure { name := "facebook"
         authorizeUrl := "https://www.facebook.com/v19.0/dialog/oauth"
         tokenUrl := "https://graph.facebook.com/v19.0/oauth/access_token"
         userinfoUrl := "https://graph.facebook.com/me?fields=id,name,email"
         scopes := "email public_profile"
         clientId, clientSecret, redirectUri
         kind := .userinfo }

def tiktok : Option Provider := do
  let clientId ← env "TIKTOK_CLIENT_KEY"
  let clientSecret ← env "TIKTOK_CLIENT_SECRET"
  let redirectUri ← env "TIKTOK_REDIRECT_URI"
  pure { name := "tiktok"
         authorizeUrl := "https://www.tiktok.com/v2/auth/authorize/"
         tokenUrl := "https://open.tiktokapis.com/v2/oauth/token/"
         userinfoUrl := "https://open.tiktokapis.com/v2/user/info/?fields=open_id,display_name"
         scopes := "user.info.basic"
         clientId, clientSecret, redirectUri
         kind := .userinfo }

def provider (name : String) : Option Provider :=
  match name with
  | "google" => google env
  | "apple" => apple env
  | "facebook" => facebook env
  | "tiktok" => tiktok env
  | _ => none

end Providers

/-! ### Identities -/

/-- Subject, email and name, as a provider gives them. -/
structure Identity where
  sub : String
  email : Option String
  name : String
deriving DecidableEq

/-- The first of two keys that is there, whatever its value. -/
def keyOr (v : Json) (first second : String) : Option Json := (v.get? first).orElse fun _ =>
  v.get? second

/-- The identity of a userinfo document: flat, or under `data.user`. -/
def extractIdentity (userinfo : Json) : Except AppError Identity := do
  let root := ((userinfo.get? "data").bind fun d => d.get? "user").getD userinfo
  let sub ← okOr (.badRequest "provider returned no subject")
    (((keyOr root "sub" "id").orElse fun _ => root.get? "open_id").bind Json.asStr?)
  pure { sub := sub, email := root.str? "email",
         name := ((keyOr root "name" "display_name").bind Json.asStr?).getD "" }

/-- The claims read of an id token. -/
structure IdClaims where
  sub : String
  email : Option String
  nonce : Option String
deriving DecidableEq

/-- An optional text: absent or null is none, and anything else but a text does not parse. -/
def optText (v : Option Json) : Option (Option String) :=
  match v with
  | none => some none
  | some .null => some none
  | some (.str s) => some (some s)
  | some _ => none

def IdClaims.parse (v : Json) : Option IdClaims := do
  let sub ← v.str? "sub"
  let email ← optText (v.get? "email")
  let nonce ← optText (v.get? "nonce")
  pure { sub, email, nonce }

/-- What a token is checked against besides its key and the clock. -/
structure Validation where
  audience : String
  issuer : String
deriving DecidableEq

/-- The verification of RS256 tokens: the key id of a header, whether two components make a key, and
the claims of a token that verifies under it, is not expired and passes the validation. -/
structure Jwt where
  decodeHeader : String → Option (Option String)
  fromRsaComponents : String → String → Bool
  decode : String → String → String → Validation → Option Json

/-- The key of the set with an id. -/
def findJwk (jwks : Json) (kid : String) : Except AppError Json := do
  let keys ← okOr .unauthorized ((jwks.get? "keys").bind Json.asArray?)
  okOr .unauthorized (keys.find? fun k => k.str? "kid" = some kid)

/-- Verify an id token: its key, audience, issuer and nonce.  Any failure is a 401. -/
def verifyIdToken (jwt : Jwt) (fetcher : Fetcher) (idToken clientId issuer jwksUrl
    expectedNonce : String) : Except AppError (String × Option String) := do
  let header ← okOr .unauthorized (jwt.decodeHeader idToken)
  let kid ← okOr .unauthorized header
  let jwks ← fetcher.getJson jwksUrl none
  let jwk ← findJwk jwks kid
  let n ← okOr .unauthorized (jwk.str? "n")
  let e ← okOr .unauthorized (jwk.str? "e")
  if !jwt.fromRsaComponents n e then .error .unauthorized
  else do
    let decoded ← okOr .unauthorized (jwt.decode idToken n e
      { audience := clientId, issuer := issuer })
    let claims ← okOr .unauthorized (IdClaims.parse decoded)
    if claims.nonce ≠ some expectedNonce then .error .unauthorized
    else pure (claims.sub, claims.email)

/-- The identity behind the answer of the token endpoint. -/
def tokenIdentity (jwt : Jwt) (fetcher : Fetcher) (p : Provider) (token : Json) (nonce : String) :
    Except AppError Identity :=
  match p.kind with
  | .userinfo => do
    let access ← okOr (.badRequest "token endpoint returned no access_token")
      (token.str? "access_token")
    let userinfo ← fetcher.getJson p.userinfoUrl (some access)
    extractIdentity userinfo
  | .idToken jwksUrl issuer => do
    let idToken ← okOr (.badRequest "token endpoint returned no id_token") (token.str? "id_token")
    let verified ← verifyIdToken jwt fetcher idToken p.clientId issuer jwksUrl nonce
    pure { sub := verified.1, email := verified.2, name := "" }

/-- The form of the token exchange. -/
def tokenForm (p : Provider) (code : String) : List (String × String) :=
  [("grant_type", "authorization_code"), ("code", code), ("client_id", p.clientId),
    ("client_secret", p.clientSecret), ("redirect_uri", p.redirectUri)]

/-- Exchange the code and derive the identity. -/
def fetchIdentity (jwt : Jwt) (fetcher : Fetcher) (p : Provider) (code nonce : String) :
    Except AppError Identity := do
  let token ← fetcher.postForm p.tokenUrl (tokenForm p code)
  tokenIdentity jwt fetcher p token nonce

/-! ### The flow -/

/-- From the code to the cookie of a session. -/
def completeLogin (sha : Sha256) (jwt : Jwt) (fetcher : Fetcher) (draws : Draws) (secure : String)
    (p : Provider) (code nonce : String) : Fallible AppError Server String := do
  let identity ← check (fetchIdentity jwt fetcher p code nonce)
  let actorId ← zoom Server.service (zoom Service.database
    (upsertIdentity draws.ambient p.name identity.sub identity.email identity.name))
  mintSession sha draws secure actorId

/-- A redirect, with its cookies. -/
def redirectTo (url : String) (cookie : String) : Reply :=
  { status := 302, location := some url, setCookies := [cookie] }

/-- `start`: send the browser to the provider, with a nonce and its signed cookie. -/
def oauthStart (env : OauthEnv Provider) (withParams : String → List (String × String) →
    Option String) (draws : Draws) (name : String) : Except AppError Reply := do
  let p ← okOr .notFound (env.provider name)
  let nonce := "st_" ++ draws.uuid.text
  let url ← okOr (.internal "bad authorize url") (withParams p.authorizeUrl
    [("response_type", "code"), ("client_id", p.clientId), ("redirect_uri", p.redirectUri),
      ("scope", p.scopes), ("state", nonce), ("nonce", nonce)])
  pure (redirectTo url (startCookie env nonce))

/-- The gate of `callback`: the provider and the nonce of a flow that may go on. -/
def callbackGate {P : Type} (env : OauthEnv P) (name : String) (q : CallbackQuery)
    (cookie : Option (List UInt8)) : Except Panic (Except AppError (P × String)) :=
  match env.provider name with
  | none => .ok (.error .notFound)
  | some p =>
    match cookieValue cookie stateCookie with
    | none => .ok (.error .unauthorized)
    | some signed =>
      match verifyState env.mac signed with
      | .error stopped => .error stopped
      | .ok none => .ok (.error .unauthorized)
      | .ok (some payload) =>
        match Text.splitOnce ':' payload.toList with
        | none => .ok (.error .unauthorized)
        | some (nonce, exp) =>
          if String.ofList nonce ≠ q.state ∨ (parseU64 exp).getD 0 < env.now then
            .ok (.error .unauthorized)
          else .ok (.ok (p, String.ofList nonce))

/-- The answer of a login that went through. -/
def landed (session secure : String) : Reply :=
  { status := 200, body := some (.mkObj [("ok", .bool true)]),
    setCookies := [session, stateCookie ++ "=; HttpOnly; SameSite=Lax; Path=/; Max-Age=0" ++
      secure] }

/-- `callback`: the gate, then the login.  The gate may stop the program. -/
def oauthCallback (sha : Sha256) (jwt : Jwt) (fetcher : Fetcher) (env : OauthEnv Provider)
    (draws : Draws) (name : String) (q : CallbackQuery) (cookie : Option (List UInt8)) :
    Except Panic (Fallible AppError Server Reply) :=
  (callbackGate env name q cookie).map fun gate => do
    let flow ← check gate
    let session ← completeLogin sha jwt fetcher draws env.secure flow.1 q.code flow.2
    pure (landed session env.secure)

/-- The gate is the one of `callback`. -/
theorem callback_eq {P : Type} (env : OauthEnv P)
    (login : P → String → String → Except AppError String) (name : String) (q : CallbackQuery)
    (cookie : Option (List UInt8)) :
    callback env login name q cookie = (callbackGate env name q cookie).map fun gate =>
      gate.bind fun flow => (login flow.1 q.code flow.2).map fun session =>
        { status := 200
          setCookies := [session, stateCookie ++ "=; HttpOnly; SameSite=Lax; Path=/; Max-Age=0" ++
            env.secure]
          body := .mkObj [("ok", .bool true)] } := by
  unfold callback callbackGate
  cases env.provider name with
  | none => rfl
  | some p =>
      cases cookieValue cookie stateCookie with
      | none => rfl
      | some signed =>
          cases hsigned : verifyState env.mac signed with
          | error stopped => simp only [hsigned]; rfl
          | ok payload =>
              cases payload with
              | none => simp only [hsigned]; rfl
              | some payload =>
                  cases hsplit : Text.splitOnce ':' payload.toList with
                  | none => simp only [hsigned, hsplit]; rfl
                  | some parts =>
                      simp only [hsigned, hsplit]
                      split
                      · rfl
                      · rfl

end Numu
