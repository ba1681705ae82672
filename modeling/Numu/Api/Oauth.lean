/-
The OAuth login: the signed state cookie and the gate it is.

`start` gives the browser a cookie that carries a nonce and an expiry under the
server's signature, and `callback` goes on to the login only for a cookie that
verifies, is not expired and names the nonce of the query.  What verifies is cut
out of the cookie by byte offsets, which would stop the program off a character
boundary, so the outcome of `unhex` and of what calls it may be a panic.

The signature, the clock, the providers that are configured and the login itself
are arguments.
-/
import Numu.Lib.Slice
import Numu.Api.Error
import Numu.Lib.Json

namespace Numu

/-- The program stopped at a slice outside of the text or off a character boundary. -/
inductive Panic where
  | strSlice
deriving DecidableEq

/-! ### The state codec -/

/-- A digest of 32 bytes. -/
abbrev Digest : Type := { h : List UInt8 // h.length = 32 }

/-- HMAC-SHA256 under the server's secret. -/
abbrev Mac : Type := List UInt8 → Digest

/-- Two lower case digits for every byte. -/
def hex (bytes : List UInt8) : List Char :=
  bytes.flatMap fun b => [Nat.digitChar (b.toNat / 16), Nat.digitChar (b.toNat % 16)]

/-- `u8::from_str_radix(_, 16)`. -/
def parseHexByte (s : List Char) : Option UInt8 :=
  (Text.parseUnsigned 16 255 s).map UInt8.ofNat

/-- The loop of `unhex`: the bytes at some offsets, up to the first that is none. -/
def unhexEach (s : List Char) : List Nat → Except Panic (Option (List UInt8))
  | [] => .ok (some [])
  | i :: rest =>
    match Text.slice? s i (i + 2) with
    | none => .error .strSlice
    | some digits =>
      match parseHexByte digits with
      | none => .ok none
      | some b => (unhexEach s rest).map fun bytes => bytes.map (b :: ·)

def unhex (s : List Char) : Except Panic (Option (List UInt8)) :=
  if Text.utf8Len s % 2 ≠ 0 then .ok none
  else unhexEach s (List.range' 0 (Text.utf8Len s / 2) 2)

/-- Sign a payload: `payload.hexsig`. -/
def signState (mac : Mac) (payload : String) : String :=
  payload ++ "." ++ String.ofList (hex (mac (Text.utf8Bytes payload.toList)).1)

/-- The payload, if the signature after the last dot is its own. -/
def verifyState (mac : Mac) (signed : String) : Except Panic (Option String) :=
  match Text.rsplitOnce '.' signed.toList with
  | none => .ok none
  | some (payload, sigHex) =>
    (unhex sigHex).map fun sig =>
      if sig = some (mac (Text.utf8Bytes payload)).1 then some (String.ofList payload) else none

/-! ### The handlers -/

def stateCookie : String := "numu_oauth"

def stateTtlSecs : Nat := 600

/-- `u64::from_str`. -/
def parseU64 (s : List Char) : Option Nat := Text.parseUnsigned 10 18446744073709551615 s

/-- What a login draws on besides the database: providers, secret, clock, and the `Secure`
attribute of the build. -/
structure OauthEnv (P : Type) where
  provider : String → Option P
  mac : Mac
  now : Nat
  secure : String := ""

/-- The cookie that `start` sets, for a nonce it minted. -/
def startCookie {P : Type} (env : OauthEnv P) (nonce : String) : String :=
  stateCookie ++ "=" ++ signState env.mac (nonce ++ ":" ++ Nat.repr (env.now + stateTtlSecs)) ++
    "; HttpOnly; SameSite=Lax; Path=/; Max-Age=" ++ Nat.repr stateTtlSecs ++ env.secure

structure CallbackQuery where
  code : String
  state : String

/-- The text of a header value: none unless every byte is a visible ASCII character or a tab. -/
def toStr? (v : List UInt8) : Option (List Char) :=
  if v.all fun b => (32 ≤ b.toNat && b.toNat < 127) || b.toNat = 9 then
    some (v.map fun b => Char.ofNat b.toNat)
  else none

/-- The value of a cookie, in the first `Cookie` header. -/
def cookieValue (cookie : Option (List UInt8)) (name : String) : Option String :=
  (cookie.bind toStr?).bind fun v =>
    (((v.splitOn ';').map Text.trim).findSome? fun kv =>
      Text.dropStart? (name ++ "=").toList kv).map String.ofList

/-- An answer that sets cookies. -/
structure LoginResponse where
  status : Nat
  setCookies : List String
  body : Json

/-- The state cookie must verify, must not be expired, and must name the query's state. -/
def callback {P : Type} (env : OauthEnv P)
    (completeLogin : P → String → String → Except AppError String) (name : String)
    (q : CallbackQuery) (cookie : Option (List UInt8)) :
    Except Panic (Except AppError LoginResponse) :=
  match env.provider name with
  | none => .ok (.error .notFound)
  | some p =>
    match cookieValue cookie stateCookie with
    | none => .ok (.error .unauthorized)
    | some signed =>
      match verifyState env.mac signed with
      | .error stopped => .error stopped
      | .ok none => .ok (.error .unauthorized)
      | .ok (some payload) =>
        match Text.splitOnce ':' payload.toList with
        | none => .ok (.error .unauthorized)
        | some (nonce, exp) =>
          if String.ofList nonce ≠ q.state ∨ (parseU64 exp).getD 0 < env.now then
            .ok (.error .unauthorized)
          else .ok ((completeLogin p q.code (String.ofList nonce)).map fun session =>
            { status := 200
              setCookies := [session, stateCookie ++ "=; HttpOnly; SameSite=Lax; Path=/; Max-Age=0"
                ++ env.secure]
              body := .mkObj [("ok", .bool true)] })

end Numu
