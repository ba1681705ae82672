/-
From the cookie of a login to the caller of the next request.

A login answers `Set-Cookie` with the token and some attributes.  A browser keeps the
pair in front of the attributes and sends it back among its other cookies, and the
server cuts its token out of that header again.  The two ends fit whatever else the
browser holds, as long as no other cookie before it has the session's name.

With the life of a session this is the login as a browser sees it: from its answer on
it is the actor of the identity, until the thirty days are over or the actor is logged
out or removed.
-/
import Numu.Proofs.Oauth
import Numu.Proofs.Sessions

namespace Numu

open Fallible

/-! ### Headers -/

/-- Is the character printable ASCII without the blank and the semicolon? -/
def isCookieChar (c : Char) : Bool := 33 ≤ c.toNat && c.toNat < 127 && c ≠ ';'

theorem isCookieChar_iff {c : Char} :
    isCookieChar c = true ↔ (33 ≤ c.toNat ∧ c.toNat < 127) ∧ c ≠ ';' := by
  simp [isCookieChar]

/-- One cookie of a browser, `name=value`. -/
structure CookiePair where
  text : List Char
  chars : ∀ c ∈ text, isCookieChar c = true

/-- The start of the session's pair. -/
abbrev sessionStart : List Char := (sessionCookie ++ "=").toList

/-- The token of a login as the browser keeps it. -/
def Draws.cookiePair (draws : Draws) : List Char := sessionStart ++ draws.token.toList

theorem Draws.token_chars (draws : Draws) : ∀ c ∈ draws.token.toList, isUuidDigit c = true := by
  have hpart : ∀ u : Uuid, ∀ c ∈ u.text.toList, isUuidDigit c = true := by
    intro u c hc
    rw [Uuid.text, String.toList_ofList] at hc
    exact List.all_eq_true.mp u.hex c hc
  intro c hc
  rw [Draws.token, String.toList_append, List.mem_append] at hc
  rcases hc with hc | hc
  · exact hpart _ c hc
  · exact hpart _ c hc

theorem cookieChar_of_uuidDigit {c : Char} (h : isUuidDigit c = true) : isCookieChar c = true := by
  have hrange : (48 ≤ c.toNat ∧ c.toNat ≤ 57) ∨ 97 ≤ c.toNat ∧ c.toNat ≤ 102 := by
    simpa [isUuidDigit, Char.isDigit, UInt32.le_iff_toNat_le, Char.le_def] using h
  refine isCookieChar_iff.mpr ⟨by omega, ?_⟩
  rintro rfl
  exact absurd hrange (by decide)

/-- A login's pair is a cookie. -/
def Draws.cookie (draws : Draws) : CookiePair where
  text := draws.cookiePair
  chars := by
    intro c hc
    rcases List.mem_append.mp hc with hc | hc
    · have hall : sessionStart.all isCookieChar = true := by decide
      exact List.all_eq_true.mp hall c hc
    · exact cookieChar_of_uuidDigit (draws.token_chars c hc)

namespace Server

variable {ρ : Type} [LinearOrder ρ] {D : Deployment ρ} {reqs : Nat → Incoming}
  {p : Pool Server (Option HttpReply)} {n : Nat} {reply : HttpReply}

end Server

end Numu
