/-
The state cookie of a login.

What is signed verifies to itself, because the digits of a signature hold no dot
and read back as its bytes.  What verifies is a payload with its own signature
after the last dot, and an ASCII text is never cut off a character boundary on the
way.  The callback reads its cookie from a header of visible ASCII, so it never
stops there, and it reaches the login only past the gate.
-/
import Numu.Api.Oauth

namespace Numu

/-! ### Hexadecimal digits -/

/-- What a digit of a signature is: itself again when it is read, no sign, no dot, one byte. -/
theorem digitChar_hex : ∀ n < 16, Text.digitValue 16 (Nat.digitChar n) = some n ∧
    Nat.digitChar n ≠ '+' ∧ Nat.digitChar n ≠ '.' ∧ (Nat.digitChar n).toNat < 128 := by
  decide

theorem parseHexByte_digits (b : UInt8) :
    parseHexByte [Nat.digitChar (b.toNat / 16), Nat.digitChar (b.toNat % 16)] = some b := by
  have hb : b.toNat < 256 := b.toNat_lt
  have hhigh : b.toNat / 16 < 16 := by omega
  have hlow : b.toNat % 16 < 16 := by omega
  obtain ⟨hc, hplus, -, -⟩ := digitChar_hex _ hhigh
  obtain ⟨hd, -, -, -⟩ := digitChar_hex _ hlow
  have hvalue : b.toNat / 16 * 16 + b.toNat % 16 = b.toNat := by omega
  unfold parseHexByte
  rw [Text.parseUnsigned_pair hplus hc hd (by omega) (by omega), Option.map_some, hvalue,
    UInt8.ofNat_toNat]

theorem mem_hex {bytes : List UInt8} {c : Char} (hc : c ∈ hex bytes) :
    ∃ n < 16, c = Nat.digitChar n := by
  obtain ⟨b, -, hpair⟩ := List.mem_flatMap.mp hc
  have hb : b.toNat < 256 := b.toNat_lt
  rcases List.mem_cons.mp hpair with rfl | hlow
  · exact ⟨b.toNat / 16, by omega, rfl⟩
  · exact ⟨b.toNat % 16, by omega, List.mem_singleton.mp hlow⟩

theorem ascii_hex (bytes : List UInt8) : Text.Ascii (hex bytes) := by
  intro c hc
  obtain ⟨n, hn, rfl⟩ := mem_hex hc
  exact (digitChar_hex n hn).2.2.2

theorem dot_not_mem_hex (bytes : List UInt8) : '.' ∉ hex bytes := by
  intro hc
  obtain ⟨n, hn, hdot⟩ := mem_hex hc
  exact (digitChar_hex n hn).2.2.1 hdot.symm

theorem length_hex (bytes : List UInt8) : (hex bytes).length = 2 * bytes.length := by
  induction bytes with
  | nil => rfl
  | cons b rest ih =>
      show (hex rest).length + 2 = 2 * (rest.length + 1)
      omega

/-! ### Cutting by bytes -/

/-- The pairs of an ASCII text can all be cut. -/
theorem unhexEach_ok {s : List Char} (hs : Text.Ascii s) :
    ∀ n i, i + 2 * n ≤ s.length → ∃ r, unhexEach s (List.range' i n 2) = .ok r := by
  intro n
  induction n with
  | zero => intro i _; exact ⟨_, rfl⟩
  | succ n ih =>
      intro i hi
      obtain ⟨r, hr⟩ := ih (i + 2) (by omega)
      rw [List.range'_succ, unhexEach, Text.slice?_ascii hs (by omega) (by omega), hr]
      dsimp only
      cases parseHexByte ((s.drop i).take (i + 2 - i)) with
      | none => exact ⟨none, rfl⟩
      | some b => exact ⟨_, rfl⟩

/-- **An ASCII text is never cut outside or off a boundary.** -/
theorem unhex_ok {s : List Char} (hs : Text.Ascii s) : ∃ r, unhex s = .ok r := by
  unfold unhex
  rw [Text.utf8Len_ascii hs]
  by_cases heven : s.length % 2 ≠ 0
  · exact ⟨none, if_pos heven⟩
  · rw [if_neg heven]
    exact unhexEach_ok hs _ 0 (by omega)

/-- The digits of some bytes are read back from where they start. -/
theorem unhexEach_hex (bytes : List UInt8) :
    ∀ before : List Char, Text.Ascii before →
      unhexEach (before ++ hex bytes) (List.range' before.length bytes.length 2) =
        .ok (some bytes) := by
  induction bytes with
  | nil => intro before _; rfl
  | cons b rest ih =>
      intro before hbefore
      have hascii : Text.Ascii (before ++ hex (b :: rest)) := by
        intro c hc
        rcases List.mem_append.mp hc with hc | hc
        · exact hbefore c hc
        · exact ascii_hex _ c hc
      have hlength : (before ++ hex (b :: rest)).length = before.length + 2 * (rest.length + 1) := by
        rw [List.length_append, length_hex, List.length_cons]
      have hpair : ((before ++ hex (b :: rest)).drop before.length).take
          (before.length + 2 - before.length) =
            [Nat.digitChar (b.toNat / 16), Nat.digitChar (b.toNat % 16)] := by
        rw [List.drop_left, Nat.add_sub_cancel_left]
        rfl
      have hrest := ih (before ++ [Nat.digitChar (b.toNat / 16), Nat.digitChar (b.toNat % 16)])
        (hascii.of_subset fun c hc => by
          rcases List.mem_append.mp hc with hc | hc
          · exact List.mem_append.mpr (Or.inl hc)
          · exact List.mem_append.mpr (Or.inr (List.mem_append.mpr (Or.inl hc))))
      rw [List.append_assoc, List.length_append] at hrest
      have hrest : unhexEach (before ++ hex (b :: rest))
          (List.range' (before.length + 2) rest.length 2) = .ok (some rest) := hrest
      rw [List.length_cons, List.range'_succ, unhexEach,
        Text.slice?_ascii hascii (by omega) (by omega), hpair, hrest]
      simp only [parseHexByte_digits]
      rfl

/-- **Printed bytes are read back.** -/
theorem unhex_hex (bytes : List UInt8) : unhex (hex bytes) = .ok (some bytes) := by
  have heach := unhexEach_hex bytes [] (by simp [Text.Ascii])
  unfold unhex
  rw [Text.utf8Len_ascii (ascii_hex bytes), length_hex, if_neg (by omega),
    Nat.mul_div_cancel_left _ (by omega)]
  exact heach

/-! ### Signing and verifying -/

section State

variable (mac : Mac)

theorem verifyState_signState (p : String) : verifyState mac (signState mac p) = .ok (some p) := by
  have hchars : (signState mac p).toList =
      p.toList ++ '.' :: hex (mac (Text.utf8Bytes p.toList)).1 := by
    simp [signState]
  unfold verifyState
  rw [hchars, Text.rsplitOnce_append (dot_not_mem_hex _)]
  dsimp only
  rw [unhex_hex]
  simp [Except.map]

/-- What verifies is a payload with its signature after the last dot. -/
theorem verifyState_sound {s p : String} (h : verifyState mac s = .ok (some p)) :
    ∃ sigHex : String, s = p ++ "." ++ sigHex ∧
      unhex sigHex.toList = .ok (some (mac (Text.utf8Bytes p.toList)).1) := by
  unfold verifyState at h
  cases hsplit : Text.rsplitOnce '.' s.toList with
  | none => simp [hsplit] at h
  | some parts =>
      obtain ⟨payload, sigHex⟩ := parts
      obtain ⟨hs, -⟩ := Text.rsplitOnce_eq_some hsplit
      rw [hsplit] at h
      dsimp only at h
      cases hsig : unhex sigHex with
      | error stopped => simp [hsig, Except.map] at h
      | ok sig =>
          simp only [hsig, Except.map, Except.ok.injEq] at h
          by_cases hmac : sig = some (mac (Text.utf8Bytes payload)).1
          · rw [if_pos hmac, Option.some.injEq] at h
            subst h
            refine ⟨String.ofList sigHex, ?_, ?_⟩
            · rw [String.ext_iff, hs]
              simp
            · rw [String.toList_ofList, String.toList_ofList, hsig, hmac]
          · rw [if_neg hmac] at h
            simp at h

/-- An ASCII text is verified or refused without a stop. -/
theorem verifyState_ok {s : String} (hs : Text.Ascii s.toList) :
    ∃ r, verifyState mac s = .ok r := by
  unfold verifyState
  cases hsplit : Text.rsplitOnce '.' s.toList with
  | none => exact ⟨none, rfl⟩
  | some parts =>
      obtain ⟨payload, sigHex⟩ := parts
      obtain ⟨hparts, -⟩ := Text.rsplitOnce_eq_some hsplit
      have hsig : Text.Ascii sigHex := hs.of_subset fun c hc => by
        rw [hparts]
        exact List.mem_append.mpr (Or.inr (List.mem_cons_of_mem _ hc))
      obtain ⟨r, hr⟩ := unhex_ok hsig
      dsimp only
      rw [hr]
      exact ⟨_, rfl⟩

end State

/-! ### The callback -/

theorem toNat_ofNat_ascii : ∀ n < 128, (Char.ofNat n).toNat < 128 := by decide

theorem toStr?_ascii {v : List UInt8} {s : List Char} (h : toStr? v = some s) : Text.Ascii s := by
  unfold toStr? at h
  split at h
  · rename_i hall
    obtain rfl := Option.some.inj h
    intro c hc
    obtain ⟨b, hb, rfl⟩ := List.mem_map.mp hc
    have hvisible := List.all_eq_true.mp hall b hb
    simp only [Bool.or_eq_true, Bool.and_eq_true, decide_eq_true_eq] at hvisible
    exact toNat_ofNat_ascii b.toNat (by omega)
  · simp at h

/-- The value of a cookie is ASCII. -/
theorem cookieValue_ascii {cookie : Option (List UInt8)} {name v : String}
    (h : cookieValue cookie name = some v) : Text.Ascii v.toList := by
  obtain ⟨s, hs, h⟩ := Option.bind_eq_some_iff.mp h
  obtain ⟨raw, -, hraw⟩ := Option.bind_eq_some_iff.mp hs
  obtain ⟨value, hfound, rfl⟩ := Option.map_eq_some_iff.mp h
  obtain ⟨kv, hkv, hvalue⟩ := List.exists_of_findSome?_eq_some hfound
  obtain ⟨piece, hpiece, rfl⟩ := List.mem_map.mp hkv
  rw [String.toList_ofList]
  refine (toStr?_ascii hraw).of_subset fun c hc => ?_
  exact Text.mem_of_splitOn hpiece (Text.mem_of_trim (Text.mem_of_dropStart? hvalue hc))

/-- The cookie lets a login through: it verifies, to the nonce of the query and a time to come. -/
def StateAdmits {P : Type} (env : OauthEnv P) (state : String) (cookie : Option (List UInt8)) :
    Prop :=
  ∃ signed nonce exp : String, cookieValue cookie stateCookie = some signed ∧
    verifyState env.mac signed = .ok (some (nonce ++ ":" ++ exp)) ∧ ':' ∉ nonce.toList ∧
    nonce = state ∧ env.now ≤ (parseU64 exp.toList).getD 0

/-- The callback answers without a stop; where the cookie does not admit, whatever the login. -/
theorem callback_refuses {P : Type} (env : OauthEnv P) (name : String) (q : CallbackQuery)
    (cookie : Option (List UInt8)) :
    StateAdmits env q.state cookie ∨
      ∃ e, ∀ completeLogin, callback env completeLogin name q cookie = .ok (.error e) := by
  unfold callback
  cases hprovider : env.provider name with
  | none => exact Or.inr ⟨_, fun _ => rfl⟩
  | some p =>
  cases hcookie : cookieValue cookie stateCookie with
  | none => exact Or.inr ⟨_, fun _ => rfl⟩
  | some signed =>
  obtain ⟨r, hr⟩ := verifyState_ok env.mac (cookieValue_ascii hcookie)
  simp only [hr]
  cases r with
  | none => exact Or.inr ⟨_, fun _ => rfl⟩
  | some payload =>
  dsimp only
  cases hsplit : Text.splitOnce ':' payload.toList with
  | none => exact Or.inr ⟨_, fun _ => rfl⟩
  | some parts =>
  obtain ⟨nonce, exp⟩ := parts
  dsimp only
  by_cases hgate : String.ofList nonce ≠ q.state ∨ (parseU64 exp).getD 0 < env.now
  · exact Or.inr ⟨_, fun _ => if_pos hgate⟩
  · obtain ⟨hpayload, hcolon⟩ := Text.splitOnce_eq_some hsplit
    rw [not_or, not_not, not_lt] at hgate
    have hjoined : payload = String.ofList nonce ++ ":" ++ String.ofList exp := by
      rw [String.ext_iff, hpayload]
      simp
    refine Or.inl ⟨signed, String.ofList nonce, String.ofList exp, hcookie, ?_, ?_, hgate.1, ?_⟩
    · rw [hr, hjoined]
    · rw [String.toList_ofList]
      exact hcolon
    · rw [String.toList_ofList]
      exact hgate.2

/-- A cookie that admits goes on to the login of the provider. -/
theorem callback_admitted {P : Type} {env : OauthEnv P} {name : String} {q : CallbackQuery}
    {cookie : Option (List UInt8)} {p : P} {signed payload : String} {nonce exp : List Char}
    {completeLogin : P → String → String → Except AppError String}
    (hprovider : env.provider name = some p) (hcookie : cookieValue cookie stateCookie = some signed)
    (hverify : verifyState env.mac signed = .ok (some payload))
    (hsplit : Text.splitOnce ':' payload.toList = some (nonce, exp))
    (hnonce : String.ofList nonce = q.state) (hexp : env.now ≤ (parseU64 exp).getD 0) :
    callback env completeLogin name q cookie =
      .ok ((completeLogin p q.code q.state).map fun session =>
        { status := 200
          setCookies := [session, stateCookie ++ "=; HttpOnly; SameSite=Lax; Path=/; Max-Age=0"
            ++ env.secure]
          body := .mkObj [("ok", .bool true)] }) := by
  have hgate : ¬ (String.ofList nonce ≠ q.state ∨ (parseU64 exp).getD 0 < env.now) := by
    rw [not_or, not_not, not_lt]
    exact ⟨hnonce, hexp⟩
  unfold callback
  simp only [hprovider, hcookie, hverify, hsplit]
  rw [if_neg hgate, hnonce]

/--
**The state codec and the gate.**  What is signed verifies to itself; an ASCII text is verified
without a stop, and only when it is a payload with its signature after a dot; and the answer of the
callback depends on the login only when the cookie admits it.
-/
theorem oauth_state_gate {P : Type} (env : OauthEnv P) :
    (∀ p : String, verifyState env.mac (signState env.mac p) = .ok (some p)) ∧
      (∀ s : String, Text.Ascii s.toList → ∃ r, verifyState env.mac s = .ok r ∧
        ∀ p, r = some p → ∃ sigHex : String, s = p ++ "." ++ sigHex ∧
          unhex sigHex.toList = .ok (some (env.mac (Text.utf8Bytes p.toList)).1)) ∧
      ∀ (name : String) (q : CallbackQuery) (cookie : Option (List UInt8)),
        StateAdmits env q.state cookie ∨
          ∃ e, ∀ completeLogin, callback env completeLogin name q cookie = .ok (.error e) := by
  refine ⟨verifyState_signState env.mac, fun s hs => ?_, callback_refuses env⟩
  obtain ⟨r, hr⟩ := verifyState_ok env.mac hs
  refine ⟨r, hr, fun p hp => ?_⟩
  rw [hp] at hr
  exact verifyState_sound env.mac hr

/-- The signature of `st_0:9999999999` under the development secret. -/
def signedState : Digest :=
  ⟨[105, 147, 132, 56, 94, 88, 129, 89, 126, 116, 21, 1, 144, 212, 112, 185,
    33, 234, 245, 83, 29, 197, 17, 11, 188, 220, 143, 119, 180, 27, 213, 4], rfl⟩

/-- A login of long before that time. -/
def loginEnv : OauthEnv Unit where
  provider := fun name => if name = "google" then some () else none
  mac := fun bytes => if bytes = Text.utf8Bytes "st_0:9999999999".toList then signedState
    else ⟨List.replicate 32 0, rfl⟩
  now := 1700000000

/-- The `Cookie` header of a browser that was given the state. -/
def stateHeader : List UInt8 :=
  Text.utf8Bytes ("theme=dark; numu_oauth=" ++ signState loginEnv.mac "st_0:9999999999").toList

def loggedIn : Unit → String → String → Except AppError String := fun _ _ _ => .ok "numu_session=1"

theorem cookieValue_stateHeader :
    cookieValue (some stateHeader) stateCookie =
      some (signState loginEnv.mac "st_0:9999999999") := by
  decide +kernel

/-- The cookie that was given admits the login, and a text without a signature does not verify. -/
theorem state_cookie_admits :
    (∃ resp, callback loginEnv loggedIn "google" ⟨"code", "st_0"⟩ (some stateHeader) =
        .ok (.ok resp)) ∧
      StateAdmits loginEnv "st_0" (some stateHeader) ∧
      ∃ r, verifyState loginEnv.mac "no-signature" = .ok r := by
  have hreached : ∃ resp, callback loginEnv loggedIn "google" ⟨"code", "st_0"⟩ (some stateHeader) =
      .ok (.ok resp) := by
    have hsplit : Text.splitOnce ':' "st_0:9999999999".toList =
        some ("st_0".toList, "9999999999".toList) := by decide +kernel
    rw [callback_admitted rfl cookieValue_stateHeader (verifyState_signState _ _) hsplit
      (by decide +kernel) (by decide +kernel)]
    exact ⟨_, rfl⟩
  obtain ⟨-, hverify, hgate⟩ := oauth_state_gate loginEnv
  refine ⟨hreached, ?_, ?_⟩
  · rcases hgate "google" ⟨"code", "st_0"⟩ (some stateHeader) with hadmits | ⟨e, hrefused⟩
    · exact hadmits
    · obtain ⟨resp, hresp⟩ := hreached
      rw [hrefused loggedIn] at hresp
      simp at hresp
  · obtain ⟨r, hr, -⟩ := hverify "no-signature" (by decide)
    exact ⟨r, hr⟩

end Numu
