/-
What the blocklist sees of an address inside another.

Of the three forms of a blocked address the mapped one is looked into and blocked
with it.  The other two are judged as addresses of their own: a compatible form is
blocked when it is the unspecified or the loopback address, and a NAT64 form never.
So a client is kept from every blocked host by a mapped form, and by the other two
only when something else in the resolver's answer stops it.
-/
import Numu.Api.HttpClient

namespace Numu

open Ip

/-! ### The blocklist -/

/-- The conventions that make an address designate an embedded one. -/
inductive Encoding where
  | mapped
  | compatible
  | nat64
deriving DecidableEq

def Encoding.front : Encoding → Front
  | mapped => Ip.mapped
  | compatible => Ip.compatible
  | nat64 => Ip.nat64

section Blocklist

variable {ip : Ipv4Addr}

theorem isBlockedIp_mapped : isBlockedIp (.v6 (ip.embed mapped)) = isBlockedV4 ip := by
  unfold isBlockedIp
  dsimp only
  rw [toIpv4Mapped_embed, if_pos rfl]

theorem isBlockedIp_compatible :
    isBlockedIp (.v6 (ip.embed compatible)) = true ↔ ip = ⟨0, 0, 0, 0⟩ ∨ ip = ⟨0, 0, 0, 1⟩ := by
  have hseg : (ip.embed compatible).segments.headD 0 = 0 := rfl
  have hmulticast : (ip.embed compatible).isMulticast = false := by
    unfold Ipv6Addr.isMulticast
    rw [hseg]
    rfl
  unfold isBlockedIp
  dsimp only
  rw [toIpv4Mapped_embed, if_neg (by decide)]
  dsimp only
  rw [hseg, hmulticast]
  simp only [Bool.or_eq_true, isLoopback_compatible, isUnspecified_compatible]
  constructor
  · rintro ((((h | h) | h) | h) | h)
    · exact Or.inr h
    · exact Or.inl h
    · cases h
    · exact absurd h (by decide)
    · exact absurd h (by decide)
  · rintro (h | h)
    · exact Or.inl (Or.inl (Or.inl (Or.inr h)))
    · exact Or.inl (Or.inl (Or.inl (Or.inl h)))

theorem isBlockedIp_nat64 : isBlockedIp (.v6 (ip.embed nat64)) = false := by
  have hseg : (ip.embed nat64).segments.headD 0 = 100 := rfl
  have hmulticast : (ip.embed nat64).isMulticast = false := by
    unfold Ipv6Addr.isMulticast
    rw [hseg]
    rfl
  have hloopback : (ip.embed nat64).isLoopback = false := rfl
  have hunspecified : (ip.embed nat64).isUnspecified = false := rfl
  unfold isBlockedIp
  dsimp only
  rw [toIpv4Mapped_embed, if_neg (by decide)]
  dsimp only
  rw [hseg, hmulticast, hloopback, hunspecified]
  rfl

/-- Which forms of a blocked address are blocked. -/
theorem isBlockedIp_embed (e : Encoding) (hblocked : isBlockedV4 ip = true) :
    isBlockedIp (.v6 (ip.embed e.front)) = true ↔
      e = .mapped ∨ (e = .compatible ∧ (ip = ⟨0, 0, 0, 0⟩ ∨ ip = ⟨0, 0, 0, 1⟩)) := by
  cases e with
  | mapped =>
      show isBlockedIp (.v6 (ip.embed mapped)) = true ↔ _
      rw [isBlockedIp_mapped]
      exact ⟨fun _ => Or.inl rfl, fun _ => hblocked⟩
  | compatible =>
      show isBlockedIp (.v6 (ip.embed compatible)) = true ↔ _
      rw [isBlockedIp_compatible]
      constructor
      · intro h
        exact Or.inr ⟨rfl, h⟩
      · rintro (hc | ⟨-, h⟩)
        · cases hc
        · exact h
  | nat64 =>
      show isBlockedIp (.v6 (ip.embed nat64)) = true ↔ _
      rw [isBlockedIp_nat64]
      constructor
      · intro hc
        cases hc
      · rintro (hc | ⟨hc, -⟩)
        · cases hc
        · cases hc

end Blocklist

example : ∀ a ∈ [Ipv4Addr.mk 169 254 169 254, ⟨127, 0, 0, 1⟩, ⟨10, 0, 0, 1⟩, ⟨192, 168, 1, 1⟩,
    ⟨172, 16, 0, 1⟩, ⟨0, 0, 0, 0⟩, ⟨100, 64, 0, 1⟩], isBlockedIp (.v4 a) = true := by
  decide

example : ∀ a ∈ [Ipv4Addr.mk 8 8 8 8, ⟨1, 1, 1, 1⟩, ⟨93, 184, 216, 34⟩],
    isBlockedIp (.v4 a) = false := by
  decide

/-! ### The client -/

/-- The host of an https URL and the addresses it resolves to. -/
def resolved (net : Outbound) (url : String) : Option (String × List SocketAddr) :=
  (net.parse url).bind fun parsed =>
    if parsed.scheme = "https" then
      parsed.hostStr.bind fun host =>
        (net.lookupHost host (parsed.portOrKnownDefault.getD 443)).map fun addrs => (host, addrs)
    else none

/-- Is an address one of the forms of a blocked one? -/
def HidesBlocked (ip : IpAddr) : Prop :=
  ∃ (e : Encoding) (a : Ipv4Addr), isBlockedV4 a = true ∧ ip = .v6 (a.embed e.front)

section Client

variable {net : Outbound} {url host : String} {client : ClientBuilder} {parsed : Url}

theorem okOr_bind_ok {α β : Type} {e : AppError} {x : Option α} {f : α → Except AppError β}
    {r : β} : (okOr e x >>= f) = .ok r ↔ ∃ a, x = some a ∧ f a = .ok r := by
  cases x with
  | none =>
      constructor
      · intro hc
        cases hc
      · rintro ⟨a, hc, -⟩
        cases hc
  | some a =>
      constructor
      · intro h
        exact ⟨a, rfl, h⟩
      · rintro ⟨a', ha, h⟩
        obtain rfl := Option.some.inj ha
        exact h

/-- What the gate lets through is pinned to the first address, and no address is blocked. -/
theorem gateAddrs_ok {pinned : SocketAddr} {others : List SocketAddr} :
    gateAddrs net host (pinned :: others) = .ok client ↔
      (∀ addr ∈ pinned :: others, isBlockedIp addr.ip = false) ∧
        net.buildError (pinnedTo host pinned) = none ∧ client = pinnedTo host pinned := by
  rw [gateAddrs]
  by_cases hblocked : ((pinned :: others).any fun addr => isBlockedIp addr.ip) = true
  · rw [if_pos hblocked]
    constructor
    · intro hc
      cases hc
    · rintro ⟨hnone, -⟩
      obtain ⟨addr, haddr, hc⟩ := List.any_eq_true.mp hblocked
      rw [hnone addr haddr] at hc
      cases hc
  · rw [if_neg hblocked]
    have hnone : ∀ addr ∈ pinned :: others, isBlockedIp addr.ip = false := by
      intro addr haddr
      rw [← Bool.not_eq_true]
      intro hc
      exact hblocked (List.any_eq_true.mpr ⟨addr, haddr, hc⟩)
    cases hbuild : net.buildError (pinnedTo host pinned) with
    | some e => simp
    | none =>
        constructor
        · intro h
          exact ⟨hnone, rfl, (Except.ok.inj h).symm⟩
        · rintro ⟨-, -, rfl⟩
          rfl

theorem refuse_ok {α : Type} {c : Prop} [Decidable c] {e : AppError} {x : Except AppError α}
    {r : α} : (if c then .error e else x) = .ok r ↔ ¬ c ∧ x = .ok r := by
  by_cases hc : c
  · simp [hc]
  · simp [hc]

theorem bind_pure_ok {α β : Type} {x : Except AppError α} {f : α → β} {r : β} :
    (x >>= fun a => pure (f a)) = .ok r ↔ ∃ a, x = .ok a ∧ f a = r := by
  cases x with
  | error e =>
      constructor
      · intro hc
        cases hc
      · rintro ⟨a, hc, -⟩
        cases hc
  | ok a =>
      constructor
      · intro h
        exact ⟨a, rfl, Except.ok.inj h⟩
      · rintro ⟨a', ha, h⟩
        obtain rfl := Except.ok.inj ha
        exact congrArg Except.ok h

/-- A client is returned for an https URL whose host resolves to what the gate lets through. -/
theorem guardedClient_ok :
    guardedClient net url = .ok (client, parsed) ↔
      net.parse url = some parsed ∧ parsed.scheme = "https" ∧ ∃ host, parsed.hostStr = some host ∧
        ∃ addrs, net.lookupHost host (parsed.portOrKnownDefault.getD 443) = some addrs ∧
          gateAddrs net host addrs = .ok client := by
  unfold guardedClient
  simp only [okOr_bind_ok, refuse_ok, bind_pure_ok, Prod.mk.injEq, ne_eq, not_not]
  constructor
  · rintro ⟨u, hparse, hscheme, host, hhost, addrs, hlookup, c, hgate, rfl, rfl⟩
    exact ⟨hparse, hscheme, host, hhost, addrs, hlookup, hgate⟩
  · rintro ⟨hparse, hscheme, host, hhost, addrs, hlookup, hgate⟩
    exact ⟨parsed, hparse, hscheme, host, hhost, addrs, hlookup, client, hgate, rfl, rfl⟩

theorem resolved_eq_some {addrs : List SocketAddr} :
    resolved net url = some (host, addrs) ↔
      ∃ parsed, net.parse url = some parsed ∧ parsed.scheme = "https" ∧
        parsed.hostStr = some host ∧
        net.lookupHost host (parsed.portOrKnownDefault.getD 443) = some addrs := by
  unfold resolved
  simp only [Option.bind_eq_some_iff, Option.ite_none_right_eq_some, Option.map_eq_some_iff,
    Prod.mk.injEq]
  constructor
  · rintro ⟨parsed, hparse, hscheme, host', hhost, addrs', hlookup, rfl, rfl⟩
    exact ⟨parsed, hparse, hscheme, hhost, hlookup⟩
  · rintro ⟨parsed, hparse, hscheme, hhost, hlookup⟩
    exact ⟨parsed, hparse, hscheme, host, hhost, addrs, hlookup, rfl, rfl⟩

/-- The client that is returned for what a URL resolves to is the one the gate lets through. -/
theorem returned_iff {addrs : List SocketAddr} (h : resolved net url = some (host, addrs)) :
    (∃ parsed, guardedClient net url = .ok (client, parsed)) ↔
      gateAddrs net host addrs = .ok client := by
  obtain ⟨u, hparse, hscheme, hhost, hlookup⟩ := resolved_eq_some.mp h
  constructor
  · rintro ⟨parsed, hok⟩
    obtain ⟨hparse', -, host', hhost', addrs', hlookup', hgate⟩ := guardedClient_ok.mp hok
    obtain rfl := Option.some.inj (hparse.symm.trans hparse')
    obtain rfl := Option.some.inj (hhost.symm.trans hhost')
    obtain rfl := Option.some.inj (hlookup.symm.trans hlookup')
    exact hgate
  · intro hgate
    exact ⟨u, guardedClient_ok.mpr ⟨hparse, hscheme, host, hhost, addrs, hlookup, hgate⟩⟩

/-- Is an address a compatible or a NAT64 form of a blocked one? -/
def Unseen (ip : IpAddr) : Prop :=
  ∃ a : Ipv4Addr, isBlockedV4 a = true ∧
    (ip = .v6 (a.embed Ip.compatible) ∨ ip = .v6 (a.embed Ip.nat64))

/-- An address that is not blocked hides a blocked one in the forms that are not looked into. -/
theorem hidesBlocked_iff {ip : IpAddr} (h : isBlockedIp ip = false) :
    HidesBlocked ip ↔ Unseen ip := by
  constructor
  · rintro ⟨e, a, ha, rfl⟩
    cases e with
    | mapped =>
        have hc := (isBlockedIp_embed .mapped ha).mpr (Or.inl rfl)
        rw [h] at hc
        cases hc
    | compatible => exact ⟨a, ha, Or.inl rfl⟩
    | nat64 => exact ⟨a, ha, Or.inr rfl⟩
  · rintro ⟨a, ha, rfl | rfl⟩
    · exact ⟨.compatible, a, ha, rfl⟩
    · exact ⟨.nat64, a, ha, rfl⟩

/-- A client is kept from the hosts that its addresses hide exactly when the answer of the
resolver has none in the forms that are not looked into, or is refused for another address. -/
theorem hidden_hosts_iff :
    (∀ client parsed, guardedClient net url = .ok (client, parsed) →
        ∀ host addrs, resolved net url = some (host, addrs) →
          ∀ addr ∈ client.resolve.2 :: addrs, ¬ HidesBlocked addr.ip) ↔
      ∀ host pinned others, resolved net url = some (host, pinned :: others) →
        net.buildError (pinnedTo host pinned) = none →
          (∃ addr ∈ pinned :: others, isBlockedIp addr.ip = true) ∨
            ∀ addr ∈ pinned :: others, ¬ Unseen addr.ip := by
  constructor
  · intro hkept host pinned others hresolved hbuild
    by_cases hblocked : ∃ addr ∈ pinned :: others, isBlockedIp addr.ip = true
    · exact Or.inl hblocked
    · have hnone : ∀ addr ∈ pinned :: others, isBlockedIp addr.ip = false :=
        fun addr haddr => Bool.eq_false_iff.mpr fun hc => hblocked ⟨addr, haddr, hc⟩
      obtain ⟨parsed, hok⟩ :=
        (returned_iff hresolved).mpr (gateAddrs_ok.mpr ⟨hnone, hbuild, rfl⟩)
      refine Or.inr fun addr haddr hunseen => ?_
      exact hkept _ _ hok _ _ hresolved addr (List.mem_cons_of_mem _ haddr)
        ((hidesBlocked_iff (hnone addr haddr)).mpr hunseen)
  · intro hcond client parsed hok host addrs hresolved addr haddr hhides
    have hgate := (returned_iff hresolved).mp ⟨parsed, hok⟩
    cases addrs with
    | nil => cases hgate
    | cons pinned others =>
        obtain ⟨hnone, hbuild, rfl⟩ := gateAddrs_ok.mp hgate
        have haddr : addr ∈ pinned :: others := by
          rcases List.mem_cons.mp haddr with rfl | haddr
          · exact List.mem_cons_self
          · exact haddr
        rcases hcond host pinned others hresolved hbuild with ⟨bad, hbad, hc⟩ | hunseen
        · rw [hnone bad hbad] at hc
          cases hc
        · exact hunseen addr haddr ((hidesBlocked_iff (hnone addr haddr)).mp hhides)

end Client

/-- **The blocklist is closed under the mapped form, under the compatible form for two addresses,
and under the NAT64 form for none; a client is kept from a hidden host exactly as far.** -/
theorem embedding_blocked_iff (net : Outbound) (url : String) (e : Encoding) (ip : Ipv4Addr) :
    ((isBlockedV4 ip = true → isBlockedIp (.v6 (ip.embed e.front)) = true) ↔
      (isBlockedV4 ip = true →
        e = .mapped ∨ (e = .compatible ∧ (ip = ⟨0, 0, 0, 0⟩ ∨ ip = ⟨0, 0, 0, 1⟩)))) ∧
    ((∀ client parsed, guardedClient net url = .ok (client, parsed) →
        ∀ host addrs, resolved net url = some (host, addrs) →
          ∀ addr ∈ client.resolve.2 :: addrs, ¬ HidesBlocked addr.ip) ↔
      ∀ host pinned others, resolved net url = some (host, pinned :: others) →
        net.buildError (pinnedTo host pinned) = none →
          (∃ addr ∈ pinned :: others, isBlockedIp addr.ip = true) ∨
            ∀ addr ∈ pinned :: others, ¬ Unseen addr.ip) :=
  ⟨forall_congr' fun hblocked => isBlockedIp_embed e hblocked, hidden_hosts_iff⟩

/-- The metadata address, as a resolver answers it behind a NAT64 gateway. -/
def metadataNat64 : SocketAddr := ⟨.v6 ((Ipv4Addr.mk 169 254 169 254).embed Ip.nat64), 443⟩

def nat64Net : Outbound where
  parse _ := some ⟨"https", some "idp.example", some 443⟩
  lookupHost _ _ := some [metadataNat64]
  buildError _ := none

/-- The metadata address is blocked, its NAT64 form is not, and a client is pinned to it. -/
theorem metadata_through_nat64 :
    isBlockedV4 ⟨169, 254, 169, 254⟩ = true ∧
      isBlockedIp (.v6 ((Ipv4Addr.mk 169 254 169 254).embed Ip.nat64)) = false ∧
      isBlockedIp (.v6 ((Ipv4Addr.mk 169 254 169 254).embed Ip.compatible)) = false ∧
      guardedClient nat64Net "https://idp.example/token" =
        .ok (pinnedTo "idp.example" metadataNat64, ⟨"https", some "idp.example", some 443⟩) ∧
      HidesBlocked (pinnedTo "idp.example" metadataNat64).resolve.2.ip := by
  refine ⟨by decide, by decide, by decide, rfl, ?_⟩
  exact ⟨.nat64, ⟨169, 254, 169, 254⟩, by decide, rfl⟩

end Numu
