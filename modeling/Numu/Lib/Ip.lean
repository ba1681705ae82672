/-
Internet addresses, as the standard library has them.

An address of either kind is its octets.  A 96-bit front makes an address of the
second kind out of one of the first, and three fronts do so by convention: what is
embedded under them designates the address it was made of.  The library recognises
one of the three.
-/
import Mathlib.Tactic.Common

namespace Ip

structure Ipv4Addr where
  a : UInt8
  b : UInt8
  c : UInt8
  d : UInt8
deriving DecidableEq

structure Ipv6Addr where
  octets : List UInt8
  length_octets : octets.length = 16
deriving DecidableEq

inductive IpAddr where
  | v4 (ip : Ipv4Addr)
  | v6 (ip : Ipv6Addr)
deriving DecidableEq

namespace Ipv4Addr

def octets (ip : Ipv4Addr) : List UInt8 := [ip.a, ip.b, ip.c, ip.d]

/-- 10/8, 172.16/12 and 192.168/16. -/
def isPrivate (ip : Ipv4Addr) : Bool :=
  ip.a = 10 || (ip.a = 172 && 16 ≤ ip.b && ip.b ≤ 31) || (ip.a = 192 && ip.b = 168)

def isLoopback (ip : Ipv4Addr) : Bool := ip.a = 127

def isLinkLocal (ip : Ipv4Addr) : Bool := ip.a = 169 && ip.b = 254

def isUnspecified (ip : Ipv4Addr) : Bool := ip = ⟨0, 0, 0, 0⟩

def isBroadcast (ip : Ipv4Addr) : Bool := ip = ⟨255, 255, 255, 255⟩

/-- 192.0.2/24, 198.51.100/24 and 203.0.113/24. -/
def isDocumentation (ip : Ipv4Addr) : Bool :=
  (ip.a = 192 && ip.b = 0 && ip.c = 2) || (ip.a = 198 && ip.b = 51 && ip.c = 100) ||
    (ip.a = 203 && ip.b = 0 && ip.c = 113)

/-- 224/4. -/
def isMulticast (ip : Ipv4Addr) : Bool := 224 ≤ ip.a && ip.a ≤ 239

end Ipv4Addr

/-! ### Embedding -/

/-- The first twelve octets. -/
abbrev Front : Type := { front : List UInt8 // front.length = 12 }

/-- ::ffff:0:0/96. -/
def mapped : Front := ⟨[0, 0, 0, 0, 0, 0, 0, 0, 0, 0, 255, 255], rfl⟩

/-- ::/96. -/
def compatible : Front := ⟨[0, 0, 0, 0, 0, 0, 0, 0, 0, 0, 0, 0], rfl⟩

/-- 64:ff9b::/96. -/
def nat64 : Front := ⟨[0, 100, 255, 155, 0, 0, 0, 0, 0, 0, 0, 0], rfl⟩

def Ipv4Addr.embed (front : Front) (ip : Ipv4Addr) : Ipv6Addr where
  octets := front.1 ++ ip.octets
  length_octets := by
    rw [List.length_append, front.2]
    rfl

namespace Ipv6Addr

/-- Two octets each, the higher one first. -/
def pairs : List UInt8 → List UInt16
  | hi :: lo :: rest => (hi.toUInt16 <<< 8 ||| lo.toUInt16) :: pairs rest
  | _ => []

def segments (ip : Ipv6Addr) : List UInt16 := pairs ip.octets

def isLoopback (ip : Ipv6Addr) : Bool := ip.octets = List.replicate 15 0 ++ [1]

def isUnspecified (ip : Ipv6Addr) : Bool := ip.octets = List.replicate 16 0

/-- ff00::/8. -/
def isMulticast (ip : Ipv6Addr) : Bool := ip.segments.headD 0 &&& 0xff00 = 0xff00

def toIpv4Mapped (ip : Ipv6Addr) : Option Ipv4Addr :=
  match ip.octets.drop 12 with
  | [a, b, c, d] => if ip.octets.take 12 = mapped.1 then some ⟨a, b, c, d⟩ else none
  | _ => none

end Ipv6Addr

section Embed

variable {front : Front} {ip : Ipv4Addr}

/-- Of what is embedded only the mapped form is recognised. -/
theorem toIpv4Mapped_embed :
    (ip.embed front).toIpv4Mapped = if front = mapped then some ip else none := by
  have htake : (front.1 ++ ip.octets).take 12 = front.1 := by
    rw [List.take_append_of_le_length (Nat.le_of_eq front.2.symm),
      List.take_of_length_le (Nat.le_of_eq front.2)]
  have hdrop : (front.1 ++ ip.octets).drop 12 = ip.octets :=
    List.drop_left' front.2
  unfold Ipv6Addr.toIpv4Mapped Ipv4Addr.embed
  dsimp only
  rw [hdrop, htake]
  show (if front.1 = mapped.1 then some ip else none) = _
  by_cases hfront : front = mapped
  · rw [if_pos hfront, if_pos (congrArg Subtype.val hfront)]
  · rw [if_neg hfront, if_neg fun hc => hfront (Subtype.ext hc)]

/-- An embedded address tells its front and what is embedded. -/
theorem embed_inj {front' : Front} {ip' : Ipv4Addr} :
    ip.embed front = ip'.embed front' ↔ front = front' ∧ ip = ip' := by
  constructor
  · intro h
    have hoctets := congrArg Ipv6Addr.octets h
    obtain ⟨hfront, hip⟩ := List.append_inj hoctets (front.2.trans front'.2.symm)
    refine ⟨Subtype.ext hfront, ?_⟩
    cases ip
    cases ip'
    simpa [Ipv4Addr.octets] using hip
  · rintro ⟨rfl, rfl⟩
    rfl

theorem octets_inj {p q : Ipv6Addr} : p.octets = q.octets ↔ p = q := by
  constructor
  · intro h
    cases p
    cases q
    simpa using h
  · intro h
    rw [h]

/-- The loopback address is the compatible form of one address. -/
theorem isLoopback_compatible : (ip.embed compatible).isLoopback = true ↔ ip = ⟨0, 0, 0, 1⟩ := by
  unfold Ipv6Addr.isLoopback
  rw [decide_eq_true_eq]
  show _ = ((Ipv4Addr.mk 0 0 0 1).embed compatible).octets ↔ _
  rw [octets_inj, embed_inj]
  exact and_iff_right rfl

/-- So is the unspecified address. -/
theorem isUnspecified_compatible :
    (ip.embed compatible).isUnspecified = true ↔ ip = ⟨0, 0, 0, 0⟩ := by
  unfold Ipv6Addr.isUnspecified
  rw [decide_eq_true_eq]
  show _ = ((Ipv4Addr.mk 0 0 0 0).embed compatible).octets ↔ _
  rw [octets_inj, embed_inj]
  exact and_iff_right rfl

end Embed

end Ip
