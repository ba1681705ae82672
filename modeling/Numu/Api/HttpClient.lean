/-
The client for outbound requests.

It reaches https hosts only, follows no redirects, and is pinned to one of the
addresses the host resolved to after all of them have been looked at.  Parsing the
URL, the resolver and the building of the client are arguments; what is built is
described by what it is built with.
-/
import Numu.Api.Error
import Numu.Lib.Ip

namespace Numu

open Ip

def isBlockedV4 (ip : Ipv4Addr) : Bool :=
  ip.isPrivate || ip.isLoopback || ip.isLinkLocal || ip.isUnspecified || ip.isBroadcast ||
    ip.isDocumentation || ip.isMulticast || ip.a = 0 || (ip.a = 100 && ip.b &&& 0xc0 = 64)

/-- Must an address never be the target of an outbound fetch? -/
def isBlockedIp : IpAddr → Bool
  | .v4 v4 => isBlockedV4 v4
  | .v6 v6 =>
    match v6.toIpv4Mapped with
    | some v4 => isBlockedV4 v4
    | none =>
      let seg := v6.segments
      v6.isLoopback || v6.isUnspecified || v6.isMulticast ||
        seg.headD 0 &&& 0xfe00 = 0xfc00 || seg.headD 0 &&& 0xffc0 = 0xfe80

structure SocketAddr where
  ip : IpAddr
  port : UInt16
deriving DecidableEq

/-- What is read of a parsed URL. -/
structure Url where
  scheme : String
  hostStr : Option String
  portOrKnownDefault : Option UInt16
deriving DecidableEq

/-- What a client is built with: `resolve` pins a host to an address. -/
structure ClientBuilder where
  redirects : Bool
  timeoutSecs : Nat
  resolve : String × SocketAddr
deriving DecidableEq

/-- The outside: the parser of URLs, the resolver, and why a client cannot be built. -/
structure Outbound where
  parse : String → Option Url
  lookupHost : String → UInt16 → Option (List SocketAddr)
  buildError : ClientBuilder → Option String

def timeoutSecs : Nat := 10

def ssrfBlocked : AppError :=
  { status := 403, kind := "ssrf_blocked", detail := "destination not allowed" }

/-- What a client is built with for a host at an address. -/
def pinnedTo (host : String) (addr : SocketAddr) : ClientBuilder :=
  { redirects := false, timeoutSecs := timeoutSecs, resolve := (host, addr) }

/-- Reject if any address is blocked, then pin the first. -/
def gateAddrs (net : Outbound) (host : String) : List SocketAddr → Except AppError ClientBuilder
  | [] => .error (.badRequest "host did not resolve")
  | pinned :: others =>
    if (pinned :: others).any fun addr => isBlockedIp addr.ip then .error ssrfBlocked
    else
      match net.buildError (pinnedTo host pinned) with
      | some e => .error (.internal e)
      | none => .ok (pinnedTo host pinned)

def okOr {α : Type} (e : AppError) : Option α → Except AppError α
  | some a => .ok a
  | none => .error e

/-- A client that can only reach the host at the address it resolved to. -/
def guardedClient (net : Outbound) (url : String) : Except AppError (ClientBuilder × Url) := do
  let parsed ← okOr (.badRequest "invalid url") (net.parse url)
  if parsed.scheme ≠ "https" then .error (.badRequest "only https outbound is allowed")
  else do
    let host ← okOr (.badRequest "url has no host") parsed.hostStr
    let port := parsed.portOrKnownDefault.getD 443
    let addrs ← okOr (.badRequest "dns resolution failed") (net.lookupHost host port)
    let client ← gateAddrs net host addrs
    pure (client, parsed)

end Numu
