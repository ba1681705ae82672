/-
The limiter on the auth routes.

The buckets are a table by client key, and the instant at which a call reads the
clock is an argument of the call.  The lock is what puts the calls in an order, so
a run of the limiter is a list of them.  Instants and the window are counted from
one origin in one unit; the count of a bucket has 32 bits.
-/
import Numu.Lib.FixedWindow
import Numu.Lib.Table

namespace Numu

open FixedWindow (Bucket)

/-- The start of the window and its hits, by client key. -/
abbrev Buckets : Type := Table (Prod.fst : String × Bucket → String)

structure RateLimiter where
  max : Nat
  window : Nat
deriving DecidableEq

namespace RateLimiter

/-- Under a flood of keys the expired buckets go. -/
def evict (l : RateLimiter) (now : Nat) (map : Buckets) : Buckets :=
  if 100000 < map.rows.length then
    map.filter fun row => decide (now - row.2.start ≤ l.window)
  else map

/-- Record a hit in the bucket of its key: is it within the limit? -/
def record (l : RateLimiter) (key : String) (now : Nat) (map : Buckets) : Bool × Buckets :=
  let entry := ((map.find? key).map Prod.snd).getD ⟨now, 0⟩
  let entry := if l.window < now - entry.start then ⟨now, 0⟩ else entry
  let entry := { entry with count := (entry.count + 1) % 4294967296 }
  (decide (entry.count ≤ l.max), map.upsert (key, entry))

def allow (l : RateLimiter) (key : String) (now : Nat) (map : Buckets) : Bool × Buckets :=
  l.record key now (l.evict now map)

end RateLimiter

/-! ### Runs -/

/-- A call of `allow`. -/
structure Call where
  key : String
  now : Nat
deriving DecidableEq

/-- The calls of a run, each with its answer. -/
def answers (step : String → Nat → Buckets → Bool × Buckets) :
    Buckets → List Call → List (Call × Bool)
  | _, [] => []
  | map, c :: rest => (c, (step c.key c.now map).1) :: answers step (step c.key c.now map).2 rest

/-- The map when a run is over. -/
def bucketsAfter (step : String → Nat → Buckets → Bool × Buckets) (map : Buckets)
    (calls : List Call) : Buckets :=
  calls.foldl (fun map c => (step c.key c.now map).2) map

end Numu
