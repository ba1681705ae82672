/-
The search, `/api/search`.

One statement matches the text index of every row, ranks what matches and picks a
title; rows out of the caller's reach are left out.  What the database makes of
texts is not this program's: whether an index matches, how it ranks, what a value
that is no string reads like, which of the naming fields is the title, and in what
order rows of one rank come are the parameters of `FullText`.
-/
import Numu.Api.Objects

namespace Numu

open Fallible Handler

/-- What the database makes of the texts it is handed, with ranks in `ρ`. -/
structure FullText (ρ : Type) where
  /-- `search_vector @@ query`, of the query text and the indexed strings. -/
  hits : String → List String → Bool
  /-- `ts_rank(search_vector, query)`. -/
  rank : String → List String → ρ
  /-- Where a row stands among those of its rank, which the query leaves open. -/
  place : String → Nat
  /-- A rank in the answer. -/
  shown : ρ → Json
  /-- The text of a value that is neither a string nor null. -/
  textOf : Json → String
  /-- The title, of three naming fields and the id. -/
  title : Option String → Option String → Option String → String → String

/-- The query of a search. -/
structure SearchQ where
  q : Option String := none
  typeId : Option String := none
  limit : Option Int := none

/-- The value under a key; a null is none. -/
def named (data : Json) (key : String) : Option Json := (data.get? key).filter fun v => !v.isNull

/-- The text of a value, of which a string is its own. -/
def readAs (textOf : Json → String) : Json → String
  | .str s => s
  | v => textOf v

namespace FullText

variable {ρ : Type} (E : FullText ρ)

/-- `data->>'key'`. -/
def text (data : Json) (key : String) : Option String :=
  (named data key).map (readAs E.textOf)

def titleOf (d : EntityData) : String :=
  E.title (E.text d.data "title") (E.text d.data "name") (E.text d.data "display_name") d.entityId

variable [LinearOrder ρ]

/-- `order by rank desc`. -/
def Before (q : String) (a b : EntityData) : Prop :=
  E.rank q b.data.strings < E.rank q a.data.strings ∨
    E.rank q a.data.strings = E.rank q b.data.strings ∧ E.place a.entityId ≤ E.place b.entityId

instance (q : String) : DecidableRel (E.Before q) := fun _ _ => inferInstanceAs (Decidable (_ ∨ _))

/-- `where d.search_vector @@ query and ($2 is null or d.type_id = $2) [and entity_id = any($3)]`. -/
def selects (q : String) (typeId : Option String) (ids : Option (List String)) (d : EntityData) :
    Bool :=
  E.hits q d.data.strings && typeId.all (fun t => d.typeId = t) &&
    ids.all fun l => l.contains d.entityId

/-- The rows of a search. -/
def rows (s : Store) (q : String) (typeId : Option String) (ids : Option (List String))
    (limit : Int) : List EntityData :=
  ((s.entityData.rows.filter (E.selects q typeId ids)).insertionSort (E.Before q)).take limit.toNat

def resultJson (q : String) (d : EntityData) : Json :=
  .mkObj [("entity_id", .str d.entityId), ("type", .str d.typeId), ("title", .str (E.titleOf d)),
    ("rank", E.shown (E.rank q d.data.strings))]

end FullText

/-- Is there nothing to search for? -/
def blankQuery (qp : SearchQ) : Bool := (Text.trim (qp.q.getD "").toList).isEmpty

/-- The number of results asked for, within bounds. -/
def searchLimit (qp : SearchQ) : Int := min (max (qp.limit.getD 20) 1) 100

def search {ρ : Type} [LinearOrder ρ] (E : FullText ρ) (ctx : RequestCtx) (caller : Caller)
    (qp : SearchQ) : Handler Response := do
  let q := qp.q.getD ""
  ensure (!blankQuery qp)
    ((AppError.badRequest "the `q` query param is required").withRequestId ctx.requestId)
  let rows ←
    if caller.isPlatformAdmin then query fun s => E.rows s q qp.typeId none (searchLimit qp)
    else do
      let reach ← query fun s => s.reachableEntityIdsAny caller.actorId
      query fun s => E.rows s q qp.typeId (some reach) (searchLimit qp)
  pure { status := 200, body := some (.mkObj [("query", .str q),
    ("results", .arr (rows.map (E.resultJson q)))]) }

end Numu
