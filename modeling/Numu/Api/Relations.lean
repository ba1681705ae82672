/-
The relation handlers, `/api/relations`.

A relation is a typed edge between two entities.  Writing one needs the edit rank
on its subject and the view rank on its object, and both denials are the same 404.
Listing the edges of an entity shows those whose other end the caller reaches.

A body arrives as the input the deserializer builds from it, or as the
deserializer's complaint.
-/
import Numu.Api.Objects

namespace Numu

open Fallible Handler

/-- The registered vocabulary. -/
def relationTypes : List String :=
  ["relates-to", "duplicates", "blocks", "references", "article-of", "parent-of"]

structure RelInput where
  subjectId : String
  objectId : String
  relationType : String

/-- The query of a listing of relations. -/
structure RelationQuery where
  entity : Option String := none
  relationType : Option String := none

def relationJson (r : RelationRow) : Json :=
  .mkObj [("id", .str r.id), ("subject_id", .str r.subjectId), ("object_id", .str r.objectId),
    ("relation_type", .str r.relationType), ("created_by", (r.createdBy.map Json.str).getD .null),
    ("created_at", .str r.createdAt.text)]

/-- Both gates of a new edge; the second is asked only when the first lets it through. -/
def reachesBoth (st : AppState) (caller : Caller) (subjectId objectId : String) : Handler Bool := do
  let edit ← reachAction st caller subjectId .edit
  if edit then reachAction st caller objectId .view else pure false

def createRelation (st : AppState) (ctx : RequestCtx) (env : Ambient) (caller : Caller)
    (body : Except String RelInput) : Handler Response := do
  let input ← check (body.mapError fun e =>
    (AppError.badRequest ("invalid relation: " ++ e)).withRequestId ctx.requestId)
  ensure (relationTypes.contains input.relationType)
    ((AppError.unprocessable ("unknown relation_type '" ++ input.relationType ++ "' (one of: " ++
      String.intercalate ", " relationTypes ++ ")")).withRequestId ctx.requestId)
  ensure (input.subjectId ≠ input.objectId)
    ((AppError.unprocessable "a relation cannot link an entity to itself").withRequestId
      ctx.requestId)
  let ok ← reachesBoth st caller input.subjectId input.objectId
  ensure ok (deny404 ctx)
  let id := "REL_" ++ env.uuid
  execute (insertRelation
    { id := id, subjectId := input.subjectId, objectId := input.objectId,
      relationType := input.relationType, createdBy := some caller.actorId, createdAt := env.now })
  recordEvent ctx caller.actorId (some input.subjectId) "relation.created"
    (.mkObj [("id", .str id), ("object_id", .str input.objectId),
      ("relation_type", .str input.relationType)])
  let found ← query fun s => s.relations.find? id
  let row ← getOr found (AppError.ofSqlx .rowNotFound)
  pure { status := 201, body := some (relationJson row) }

/-- The authority to delete an edge is the one that wrote it: edit on the subject. -/
def deleteRelation (st : AppState) (ctx : RequestCtx) (caller : Caller) (id : String) :
    Handler Response := do
  let found ← query fun s => (s.relations.find? id).map RelationRow.subjectId
  let subject ← getOr found (deny404 ctx)
  let ok ← reachAction st caller subject .edit
  ensure ok (deny404 ctx)
  execute (deleteRelationRow id)
  recordEvent ctx caller.actorId (some subject) "relation.deleted" (.mkObj [("id", .str id)])
  pure { status := 204 }

/-- `select … from relations where (subject_id = $1 or object_id = $1) and … order by created_at
desc`. -/
def Store.edgesOf (s : Store) (entity : String) (relationType : Option String) :
    List RelationRow :=
  (s.relations.rows.filter fun r =>
    (r.subjectId = entity || r.objectId = entity) &&
      (relationType.all fun t => r.relationType = t)).insertionSort
        fun a b => b.createdAt.micros ≤ a.createdAt.micros

/-- The end of an edge that is not the given one. -/
def RelationRow.other (r : RelationRow) (entity : String) : String :=
  if r.subjectId = entity then r.objectId else r.subjectId

/-- What the caller reaches; none is everything. -/
def reachableOf (caller : Caller) : Handler (Option (List String)) :=
  if caller.isPlatformAdmin then pure none
  else do
    let ids ← query fun s => s.reachableEntityIdsAny caller.actorId
    pure (some ids)

def listRelations (st : AppState) (ctx : RequestCtx) (caller : Caller) (q : RelationQuery) :
    Handler Response := do
  let entity ← getOr q.entity ((AppError.badRequest
    "the `entity` query param is required").withRequestId ctx.requestId)
  let ok ← reachAction st caller entity .view
  ensure ok (deny404 ctx)
  let rows ← query fun s => s.edgesOf entity q.relationType
  let reachable ← reachableOf caller
  let out := rows.filter fun r => reachable.all fun set => set.contains (r.other entity)
  pure { status := 200, body := some (.mkObj [("relations", .arr (out.map relationJson))]) }

end Numu
