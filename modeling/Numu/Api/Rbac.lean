/-
The reach resolver.

Three recursive queries over the membership graph and the scope forest, each
evaluated the way the database does it (`Numu/Lib/WorkingTable.lean`).

  * `principals`: the actor and every team it transitively belongs to.
  * `scopes`: the object and its scope ancestors, climbing up, at most eight.
  * `reach`: everything below an object a principal holds a membership on.

`effectiveRank` joins the first two and is the gate of a single object;
`reachableEntityIds` follows the third and filters listings.
-/
import Numu.Lib.WorkingTable
import Numu.Api.Store

namespace Numu.Store

/-- The teams an id holds a membership on. -/
def teamsOf (s : Store) (id : String) : List String :=
  (s.memberships.rows.filter fun m => m.memberId = id && s.typeOf m.objectId = some "team").map
    MemberEdge.objectId

/-- `principals`: `select $1 union select m.object_id from … join principals`. -/
def principals (s : Store) (actorId : String) : List String :=
  WorkingTable.union s.teamsOf (s.memberships.rows.length + 1) [actorId]

/-- The scope parent of an id. -/
def parentOf (s : Store) (id : String) : Option String :=
  (s.entityData.find? id).bind EntityData.scopeParentId

/-- One climb of `scopes`: from a row of depth below eight to the parent. -/
def climb (s : Store) (row : String × Nat) : List (String × Nat) :=
  if row.2 < 8 then ((s.parentOf row.1).map fun p => (p, row.2 + 1)).toList else []

/-- `scopes`: `select $2, 0 union all select d.scope_parent_id, s.depth + 1 from …`. -/
def scopes (s : Store) (objectId : String) : List String :=
  (WorkingTable.unionAll s.climb 9 [(objectId, 0)]).map Prod.fst

/-- The caller's largest rank over the object and its scope ancestors; none is no reach. -/
def effectiveRank (s : Store) (actorId objectId : String) : Option I32 :=
  ((s.memberships.rows.filter fun m =>
    m.memberId ∈ s.principals actorId && m.objectId ∈ s.scopes objectId).filterMap
      fun m => s.rankOf m.role).max?

/-- The objects a principal of the actor holds a membership on. -/
def anchors (s : Store) (actorId : String) : List String :=
  ((s.memberships.rows.filter fun m => m.memberId ∈ s.principals actorId).map
    MemberEdge.objectId).dedup

/-- The entities whose scope parent is the given one. -/
def childrenOf (s : Store) (id : String) : List String :=
  (s.entityData.rows.filter fun d => d.scopeParentId = some id).map EntityData.entityId

/-- `reach`: `select id from anchors union select d.entity_id from … join reach`. -/
def reach (s : Store) (actorId : String) : List String :=
  WorkingTable.union s.childrenOf (s.entityData.rows.length + 1) (s.anchors actorId)

/-- The ids of one type the actor reaches. -/
def reachableEntityIds (s : Store) (actorId typeId : String) : List String :=
  (s.reach actorId).filter fun id => (s.row? id typeId).isSome

/-- The ids of all types the actor reaches. -/
def reachableEntityIdsAny (s : Store) (actorId : String) : List String := s.reach actorId

/-- Is the target among the principals of the root? -/
def principalsContain (s : Store) (rootId targetId : String) : Bool :=
  targetId ∈ s.principals rootId

end Numu.Store
