/-
The generic object handlers, `/api/objects/:type[/:id]`.

One handler set serves every registered type.  Each handler follows the same
order: resolve the type, pass the object gate, read, check the request, build the
new data, pass the field gate, and only then write.  PUT and PATCH differ in how
the data is built and are one program with that as its parameter.

What a request draws from outside the program, the clock and a random uuid, is an
argument.  A body arrives as the JSON value its bytes parse to, or as the
parser's complaint.
-/
import Mathlib.Data.List.Sort
import Numu.Api.Gates

namespace Numu

open Fallible Handler

/-- A header's value: none when it is not visible ASCII. -/
abbrev HeaderValue : Type := Option String

/-- The headers the handlers read; none is an absent header. -/
structure HeaderMap where
  contentType : Option HeaderValue := none
  ifMatch : Option HeaderValue := none
  ifNoneMatch : Option HeaderValue := none

/-- A parsed document.  The parser keeps one value per key. -/
abbrev Document : Type := { v : Json // (JsonMap.keys v.asMap).Nodup }

/-- A body, parsed. -/
abbrev Body : Type := Except String Document

/-- What a request draws from outside: the database clock and a v4 uuid. -/
structure Ambient where
  now : Timestamp := {}
  uuid : String := ""

structure Response where
  status : Nat
  etag : Option String := none
  location : Option String := none
  allow : Option String := none
  body : Option Json := none
deriving DecidableEq

/-- The query of a listing. -/
structure ListParams where
  limit : Option Int := none
  offset : Option Int := none

/-! ### Version tags and bodies -/

def etag (version : I32) : String := "W/\"" ++ Text.showInt version.val ++ "\""

def parseVersionTag (raw : String) : Option I32 :=
  let s := Text.trim raw.toList
  let s := Text.trim ((Text.dropStart? "W/".toList s).getD s)
  Text.parseI32 (Text.trimWhere (· = '"') s)

/-- Absent, present but not a version, or a version. -/
def ifMatch (headers : HeaderMap) : Option (Option I32) :=
  headers.ifMatch.map fun h => h.bind parseVersionTag

def requireIfMatch (headers : HeaderMap) (ctx : RequestCtx) : Except AppError I32 :=
  match ifMatch headers with
  | none => .error (AppError.preconditionRequired.withRequestId ctx.requestId)
  | some none => .error (AppError.preconditionFailed.withRequestId ctx.requestId)
  | some (some v) => .ok v

/-- The comma separated parts of a text. -/
def splitCommas : List Char → List (List Char)
  | [] => [[]]
  | c :: rest =>
    match splitCommas rest with
    | [] => [[c]]
    | part :: parts => if c = ',' then [] :: part :: parts else (c :: part) :: parts

def ifNoneMatchHit (headers : HeaderMap) (version : I32) : Bool :=
  match headers.ifNoneMatch.join with
  | none => false
  | some raw => (splitCommas raw.toList).any fun t =>
      Text.trim t = ['*'] || parseVersionTag (String.ofList t) = some version

def readJson (headers : HeaderMap) (body : Body) (allowMerge : Bool) : Except AppError Json :=
  let ct := (headers.contentType.join.getD "").toList
  if !("application/json".toList.isPrefixOf ct ||
      (allowMerge && "application/merge-patch+json".toList.isPrefixOf ct)) then
    .error .unsupportedMediaType
  else match body with
    | .error e => .error (.badRequest ("invalid JSON body: " ++ e))
    | .ok v =>
      if v.1.isObject then .ok v.1 else .error (.badRequest "body must be a JSON object")

def entityJson (id typeId : String) (data : Json) (version : I32) : Json :=
  .mkObj [("id", .str id), ("type", .str typeId), ("data", data),
    ("version", .num (.int version.val)), ("etag", .str (etag version))]

/-! ### Checking and building data -/

/-- Every key of the input must be a field the operation may set. -/
def checkInput (td : TypeDef) (payload : Json) (onCreate : Bool) : Except AppError Unit :=
  (JsonMap.keys payload.asMap).forM fun k =>
    match td.field k with
    | none => .error (.badRequest ("unknown field: " ++ k))
    | some f =>
      if onCreate && !f.settable then .error (.badRequest ("field is not settable: " ++ k))
      else if !onCreate && !f.writable then .error (.badRequest ("field is not editable: " ++ k))
      else .ok ()

/-- Is the value one of the field's kind? -/
def kindOk (f : FieldDef) (v : Json) : Bool :=
  match f.kind with
  | "text" | "date" | "ref" => v.asStr?.isSome
  | "int" =>
    match v with
    | .num (.int n) => -9223372036854775808 ≤ n && n < 18446744073709551616
    | _ => false
  | "bool" => v.asBool?.isSome
  | "json" => true
  | "enum" => v.asStr?.isSome && (((f.options.get? "enum").bind Json.asArray?).any (·.contains v))
  | _ => true

def coerceCheck (f : FieldDef) (v : Json) : Except String Unit :=
  if v.isNull || kindOk f v then .ok ()
  else .error ("field `" ++ f.field ++ "` expects " ++ f.kind)

/-- The candidate data: required fields present, and every present field of its kind. -/
def validateFinal (td : TypeDef) (data : Json) : Except AppError Unit :=
  if !data.isObject then .error (.badRequest "data must be an object")
  else td.fields.forM fun f => do
    if f.required && !((data.get? f.field).any fun v => !v.isNull) then
      .error (.unprocessable ("missing required field: " ++ f.field))
    match data.get? f.field with
    | some v => (coerceCheck f v).mapError AppError.unprocessable
    | none => .ok ()

/-- The value the payload gives a field: present and not null. -/
def given (payload : Json) (f : FieldDef) : Option Json :=
  (payload.get? f.field).filter fun v => !v.isNull

/-- CREATE: every settable field from the payload or its default; the others by default. -/
def buildCreateData (td : TypeDef) (payload : Json) : Json :=
  .obj (td.fields.foldl (fun out f =>
    if f.settable then
      match given payload f with
      | some v => JsonMap.insert out f.field v
      | none =>
        match f.default? with
        | some d => JsonMap.insert out f.field d
        | none => out
    else
      match f.default? with
      | some d => JsonMap.insert out f.field d
      | none => out) [])

/-- One field of a PUT: kept when not writable, else given, else default, else cleared. -/
def putField (payload : Json) (out : JsonMap) (f : FieldDef) : JsonMap :=
  if !f.writable then out
  else match given payload f with
    | some v => JsonMap.insert out f.field v
    | none =>
      match f.default? with
      | some d => JsonMap.insert out f.field d
      | none => JsonMap.remove out f.field

/-- PUT: a full replace of the writable fields over the existing data. -/
def buildPutData (td : TypeDef) (existing payload : Json) : Json :=
  .obj (td.fields.foldl (putField payload) existing.asMap)

mutual

/-- JSON Merge Patch: an object is merged key by key, anything else replaces. -/
def mergePatch (target : Json) : Json → Json
  | .obj pm => .obj (mergeFields target.asMap pm)
  | patch => patch

/-- The loop of `mergePatch`: a null deletes its key, another value is merged into it. -/
def mergeFields (t : JsonMap) : List (String × Json) → JsonMap
  | [] => t
  | (k, v) :: rest =>
    match v with
    | .null => mergeFields (JsonMap.remove t k) rest
    | v =>
      let cur := (JsonMap.get? t k).getD .null
      mergeFields (JsonMap.insert (JsonMap.remove t k) k (mergePatch cur v)) rest

end

/-- The scope parent the data names. -/
def scopeParent (td : TypeDef) (data : Json) : Option String :=
  td.scopeParents.head?.bind data.str?

/-! ### Case status -/

/-- The close checks of a workflow that a case has not passed, one query each. -/
def unmetCloseChecks (caseId : String) : List String → Handler (List String)
  | [] => pure []
  | name :: rest => do
    let passed ← query fun s => s.checkPassed caseId name
    let unmet ← unmetCloseChecks caseId rest
    pure (if passed then unmet else name :: unmet)

/-- A case's status change: a legal transition, and into the terminal state only with
every close check passed. -/
def validateCaseChange (st : AppState) (id : String) (data : Json) (oldStatus : Option String)
    (ctx : RequestCtx) : Handler Unit := do
  let wfId := (data.str? "workflow_id").getD "default"
  let newStatus := (data.str? "status").getD ""
  check ((WorkflowCache.validate st.workflows wfId oldStatus newStatus).mapError
    (·.withRequestId ctx.requestId))
  match WorkflowCache.get st.workflows wfId with
  | none => pure ()
  | some wf =>
    if wf.isTerminal newStatus && oldStatus ≠ some newStatus then do
      let unmet ← unmetCloseChecks id wf.closeChecks
      ensure unmet.isEmpty ((AppError.closePreconditionsUnmet
        ("close preconditions not met: " ++ String.intercalate ", " unmet)).withRequestId
          ctx.requestId)
    else pure ()

/-- The `cases` row that mirrors a case's data. -/
def caseMirror (id : String) (data : Json) (version : I32) : CaseRow where
  entityId := id
  title := (data.str? "title").getD ""
  status := (data.str? "status").getD "backlog"
  workflowId := (data.str? "workflow_id").getD "default"
  priority := (data.str? "priority").getD "normal"
  assigneeId := data.str? "assignee_id"
  projectId := data.str? "project_id"
  version := version

def upsertCaseMirror (id : String) (data : Json) (version : I32) : Stmt Unit :=
  upsertCase (caseMirror id data version)

/-- The creator becomes owner; a second grant replaces the role. -/
def grantOwner (objectId memberId : String) : Stmt Unit :=
  upsertMembership objectId memberId "owner" none

/-- The audit row of a mutation; a failure to record it is only logged. -/
def recordEvent (ctx : RequestCtx) (actorId : String) (entityId : Option String) (kind : String)
    (payload : Json) : Handler Unit :=
  executeQuietly (insertEvent
    { entityId := entityId, actorId := actorId, kind := kind, payload := payload,
      requestId := ctx.requestId, traceId := ctx.traceId })

/-! ### Self-description -/

/-- One field of an OPTIONS body. -/
def fieldJson (readable : List String) (f : FieldDef) : Json :=
  .mkObj [("field", .str f.field), ("label", .str f.label), ("kind", .str f.kind),
    ("required", .bool f.required), ("editable", .bool f.editable),
    ("perm_class", .str f.permClass), ("options", f.options),
    ("can_read", .bool (readable.contains f.field)), ("can_write", .bool f.writable)]

/-- The fields that name another type, with its prefix. -/
def refFields (td : TypeDef) : JsonMap :=
  td.fields.foldl (fun out f =>
    match f.options.str? "ref" with
    | some r => JsonMap.insert out f.field (.str r)
    | none => out) []

/-- What OPTIONS says about a resource. -/
def optionsBody (td : TypeDef) (caller : Caller) (objectId : Option String) (isItem : Bool)
    (etagVersion : Option I32) : Handler Json := do
  let readable ← readableSet caller td objectId
  let allow ← permittedVerbs caller td objectId isItem
  let verdict ← rbacVerdict caller td objectId isItem
  let required := (td.fields.filter FieldDef.required).map fun f => Json.str f.field
  pure (.mkObj ([("type", .str td.typeId), ("id_prefix", .str td.idPrefix),
    ("resource", .str (if isItem then "item" else "collection")),
    ("allow", .arr (allow.map Json.str)), ("rbac", verdict),
    ("fields", .arr (td.fields.map (fieldJson readable))),
    ("validation", .mkObj [("required", .arr required), ("refs", .obj (refFields td))])] ++
    (etagVersion.map fun v => ("concurrency", Json.mkObj [("etag", .str (etag v))])).toList))

/-! ### Collection handlers -/

def resolve (st : AppState) (typeId : String) (ctx : RequestCtx) : Handler TypeDef :=
  getOr (TypeDefCache.get st.registry typeId) (deny404 ctx)

/-- `select … where type_id = $1 [and entity_id = any($2)] order by updated_at desc limit offset`. -/
def Store.listRows (s : Store) (typeId : String) (ids : Option (List String)) (limit offset : Int) :
    List EntityData :=
  (((s.entityData.rows.filter fun d =>
      d.typeId = typeId && (ids.all fun l => l.contains d.entityId)).insertionSort
        fun a b => b.updatedAt.micros ≤ a.updatedAt.micros).drop offset.toNat).take limit.toNat

/-- The items of a listing, each with the fields the caller may read. -/
def listItems (caller : Caller) (td : TypeDef) (typeId : String) :
    List EntityData → Handler (List Json)
  | [] => pure []
  | r :: rest => do
    let data ← filterReadable caller td r.entityId r.data
    let items ← listItems caller td typeId rest
    pure (entityJson r.entityId typeId data r.version :: items)

/-- The rows of a listing: all of the type for an admin, the reachable ones otherwise. -/
def visibleRows (caller : Caller) (typeId : String) (limit offset : Int) :
    Handler (List EntityData) :=
  if caller.isPlatformAdmin then query fun s => s.listRows typeId none limit offset
  else do
    let ids ← query fun s => s.reachableEntityIds caller.actorId typeId
    query fun s => s.listRows typeId (some ids) limit offset

def collGet (st : AppState) (ctx : RequestCtx) (caller : Caller) (typeId : String)
    (q : ListParams) : Handler Response := do
  let td ← resolve st typeId ctx
  let ok ← requireAction caller td none .view
  ensure ok (deny404 ctx)
  let limit := min (max (q.limit.getD 50) 1) 200
  let offset := max (q.offset.getD 0) 0
  let rows ← visibleRows caller typeId limit offset
  let items ← listItems caller td typeId rows
  pure { status := 200, body := some (.mkObj [("items", .arr items),
    ("limit", .num (.int limit)), ("offset", .num (.int offset))]) }

def collHead (st : AppState) (ctx : RequestCtx) (caller : Caller) (typeId : String) :
    Handler Response := do
  let td ← resolve st typeId ctx
  let ok ← requireAction caller td none .view
  ensure ok (deny404 ctx)
  pure { status := 200 }

def collOptions (st : AppState) (ctx : RequestCtx) (caller : Caller) (typeId : String) :
    Handler Response := do
  let td ← resolve st typeId ctx
  let ok ← requireAction caller td none .view
  ensure ok (deny404 ctx)
  let allow ← permittedVerbs caller td none false
  let body ← optionsBody td caller none false none
  pure { status := 200, allow := some (String.intercalate ", " allow), body := some body }

/-- The transaction of a create: the entity, its data, the owner edge, and a case's mirror. -/
def createTx (td : TypeDef) (typeId id actorId : String) (data : Json) (sp : Option String)
    (now : Timestamp) : Stmt Unit := do
  insertEntity { id := id, type := typeId, createdBy := some actorId }
  insertEntityData
    { entityId := id, typeId := typeId, data := data, scopeParentId := sp, updatedAt := now }
  grantOwner id actorId
  if td.typeId = "case" then upsertCaseMirror id data 1

def mint (td : TypeDef) (uuid : String) : String := td.idPrefix ++ "_" ++ uuid

/-- The workflow's say on a new case: its status must be the initial one. -/
def validateNewCase (st : AppState) (td : TypeDef) (data : Json) (ctx : RequestCtx) :
    Except AppError Unit :=
  if td.typeId = "case" then
    (WorkflowCache.validate st.workflows ((data.str? "workflow_id").getD "default") none
      ((data.str? "status").getD "")).mapError (·.withRequestId ctx.requestId)
  else .ok ()

/-- A scope parent may be missing where the type has none or does not require it. -/
def requireScopeParent (td : TypeDef) (sp : Option String) (ctx : RequestCtx) :
    Except AppError Unit :=
  if sp.isNone && !(td.scopeParents.isEmpty || !td.scopeParentRequired) then
    .error ((AppError.unprocessable ("this type requires a scope parent: " ++
      td.scopeParents.head?.getD "parent")).withRequestId ctx.requestId)
  else .ok ()

def collCreate (st : AppState) (ctx : RequestCtx) (env : Ambient) (caller : Caller)
    (typeId : String) (headers : HeaderMap) (body : Body) : Handler Response := do
  let td ← resolve st typeId ctx
  let payload ← check (readJson headers body false)
  check (checkInput td payload true)
  let data := buildCreateData td payload
  check (validateFinal td data)
  check (validateNewCase st td data ctx)
  let sp := scopeParent td data
  check (requireScopeParent td sp ctx)
  let ok ← requireAction caller td sp .create
  ensure ok (deny404 ctx)
  let id := mint td env.uuid
  execute (createTx td typeId id caller.actorId data sp env.now)
  recordEvent ctx caller.actorId (some id) (typeId ++ ".created") data
  pure { status := 201, etag := some (etag 1),
         location := some ("/api/objects/" ++ typeId ++ "/" ++ id),
         body := some (entityJson id typeId data 1) }

/-! ### Item handlers -/

def itemGet (st : AppState) (ctx : RequestCtx) (caller : Caller) (typeId id : String)
    (headers : HeaderMap) : Handler Response := do
  let td ← resolve st typeId ctx
  let ok ← requireAction caller td (some id) .view
  ensure ok (deny404 ctx)
  let found ← query fun s => s.row? id typeId
  let row ← getOr found (deny404 ctx)
  let data ← filterReadable caller td id row.data
  if ifNoneMatchHit headers row.version then
    pure { status := 304, etag := some (etag row.version) }
  else
    pure { status := 200, etag := some (etag row.version),
           body := some (entityJson id typeId data row.version) }

def itemHead (st : AppState) (ctx : RequestCtx) (caller : Caller) (typeId id : String) :
    Handler Response := do
  let td ← resolve st typeId ctx
  let ok ← requireAction caller td (some id) .view
  ensure ok (deny404 ctx)
  let found ← query fun s => s.row? id typeId
  let row ← getOr found (deny404 ctx)
  pure { status := 200, etag := some (etag row.version) }

def itemOptions (st : AppState) (ctx : RequestCtx) (caller : Caller) (typeId id : String) :
    Handler Response := do
  let td ← resolve st typeId ctx
  let ok ← requireAction caller td (some id) .view
  ensure ok (deny404 ctx)
  let found ← query fun s => s.row? id typeId
  let row ← getOr found (deny404 ctx)
  let allow ← permittedVerbs caller td (some id) true
  let body ← optionsBody td caller (some id) true (some row.version)
  pure { status := 200, allow := some (String.intercalate ", " allow), body := some body }

/-- The two ways of updating an item. -/
inductive UpdateVerb where
  | put
  | patch
deriving DecidableEq

namespace UpdateVerb

/-- How the verb assembles the new data. -/
def build (v : UpdateVerb) (td : TypeDef) (existing payload : Json) : Json :=
  match v with
  | .put => buildPutData td existing payload
  | .patch => mergePatch existing payload

/-- Is a merge-patch content type accepted? -/
def allowMerge : UpdateVerb → Bool
  | .put => false
  | .patch => true

def eventSuffix : UpdateVerb → String
  | .put => ".replaced"
  | .patch => ".patched"

end UpdateVerb

/-- The checks of an update once the existing data is read; answers the new data and the
expected version. -/
def updateChecks (v : UpdateVerb) (st : AppState) (ctx : RequestCtx) (caller : Caller)
    (td : TypeDef) (id : String) (headers : HeaderMap) (body : Body) (existing : Json) :
    Handler (Json × I32) := do
  let expected ← check (requireIfMatch headers ctx)
  let payload ← check (readJson headers body v.allowMerge)
  check (checkInput td payload false)
  let data := v.build td existing payload
  check (validateFinal td data)
  requireWrite caller td id (JsonMap.keys payload.asMap) ctx
  onlyIf (td.typeId = "case") (validateCaseChange st id data (existing.str? "status") ctx)
  pure (data, expected)

/-- The writes of an update: the guarded row, a case's mirror, the audit row. -/
def updateWrites (v : UpdateVerb) (ctx : RequestCtx) (env : Ambient) (caller : Caller)
    (td : TypeDef) (typeId id : String) (data : Json) (expected : I32) : Handler Response := do
  let affected ← execute
    (updateEntityData data (scopeParent td data) id typeId expected env.now)
  ensure (affected ≠ 0) (AppError.preconditionFailed.withRequestId ctx.requestId)
  onlyIf (td.typeId = "case") (execute (upsertCaseMirror id data expected.succ))
  recordEvent ctx caller.actorId (some id) (typeId ++ v.eventSuffix) data
  pure { status := 200, etag := some (etag expected.succ),
         body := some (entityJson id typeId data expected.succ) }

/-- PUT and PATCH: gate, read, check, write. -/
def itemUpdate (v : UpdateVerb) (st : AppState) (ctx : RequestCtx) (env : Ambient)
    (caller : Caller) (typeId id : String) (headers : HeaderMap) (body : Body) :
    Handler Response := do
  let td ← resolve st typeId ctx
  let ok ← requireAction caller td (some id) .edit
  ensure ok (deny404 ctx)
  let found ← query fun s => s.row? id typeId
  let row ← getOr found (deny404 ctx)
  let checked ← updateChecks v st ctx caller td id headers body row.data
  updateWrites v ctx env caller td typeId id checked.1 checked.2

def itemPut (st : AppState) (ctx : RequestCtx) (env : Ambient) (caller : Caller)
    (typeId id : String) (headers : HeaderMap) (body : Body) : Handler Response :=
  itemUpdate .put st ctx env caller typeId id headers body

def itemPatch (st : AppState) (ctx : RequestCtx) (env : Ambient) (caller : Caller)
    (typeId id : String) (headers : HeaderMap) (body : Body) : Handler Response :=
  itemUpdate .patch st ctx env caller typeId id headers body

def itemDelete (st : AppState) (ctx : RequestCtx) (caller : Caller) (typeId id : String)
    (headers : HeaderMap) : Handler Response := do
  let td ← resolve st typeId ctx
  let ok ← requireAction caller td (some id) .delete
  ensure ok (deny404 ctx)
  let found ← query fun s => s.row? id typeId
  ensure found.isSome (deny404 ctx)
  let expected ← check (requireIfMatch headers ctx)
  let affected ← execute (deleteEntity id typeId expected)
  ensure (affected ≠ 0) (AppError.preconditionFailed.withRequestId ctx.requestId)
  recordEvent ctx caller.actorId (some id) (typeId ++ ".deleted") (.obj [])
  pure { status := 204 }

/-! ### Verbs that are not offered -/

/-- The answer to a verb that a resource does not offer: what it offers to anybody. -/
def m405 (st : AppState) (ctx : RequestCtx) (caller : Caller) (typeId : String) (isItem : Bool) :
    Handler Response := do
  let td ← resolve st typeId ctx
  let allow ← permittedVerbs caller td none isItem
  throw ((AppError.methodNotAllowed allow).withRequestId ctx.requestId)

/-- PUT, PATCH and DELETE of a collection. -/
def m405Coll (st : AppState) (ctx : RequestCtx) (caller : Caller) (typeId : String) :
    Handler Response := m405 st ctx caller typeId false

/-- POST to an item; which one is not looked at. -/
def m405Item (st : AppState) (ctx : RequestCtx) (caller : Caller) (typeId : String) :
    Handler Response := m405 st ctx caller typeId true

end Numu
