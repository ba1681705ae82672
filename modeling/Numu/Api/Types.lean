/-
The registration of types, `POST /api/types`.

A type is rows of the database and an entry of the registry the process caches.
Registering one checks the specification, inserts the rows, loads the registry
anew and publishes it, each a step of its own on the process and its database.

A body arrives as the specification the deserializer builds from it, or as the
deserializer's complaint.  How a value prints in a message is the JSON library's
and an argument.
-/
import Numu.Api.Objects

namespace Numu

open Fallible

/-- One field of a specification, with what the deserializer fills in. -/
structure FieldSpec where
  field : String
  label : String := ""
  kind : String
  required : Bool := false
  editable : Bool := true
  permClass : String := "standard"
  options : Json := .null
  searchable : Bool := false

/-- The specification of a type. -/
structure TypeSpec where
  typeId : String
  idPrefix : String
  displayName : String
  displayNamePlural : String := ""
  scopeParents : List String := []
  fields : List FieldSpec

/-! ### The checks of a specification -/

def reservedTypes : List String :=
  ["entities", "entity_data", "type_definitions", "type_fields", "sessions", "events",
    "memberships", "roles", "field_permissions", "workflows", "cases", "case_close_checks",
    "auth_identities"]

def reservedFields : List String :=
  ["id", "type", "version", "created_at", "updated_at", "scope_parent_id"]

def kinds : List String := ["text", "int", "bool", "date", "json", "ref", "enum"]

def permClasses : List String := ["system", "readonly", "standard", "owner_grade"]

def identOk (s : String) (maxLen : Nat) : Bool :=
  !s.isEmpty && s.utf8ByteSize ≤ maxLen && s.toList.head?.any Char.isLower &&
    s.toList.all fun c => c.isLower || c.isDigit || c = '_'

def prefixOk (s : String) : Bool :=
  2 ≤ s.utf8ByteSize && s.utf8ByteSize ≤ 6 && s.toList.head?.any Char.isUpper &&
    s.toList.all fun c => c.isUpper || c.isDigit

/-- Is the prefix one of a registered type? -/
def TypeDefCache.takes (reg : TypeDefCache) (idPrefix : String) : Bool :=
  reg.rows.any fun t => t.idPrefix = idPrefix

/-- The checks of the names: well formed, not reserved, not taken. -/
def checkNames (spec : TypeSpec) (current : TypeDefCache) : Except AppError Unit :=
  if !identOk spec.typeId 31 then
    .error (.unprocessable ("invalid type_id '" ++ spec.typeId ++
      "': must match ^[a-z][a-z0-9_]*$ (<=31 chars)"))
  else if reservedTypes.contains spec.typeId then
    .error (.unprocessable ("'" ++ spec.typeId ++ "' is a reserved SYSTEM name"))
  else if (current.get spec.typeId).isSome then
    .error (.conflict ("type '" ++ spec.typeId ++ "' is already registered"))
  else if !prefixOk spec.idPrefix then
    .error (.unprocessable ("invalid id_prefix '" ++ spec.idPrefix ++
      "': must match ^[A-Z][A-Z0-9]+$ (2..=6 chars)"))
  else if current.takes spec.idPrefix then
    .error (.conflict ("id_prefix '" ++ spec.idPrefix ++ "' is already taken"))
  else if (Text.trim spec.displayName.toList).isEmpty then
    .error (.unprocessable "display_name is required")
  else if spec.fields.isEmpty then
    .error (.unprocessable "a type needs at least one field")
  else .ok ()

/-- The vocabulary of an enumerated field: some strings, and the default one of them. -/
def checkEnum (display : Json → String) (f : FieldSpec) : Except AppError Unit :=
  match (f.options.get? "enum").bind Json.asArray? with
  | some (a :: rest) =>
    if (a :: rest).all fun v => v.asStr?.isSome then
      match f.options.get? "default" with
      | some d =>
        if (a :: rest).contains d then .ok ()
        else .error (.unprocessable ("field '" ++ f.field ++ "': default " ++ display d ++
          " is not one of its enum values"))
      | none => .ok ()
    else .error (.unprocessable ("enum field '" ++ f.field ++
      "' needs a non-empty options.enum of strings"))
  | _ => .error (.unprocessable ("enum field '" ++ f.field ++
      "' needs a non-empty options.enum of strings"))

/-- The target of a reference: this type, or a registered one. -/
def checkRef (spec : TypeSpec) (current : TypeDefCache) (f : FieldSpec) : Except AppError Unit :=
  match f.options.str? "ref" with
  | some r =>
    if r = spec.idPrefix || current.takes r then .ok ()
    else .error (.unprocessable ("field '" ++ f.field ++ "': options.ref '" ++ r ++
      "' is not a known type prefix"))
  | none => .ok ()

/-- The checks of a field, after those of the fields `seen` before it. -/
def checkField (display : Json → String) (spec : TypeSpec) (current : TypeDefCache)
    (seen : List String) (f : FieldSpec) : Except AppError Unit := do
  if !identOk f.field 63 then
    .error (.unprocessable ("invalid field name '" ++ f.field ++ "'"))
  else if reservedFields.contains f.field then
    .error (.unprocessable ("'" ++ f.field ++ "' is a reserved field name"))
  else if seen.contains f.field then
    .error (.unprocessable ("duplicate field '" ++ f.field ++ "'"))
  else if !kinds.contains f.kind then
    .error (.unprocessable ("field '" ++ f.field ++ "': unknown kind '" ++ f.kind ++ "'"))
  else if !permClasses.contains f.permClass then
    .error (.unprocessable ("field '" ++ f.field ++ "': unknown perm_class '" ++ f.permClass ++
      "'"))
  if f.kind = "enum" then checkEnum display f
  if f.kind = "ref" then checkRef spec current f
  -- A required field that no client sets is set by its default or not at all.
  let engineOwned := f.permClass = "readonly" || f.permClass = "system"
  if f.required && engineOwned && (f.options.get? "default").isNone then
    .error (.unprocessable ("field '" ++ f.field ++ "' is required + " ++ f.permClass ++
      " but has no options.default — every create would 422"))

def checkFields (display : Json → String) (spec : TypeSpec) (current : TypeDefCache) :
    List String → List FieldSpec → Except AppError Unit
  | _, [] => .ok ()
  | seen, f :: rest => do
    checkField display spec current seen f
    checkFields display spec current (f.field :: seen) rest

/-- A scope parent is a reference that is set once. -/
def checkScopeParent (spec : TypeSpec) (sp : String) : Except AppError Unit :=
  match spec.fields.find? fun f => f.field = sp with
  | none => .error (.unprocessable ("scope_parent '" ++ sp ++ "' is not a field of this type"))
  | some f =>
    if f.kind ≠ "ref" || f.editable then
      .error (.unprocessable ("scope_parent '" ++ sp ++
        "' must be a set-once (editable=false) ref field"))
    else .ok ()

def validateSpec (display : Json → String) (spec : TypeSpec) (current : TypeDefCache) :
    Except AppError Unit := do
  checkNames spec current
  checkFields display spec current [] spec.fields
  spec.scopeParents.forM (checkScopeParent spec)

/-! ### The rows of a type -/

/-- The row of a field; its ordinal is its place, from one. -/
def FieldSpec.fieldDef (f : FieldSpec) (place : Nat) : FieldDef where
  field := f.field
  label := f.label
  kind := f.kind
  required := f.required
  editable := f.editable
  ordinal := I32.wrap (place + 1)
  permClass := f.permClass
  options := if f.options.isNull then .obj [] else f.options
  searchable := f.searchable

namespace TypeSpec

def fieldDefs (spec : TypeSpec) : List FieldDef :=
  spec.fields.zipIdx.map fun p => p.1.fieldDef p.2

/-- The plural, made up when none is given. -/
def plural (spec : TypeSpec) : String :=
  if (Text.trim spec.displayNamePlural.toList).isEmpty then spec.displayName ++ "s"
  else spec.displayNamePlural

/-- The type of a specification whose fields have distinct names. -/
def typeDef (spec : TypeSpec) (h : (spec.fieldDefs.map FieldDef.field).Nodup) : TypeDef where
  typeId := spec.typeId
  idPrefix := spec.idPrefix
  displayName := spec.displayName
  displayNamePlural := spec.plural
  scopeParents := spec.scopeParents
  isBuiltin := false
  methodPolicy := .obj []
  fields := spec.fieldDefs
  nodup := h

end TypeSpec

/--
The transaction of a registration: `insert into type_definitions …`, then `insert into type_fields …`
for each field.  The type id, the prefix and the field names of the type are unique.
-/
def registerTx (spec : TypeSpec) : Stmt Unit := fun s =>
  if h : (spec.fieldDefs.map FieldDef.field).Nodup then
    match s.typeDefinitions.insert (spec.typeDef h) with
    | none => .error .uniqueViolation
    | some t =>
      if TypeDefCache.takes s.typeDefinitions spec.idPrefix then .error .uniqueViolation
      else .ok ((), { s with typeDefinitions := t })
  else .error .uniqueViolation

/-- A type as the wire shows it. -/
def typeDescriptor (td : TypeDef) : Json :=
  .mkObj [("type_id", .str td.typeId), ("id_prefix", .str td.idPrefix),
    ("display_name", .str td.displayName), ("display_name_plural", .str td.displayNamePlural),
    ("scope_parents", .arr (td.scopeParents.map Json.str)), ("is_builtin", .bool td.isBuiltin),
    ("method_policy", td.methodPolicy),
    ("fields", .arr (td.fields.map fun f => .mkObj [("field", .str f.field),
      ("label", .str f.label), ("kind", .str f.kind), ("required", .bool f.required),
      ("editable", .bool f.editable), ("ordinal", .num (.int f.ordinal.val)),
      ("perm_class", .str f.permClass), ("options", f.options),
      ("searchable", .bool f.searchable)]))]

/-! ### The catalog of types -/

/-- A type as the catalog lists it. -/
def typeSummary (td : TypeDef) : Json :=
  .mkObj [("type_id", .str td.typeId), ("id_prefix", .str td.idPrefix),
    ("display_name", .str td.displayName), ("display_name_plural", .str td.displayNamePlural),
    ("scope_parents", .arr (td.scopeParents.map Json.str)), ("is_builtin", .bool td.isBuiltin),
    ("field_count", .num (.int td.fields.length))]

/-- `GET /api/types`: every registered type, by its id. -/
def listTypes (st : AppState) : Handler Response :=
  pure { status := 200, body := some (.mkObj [("types", .arr
    ((st.registry.rows.insertionSort fun a b => a.typeId ≤ b.typeId).map typeSummary))]) }

/-- `GET /api/types/:type`. -/
def getType (st : AppState) (ctx : RequestCtx) (typeId : String) : Handler Response := do
  let td ← getOr (TypeDefCache.get st.registry typeId) (deny404 ctx)
  pure { status := 200, body := some (typeDescriptor td) }

/-! ### The process -/

/-- The process and its database. -/
structure Service extends AppState where
  store : Store

namespace Service

/-- A statement of the process, or a transaction of several. -/
def execute {α : Type} (q : Stmt α) : Fallible AppError Service α :=
  attempt fun σ =>
    match q σ.store with
    | .ok (a, s) => .ok (a, { σ with store := s })
    | .error e => .error (AppError.ofSqlx e)

/-- A statement whose failure is logged and otherwise ignored. -/
def executeQuietly (q : Stmt Unit) : Fallible AppError Service Unit :=
  attempt fun σ =>
    match q σ.store with
    | .ok (_, s) => .ok ((), { σ with store := s })
    | .error _ => .ok ((), σ)

/--
What the database holds of the registry.  The types are selected before their fields, and a type's
fields are inserted with it and stay, so both are as the first select finds them.
-/
def load : Fallible AppError Service TypeDefCache := query fun σ => σ.store.typeDefinitions

/-- Put a registry in the place of the published one. -/
def publish (reg : TypeDefCache) : Fallible AppError Service Unit :=
  attempt fun σ => .ok ((), { σ with registry := reg })

end Service

/-- Register a type: check, insert, load, publish. -/
def createType (display : Json → String) (ctx : RequestCtx) (caller : Caller)
    (body : Except String TypeSpec) : Fallible AppError Service Response := do
  ensure caller.isPlatformAdmin (AppError.forbidden.withRequestId ctx.requestId)
  let spec ← check (body.mapError fun e =>
    (AppError.badRequest ("invalid type spec: " ++ e)).withRequestId ctx.requestId)
  let reg ← query fun σ => σ.registry
  check ((validateSpec display spec reg).mapError (·.withRequestId ctx.requestId))
  Service.execute (registerTx spec)
  let fresh ← Service.load
  Service.publish fresh
  Service.executeQuietly (insertEvent
    { entityId := none, actorId := caller.actorId, kind := "type.registered",
      payload := .mkObj [("type_id", .str spec.typeId), ("id_prefix", .str spec.idPrefix),
        ("fields", .num (.int spec.fields.length))],
      requestId := ctx.requestId, traceId := ctx.traceId })
  pure { status := 201, location := some ("/api/types/" ++ spec.typeId),
         body := some (((fresh.get spec.typeId).map typeDescriptor).getD .null) }

end Numu
