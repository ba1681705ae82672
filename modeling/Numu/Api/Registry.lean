/-
The registry of types and the workflows, as the process caches them.

A type is rows of the database, so everything the generic handlers know about a
type comes from here: which fields it has, which of them a client may set, where
the scope parent is named, and what a workflow permits.  The field names of a
type are distinct because `(type_id, field)` is a primary key; the structure
carries that.
-/
import Numu.Lib.Json
import Numu.Lib.Scalar
import Numu.Lib.Table
import Numu.Api.Error

namespace Numu

/-- One field of a registered type. -/
structure FieldDef where
  field : String
  label : String := ""
  kind : String
  required : Bool
  editable : Bool
  ordinal : I32 := 0
  permClass : String
  options : Json
  searchable : Bool := false
deriving DecidableEq

namespace FieldDef

/-- Settable at create: not owned by the engine. -/
def settable (f : FieldDef) : Bool := f.permClass ≠ "system" && f.permClass ≠ "readonly"

/-- Writable on update: settable, and still editable after creation. -/
def writable (f : FieldDef) : Bool := f.editable && f.settable

/-- The default the field declares, if any. -/
def default? (f : FieldDef) : Option Json := f.options.get? "default"

end FieldDef

/-- A registered type. -/
structure TypeDef where
  typeId : String
  idPrefix : String
  displayName : String := ""
  displayNamePlural : String := ""
  scopeParents : List String
  isBuiltin : Bool := false
  methodPolicy : Json
  fields : List FieldDef
  nodup : (fields.map FieldDef.field).Nodup
deriving DecidableEq

namespace TypeDef

/-- Verbs removed from the surface by the type's policy, upper-cased. -/
def maskedVerbs (td : TypeDef) : List String :=
  (((td.methodPolicy.get? "mask").bind Json.asArray?).getD []).filterMap fun v =>
    v.asStr?.map Text.toUppercase

/-- The DELETE floor of the type's policy. -/
def deleteMinRole (td : TypeDef) : String := (td.methodPolicy.str? "delete_min_role").getD "admin"

def field (td : TypeDef) (name : String) : Option FieldDef :=
  td.fields.find? fun f => f.field = name

/-- Is the field naming the primary scope parent required? -/
def scopeParentRequired (td : TypeDef) : Bool :=
  match td.scopeParents.head?.bind td.field with
  | some f => f.required
  | none => false

theorem field_eq_some {td : TypeDef} {name : String} {f : FieldDef} :
    td.field name = some f ↔ f ∈ td.fields ∧ f.field = name := by
  have h : (⟨td.fields, td.nodup⟩ : Table FieldDef.field).find? name = some f ↔
      f ∈ td.fields ∧ f.field = name := Table.find?_eq_some
  exact h

end TypeDef

/-- The cached registry, by type id. -/
abbrev TypeDefCache : Type := Table TypeDef.typeId

namespace TypeDefCache

def get (reg : TypeDefCache) (typeId : String) : Option TypeDef := reg.find? typeId

theorem get_typeId {reg : TypeDefCache} {typeId : String} {td : TypeDef}
    (h : get reg typeId = some td) : td.typeId = typeId := Table.find?_key h

end TypeDefCache

/-- A cached workflow. -/
structure Workflow where
  states : List String
  transitions : List (String × List String)
  initial : String
  closeChecks : List String
deriving DecidableEq

namespace Workflow

def isState (wf : Workflow) (s : String) : Bool := wf.states.contains s

/-- The terminal state is the last of the ordered states. -/
def isTerminal (wf : Workflow) (s : String) : Bool := wf.states.getLast? = some s

/-- The states a state may move to. -/
def targets (wf : Workflow) (s : String) : Option (List String) :=
  (wf.transitions.find? fun t => t.1 = s).map Prod.snd

end Workflow

/-- The cached workflows, by id. -/
abbrev WorkflowCache : Type := Table (Prod.fst : String × Workflow → String)

namespace WorkflowCache

def get (c : WorkflowCache) (id : String) : Option Workflow := (c.find? id).map Prod.snd

/--
Check a status change.  With no previous status the new one must be the initial
state; an unchanged status is no move; anything else must be a listed transition.
-/
def validate (c : WorkflowCache) (workflowId : String) (old : Option String) (new : String) :
    Except AppError Unit :=
  match get c workflowId with
  | none => .error (.unprocessable ("unknown workflow: " ++ workflowId))
  | some wf =>
    if !wf.isState new then .error (.unprocessable ("not a valid status: " ++ new))
    else match old with
      | none =>
        if new ≠ wf.initial then
          .error (.illegalTransition
            ("a new case must start at '" ++ wf.initial ++ "', not '" ++ new ++ "'"))
        else .ok ()
      | some old =>
        if old ≠ new ∧ ¬ ((wf.targets old).any fun ts => ts.contains new) then
          .error (.illegalTransition ("illegal transition: " ++ old ++ " -> " ++ new))
        else .ok ()

end WorkflowCache

/-- What every handler shares besides the database: the two caches. -/
structure AppState where
  registry : TypeDefCache
  workflows : WorkflowCache

end Numu
