/-
The seeded database: the types, roles, workflow and first actor the migrations insert.

A type is a pair of inserts, one row of `type_definitions` and one row of
`type_fields` per field.  They are kept here in the columns of those inserts, with
the fields the last migration adds to `project` and `actor` in the place their
ordinal gives them.  A field's `options` lists its keys in order.
-/
import Numu.Api.Store

namespace Numu

/-- A row of `type_fields`, in the columns the migrations insert. -/
def typeField (field label kind : String) (required editable : Bool) (ordinal : I32)
    (permClass : String) (options : Json) : FieldDef where
  field := field
  label := label
  kind := kind
  required := required
  editable := editable
  ordinal := ordinal
  permClass := permClass
  options := options

/-- The options of an enumerated field. -/
def enumOptions (values : List String) (dflt : String) : Json :=
  .obj [("default", .str dflt), ("enum", .arr (values.map Json.str))]

/-- The options of a reference. -/
def refOptions (target : String) : Json := .obj [("ref", .str target)]

/-- The options of a text with a pattern. -/
def patternOptions (pattern : String) : Json := .obj [("validate", .str pattern)]

/-- The options of a field with a default and nothing else. -/
def defaultOptions (dflt : Json) : Json := .obj [("default", dflt)]

/-! ### Organisation -/

/-- The seeded actor type. -/
def actorType : TypeDef where
  typeId := "actor"
  idPrefix := "USR"
  displayName := "Actor"
  displayNamePlural := "Actors"
  scopeParents := []
  isBuiltin := true
  methodPolicy := .obj []
  fields :=
    [typeField "display_name" "Name" "text" true true 1 "standard" (.obj []),
      typeField "handle" "Handle" "text" true true 2 "standard" (patternOptions "^[a-z0-9_-]+$"),
      typeField "email" "Email" "text" false true 3 "owner_grade" (.obj []),
      typeField "kind" "Kind" "enum" true false 4 "readonly"
        (enumOptions ["human", "agent", "service"] "human"),
      typeField "platform_role" "Platform role" "enum" true true 5 "owner_grade"
        (enumOptions ["member", "admin"] "member"),
      typeField "status" "Status" "enum" true true 6 "standard"
        (enumOptions ["active", "invited", "disabled"] "active"),
      typeField "avatar_url" "Avatar" "text" false true 7 "standard" (.obj [])]
  nodup := by decide

def workspaceType : TypeDef where
  typeId := "workspace"
  idPrefix := "ORG"
  displayName := "Workspace"
  displayNamePlural := "Workspaces"
  scopeParents := []
  isBuiltin := true
  methodPolicy := .obj []
  fields :=
    [typeField "name" "Name" "text" true true 1 "standard" (.obj []),
      typeField "slug" "Slug" "text" true false 2 "standard" (patternOptions "^[a-z0-9-]+$"),
      typeField "status" "Status" "enum" true true 3 "owner_grade"
        (enumOptions ["active", "suspended"] "active")]
  nodup := by decide

def teamType : TypeDef where
  typeId := "team"
  idPrefix := "TEM"
  displayName := "Team"
  displayNamePlural := "Teams"
  scopeParents := ["workspace_id"]
  isBuiltin := true
  methodPolicy := .obj []
  fields :=
    [typeField "workspace_id" "Workspace" "ref" true false 1 "standard" (refOptions "ORG"),
      typeField "name" "Name" "text" true true 2 "standard" (.obj []),
      typeField "kind" "Kind" "enum" true false 3 "standard"
        (enumOptions ["team", "department"] "team"),
      typeField "description" "Description" "text" false true 4 "standard" (.obj [])]
  nodup := by decide

def projectType : TypeDef where
  typeId := "project"
  idPrefix := "PRJ"
  displayName := "Project"
  displayNamePlural := "Projects"
  scopeParents := ["workspace_id"]
  isBuiltin := true
  methodPolicy := .obj []
  fields :=
    [typeField "workspace_id" "Workspace" "ref" false false 0 "standard" (refOptions "ORG"),
      typeField "name" "Name" "text" true true 1 "standard" (.obj []),
      typeField "slug" "Slug" "text" true false 2 "standard" (patternOptions "^[a-z0-9-]+$"),
      typeField "status" "Status" "enum" false true 3 "standard"
        (enumOptions ["planning", "active", "paused", "archived"] "planning"),
      typeField "description" "Description" "text" false true 4 "standard" (.obj []),
      typeField "repo_url" "Repository" "text" false true 5 "standard" (.obj []),
      typeField "default_branch" "Default branch" "text" false true 6 "standard"
        (defaultOptions (.str "main"))]
  nodup := by decide

/-! ### Work tracking -/

def noteType : TypeDef where
  typeId := "note"
  idPrefix := "NOT"
  displayName := "Note"
  displayNamePlural := "Notes"
  scopeParents := ["project_id"]
  isBuiltin := true
  methodPolicy := .obj []
  fields :=
    [typeField "project_id" "Project" "ref" true false 1 "standard" (refOptions "PRJ"),
      typeField "title" "Title" "text" true true 2 "standard" (.obj []),
      typeField "body" "Body" "text" false true 3 "standard" (.obj []),
      typeField "pinned" "Pinned" "bool" false true 4 "standard" (defaultOptions (.bool false))]
  nodup := by decide

/-- The seeded case type. -/
def caseType : TypeDef where
  typeId := "case"
  idPrefix := "CAS"
  displayName := "Case"
  displayNamePlural := "Cases"
  scopeParents := ["project_id"]
  isBuiltin := true
  methodPolicy := .obj []
  fields :=
    [typeField "title" "Title" "text" true true 1 "standard" (.obj []),
      typeField "description" "Description" "text" false true 2 "standard" (.obj []),
      typeField "type" "Type" "enum" true true 3 "standard"
        (enumOptions ["bug", "feature", "task", "epic", "chore"] "task"),
      typeField "status" "Status" "enum" true true 4 "standard"
        (enumOptions ["backlog", "todo", "in_progress", "in_review", "done"] "backlog"),
      typeField "priority" "Priority" "enum" true true 5 "standard"
        (enumOptions ["low", "normal", "high", "urgent"] "normal"),
      typeField "origin" "Origin" "enum" false true 6 "standard"
        (enumOptions ["ui", "agent", "import", "email", "web", "phone", "chat"] "ui"),
      typeField "visibility" "Visibility" "enum" false true 7 "standard"
        (enumOptions ["internal", "public"] "internal"),
      typeField "workflow_id" "Workflow" "ref" true false 8 "readonly"
        (.obj [("default", .str "default"), ("ref", .str "workflows")]),
      typeField "assignee_id" "Assignee" "ref" false true 9 "standard" (refOptions "USR"),
      typeField "reporter_id" "Reporter" "ref" false false 10 "readonly" (refOptions "USR"),
      typeField "project_id" "Project" "ref" true false 11 "standard" (refOptions "PRJ")]
  nodup := by decide

def commentType : TypeDef where
  typeId := "comment"
  idPrefix := "CMT"
  displayName := "Comment"
  displayNamePlural := "Comments"
  scopeParents := ["subject_id"]
  isBuiltin := true
  methodPolicy := .obj []
  fields :=
    [typeField "subject_id" "On" "ref" true false 1 "standard" (.obj []),
      typeField "author_id" "Author" "ref" false false 2 "standard" (refOptions "USR"),
      typeField "body" "Body" "text" true true 3 "standard" (.obj []),
      typeField "visibility" "Visibility" "enum" false true 4 "standard"
        (enumOptions ["internal", "public"] "internal"),
      typeField "reply_to_id" "Reply to" "ref" false false 5 "standard" (refOptions "CMT")]
  nodup := by decide

def attachmentType : TypeDef where
  typeId := "attachment"
  idPrefix := "ATT"
  displayName := "Attachment"
  displayNamePlural := "Attachments"
  scopeParents := ["subject_id"]
  isBuiltin := true
  methodPolicy := .obj []
  fields :=
    [typeField "subject_id" "On" "ref" true false 1 "standard" (.obj []),
      typeField "name" "Filename" "text" true false 2 "standard" (.obj []),
      typeField "blob_ref" "Blob ref" "text" true false 3 "standard" (.obj []),
      typeField "mime" "Type" "text" false false 4 "standard" (.obj []),
      typeField "size_bytes" "Size" "int" false false 5 "standard" (.obj []),
      typeField "uploaded_by" "Uploaded by" "ref" false false 6 "standard" (refOptions "USR")]
  nodup := by decide

/-! ### Build knowledge -/

def specType : TypeDef where
  typeId := "spec"
  idPrefix := "SPC"
  displayName := "Spec"
  displayNamePlural := "Specs"
  scopeParents := ["case_id"]
  isBuiltin := true
  methodPolicy := .obj []
  fields :=
    [typeField "case_id" "Case" "ref" true false 1 "standard" (refOptions "CAS"),
      typeField "title" "Title" "text" true true 2 "standard" (.obj []),
      typeField "body" "Body" "text" true true 3 "standard" (.obj []),
      typeField "status" "Status" "enum" true true 4 "standard"
        (enumOptions ["draft", "approved", "superseded"] "draft"),
      typeField "approved_by" "Approved by" "ref" false true 5 "owner_grade" (refOptions "USR")]
  nodup := by decide

def acceptanceCriterionType : TypeDef where
  typeId := "acceptance_criterion"
  idPrefix := "ACR"
  displayName := "Acceptance criterion"
  displayNamePlural := "Acceptance criteria"
  scopeParents := ["spec_id"]
  isBuiltin := true
  methodPolicy := .obj []
  fields :=
    [typeField "spec_id" "Spec" "ref" true false 1 "standard" (refOptions "SPC"),
      typeField "ordinal" "#" "int" true true 2 "standard" (.obj []),
      typeField "text" "Criterion" "text" true true 3 "standard" (.obj []),
      typeField "verified" "Verified" "bool" false true 4 "standard"
        (defaultOptions (.bool false)),
      typeField "test_ref" "Test" "text" false true 5 "standard" (.obj [])]
  nodup := by decide

def runbookType : TypeDef where
  typeId := "runbook"
  idPrefix := "RBK"
  displayName := "Runbook"
  displayNamePlural := "Runbooks"
  scopeParents := ["case_id"]
  isBuiltin := true
  methodPolicy := .obj []
  fields :=
    [typeField "case_id" "Case" "ref" false false 1 "standard" (refOptions "CAS"),
      typeField "title" "Title" "text" true true 2 "standard" (.obj []),
      typeField "problem" "Problem" "text" true true 3 "standard" (.obj []),
      typeField "root_cause" "Root cause" "text" true true 4 "standard" (.obj []),
      typeField "fix" "Fix" "text" true true 5 "standard" (.obj []),
      typeField "status" "Status" "enum" true true 6 "standard"
        (enumOptions ["open", "fixed", "wontfix"] "open"),
      typeField "date" "Date" "date" true true 7 "standard" (.obj [])]
  nodup := by decide

def decisionType : TypeDef where
  typeId := "decision"
  idPrefix := "DEC"
  displayName := "Decision"
  displayNamePlural := "Decisions"
  scopeParents := []
  isBuiltin := true
  methodPolicy := .obj []
  fields :=
    [typeField "title" "Title" "text" true true 1 "standard" (.obj []),
      typeField "context" "Context" "text" true true 2 "standard" (.obj []),
      typeField "decision" "Decision" "text" true true 3 "standard" (.obj []),
      typeField "consequences" "Consequences" "text" true true 4 "standard" (.obj []),
      typeField "status" "Status" "enum" true true 5 "owner_grade"
        (enumOptions ["proposed", "accepted", "superseded"] "proposed"),
      typeField "supersedes_id" "Supersedes" "ref" false true 6 "standard" (refOptions "DEC"),
      typeField "date" "Date" "date" true true 7 "standard" (.obj [])]
  nodup := by decide

def capabilityType : TypeDef where
  typeId := "capability"
  idPrefix := "CAP"
  displayName := "Capability"
  displayNamePlural := "Capabilities"
  scopeParents := ["project_id"]
  isBuiltin := true
  methodPolicy := .obj []
  fields :=
    [typeField "project_id" "Project" "ref" false false 1 "standard" (refOptions "PRJ"),
      typeField "key" "Key" "text" true false 2 "standard" (.obj []),
      typeField "status" "Status" "enum" true true 3 "standard"
        (enumOptions ["live", "gap", "deferred"] "live"),
      typeField "description" "Description" "text" true true 4 "standard" (.obj []),
      typeField "evidence" "Evidence" "text" false true 5 "standard" (.obj [])]
  nodup := by decide

/-! ### Integrations -/

def connectorType : TypeDef where
  typeId := "connector"
  idPrefix := "CON"
  displayName := "Connector"
  displayNamePlural := "Connectors"
  scopeParents := ["project_id"]
  isBuiltin := true
  methodPolicy := .obj []
  fields :=
    [typeField "project_id" "Project" "ref" false false 1 "standard" (refOptions "PRJ"),
      typeField "name" "Name" "text" true true 2 "standard" (.obj []),
      typeField "kind" "Kind" "enum" true true 3 "standard"
        (enumOptions ["http_json", "webhook", "sql", "file"] "http_json"),
      typeField "target" "Target" "text" true true 4 "standard" (.obj []),
      typeField "status" "Status" "enum" true true 5 "standard"
        (enumOptions ["draft", "active", "disabled", "error"] "draft"),
      typeField "data_contract" "Data contract" "json" false true 6 "standard"
        (defaultOptions (.obj [])),
      typeField "last_run_at" "Last run" "date" false false 7 "readonly" (.obj []),
      typeField "description" "Description" "text" false true 8 "standard" (.obj [])]
  nodup := by decide

def secretType : TypeDef where
  typeId := "secret"
  idPrefix := "SEC"
  displayName := "Secret"
  displayNamePlural := "Secrets"
  scopeParents := ["project_id"]
  isBuiltin := true
  methodPolicy := .obj []
  fields :=
    [typeField "project_id" "Project" "ref" false false 1 "standard" (refOptions "PRJ"),
      typeField "name" "Name" "text" true true 2 "standard" (.obj []),
      typeField "provider" "Provider" "enum" true true 3 "standard"
        (enumOptions ["env", "vault", "aws_kms", "gcp_sm"] "env"),
      typeField "external_ref" "External ref" "text" true true 4 "owner_grade" (.obj []),
      typeField "status" "Status" "enum" true true 5 "standard"
        (enumOptions ["active", "rotating", "revoked"] "active"),
      typeField "rotation_at" "Rotates" "date" false true 6 "standard" (.obj []),
      typeField "description" "Description" "text" false true 7 "standard" (.obj [])]
  nodup := by decide

def skillType : TypeDef where
  typeId := "skill"
  idPrefix := "SKL"
  displayName := "Skill"
  displayNamePlural := "Skills"
  scopeParents := ["project_id"]
  isBuiltin := true
  methodPolicy := .obj []
  fields :=
    [typeField "project_id" "Project" "ref" false false 1 "standard" (refOptions "PRJ"),
      typeField "name" "Name" "text" true true 2 "standard" (.obj []),
      typeField "description" "Description" "text" true true 3 "standard" (.obj []),
      typeField "kind" "Kind" "enum" true true 4 "standard"
        (enumOptions ["procedure", "playbook"] "procedure"),
      typeField "definition" "Definition" "json" false true 5 "standard"
        (defaultOptions (.obj [])),
      typeField "status" "Status" "enum" true true 6 "standard"
        (enumOptions ["draft", "active", "deprecated"] "draft")]
  nodup := by decide

def milestoneType : TypeDef where
  typeId := "milestone"
  idPrefix := "MIL"
  displayName := "Milestone"
  displayNamePlural := "Milestones"
  scopeParents := ["subject_id"]
  isBuiltin := true
  methodPolicy := .obj []
  fields :=
    [typeField "subject_id" "On" "ref" true false 1 "standard" (.obj []),
      typeField "name" "Name" "text" true true 2 "standard" (.obj []),
      typeField "kind" "Kind" "enum" true true 3 "standard"
        (enumOptions ["sla", "deadline", "checkpoint"] "deadline"),
      typeField "target_at" "Target" "date" true true 4 "standard" (.obj []),
      typeField "completed_at" "Completed" "date" false true 5 "standard" (.obj [])]
  nodup := by decide

/-! ### The seeded rows -/

/-- The seeded types, by their ordinal. -/
def seededTypes : Table TypeDef.typeId :=
  ⟨[actorType, workspaceType, teamType, projectType, noteType, caseType, commentType,
    attachmentType, specType, acceptanceCriterionType, runbookType, decisionType,
    capabilityType, connectorType, secretType, skillType, milestoneType], by decide⟩

/-- The seeded roles. -/
def seededRoles : Table Role.role :=
  ⟨[⟨"viewer", 1⟩, ⟨"member", 2⟩, ⟨"admin", 3⟩, ⟨"owner", 4⟩], by decide⟩

/-- The seeded workflow. -/
def defaultWorkflowRow : WorkflowRow where
  workflowId := "default"
  states := ["backlog", "todo", "in_progress", "in_review", "done"]
  transitions := .obj [("backlog", .arr [.str "todo"]),
    ("done", .arr [.str "in_review"]),
    ("in_progress", .arr [.str "todo", .str "in_review"]),
    ("in_review", .arr [.str "in_progress", .str "done"]),
    ("todo", .arr [.str "backlog", .str "in_progress"])]
  initial := "backlog"
  closeChecks := ["docs_reconciled"]

/-- The same workflow, as the process caches it. -/
def defaultWorkflow : Workflow where
  states := ["backlog", "todo", "in_progress", "in_review", "done"]
  transitions := [("backlog", ["todo"]), ("todo", ["backlog", "in_progress"]),
    ("in_progress", ["todo", "in_review"]), ("in_review", ["in_progress", "done"]),
    ("done", ["in_review"])]
  initial := "backlog"
  closeChecks := ["docs_reconciled"]

/-- The workflows as the process loads them. -/
def seededWorkflows : WorkflowCache := ⟨[("default", defaultWorkflow)], by decide⟩

/-- The first actor. -/
def devActor : EntityData where
  entityId := "USR_dev"
  typeId := "actor"
  data := .obj [("display_name", .str "Dev"), ("handle", .str "dev"), ("kind", .str "human"),
    ("platform_role", .str "admin"), ("status", .str "active")]

/-- The database after the migrations. -/
def seededStore : Store where
  typeDefinitions := seededTypes
  entities := ⟨[⟨"USR_dev", "actor", some "USR_dev"⟩], by decide⟩
  entityData := ⟨[devActor], by decide⟩
  roles := seededRoles
  workflows := ⟨[defaultWorkflowRow], by decide⟩

end Numu
