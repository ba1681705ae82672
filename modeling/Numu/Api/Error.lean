/-
The error type of the service and how database errors become it.

Every handler answers with a response or with one `AppError`.  Denials carry a
generic detail; client errors say what was wrong.  A database error reaches the
client through `ofSqlx`, which singles out three codes: a foreign key, a unique
key, and the code the close-gate trigger raises.
-/
import Numu.Lib.Resumption

namespace Numu

/-- A failed request: status, kind, detail, and the request it answers. -/
structure AppError where
  status : Nat
  kind : String
  detail : String
  requestId : Option String := none
  allow : Option (List String) := none
deriving DecidableEq

/-- What the database driver reports. -/
inductive SqlxError where
  | rowNotFound
  | database (code message : String)
deriving DecidableEq

namespace SqlxError

def foreignKeyViolation : SqlxError :=
  .database "23503" "insert or update violates foreign key constraint"

def uniqueViolation : SqlxError :=
  .database "23505" "duplicate key value violates unique constraint"

def checkViolation : SqlxError := .database "23514" "new row violates check constraint"

def numericOutOfRange : SqlxError := .database "22003" "integer out of range"

def invalidJsonPath : SqlxError := .database "22023" "cannot set path in scalar"

def closePreconditions (message : String) : SqlxError := .database "NU001" message

end SqlxError

namespace AppError

def withRequestId (e : AppError) (id : String) : AppError := { e with requestId := some id }

def notFound : AppError := { status := 404, kind := "not_found", detail := "Not found" }

def unauthorized : AppError :=
  { status := 401, kind := "unauthorized", detail := "Authentication required" }

def forbidden : AppError := { status := 403, kind := "forbidden", detail := "Forbidden" }

def forbiddenField (field : String) : AppError :=
  { status := 403, kind := "field_forbidden",
    detail := "field not writable for your role: " ++ field }

def badRequest (d : String) : AppError := { status := 400, kind := "bad_request", detail := d }

def unprocessable (d : String) : AppError :=
  { status := 422, kind := "unprocessable_entity", detail := d }

def illegalTransition (d : String) : AppError :=
  { status := 422, kind := "illegal_transition", detail := d }

def closePreconditionsUnmet (d : String) : AppError :=
  { status := 422, kind := "close_preconditions_unmet", detail := d }

def conflict (d : String) : AppError := { status := 409, kind := "conflict", detail := d }

def unsupportedMediaType : AppError :=
  { status := 415, kind := "unsupported_media_type", detail := "Expected application/json" }

def preconditionRequired : AppError :=
  { status := 428, kind := "precondition_required",
    detail := "If-Match is required for this mutation" }

def preconditionFailed : AppError :=
  { status := 412, kind := "precondition_failed",
    detail := "If-Match did not match the current version" }

def methodNotAllowed (allow : List String) : AppError :=
  { status := 405, kind := "method_not_allowed", detail := "Method not allowed",
    allow := some allow }

def internal (d : String) : AppError := { status := 500, kind := "internal", detail := d }

/-- The three database codes a client can act on; anything else is internal. -/
def ofSqlx : SqlxError → AppError
  | .rowNotFound => notFound
  | .database code message =>
    if code = "23503" then unprocessable "a referenced entity does not exist"
    else if code = "23505" then conflict "a unique constraint was violated"
    else if code = "NU001" then closePreconditionsUnmet "close preconditions not met"
    else internal message

end AppError

/-- Correlation ids of a request. -/
structure RequestCtx where
  requestId : String
  traceId : String

/-- The generic denial of an object that is absent or out of reach. -/
def deny404 (ctx : RequestCtx) : AppError := AppError.notFound.withRequestId ctx.requestId

end Numu
