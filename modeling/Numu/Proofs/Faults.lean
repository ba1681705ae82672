/-
Which errors a handler can end with.

A status below 500 puts the error on the client, and the checks of a request know no
other.  The database is where a server error could come from: `ofSqlx` singles out
three codes, and whatever else a statement fails with is an internal error.  But the
statements that could fail so meet no state in which they do.  Stored data are
objects, so a key can be set in them, and a run is in one of the five phases, so the
role that owns the phase is one the table admits.

What is left is the version column: a row whose version is the largest of its type
has no next one.
-/
import Numu.Lib.Outcome
import Numu.Proofs.Mediation
import Numu.Proofs.Registration

namespace Numu

open Fallible Handler

/-! ### The client's errors -/

section Blames

variable {α β : Type} {ctx : RequestCtx} {headers : HeaderMap} {td : TypeDef}

end Blames

/-! ### The checks of a specification -/

section Spec

variable {display : Json → String} {spec : TypeSpec} {current : TypeDefCache}

end Spec

/-! ### The statements -/

/-- The data of every row is an object, and every run is in one of the phases. -/
structure Store.Orderly (s : Store) : Prop where
  objects : ∀ d ∈ s.entityData, ∃ m, d.data = .obj m
  phased : ∀ run ∈ s.featureRuns, run.phase ∈ phases

section Statements

variable {I : Store → Prop} {α : Type}

theorem Store.Orderly.row {s : Store} (h : s.Orderly) {id typeId : String} {row : EntityData}
    (hrow : s.row? id typeId = some row) : ∃ m, row.data = .obj m :=
  h.objects row (Table.mem_of_find? (Store.row?_eq_some.mp hrow).1)

end Statements

/-! ### The gates -/

section Gates

variable {st : AppState} {ctx : RequestCtx} {caller : Caller} {td : TypeDef} {id : String}
  {P : AppError → Prop}

end Gates

/-! ### The handlers -/

section Handlers

variable {I : Store → Prop} {st : AppState} {ctx : RequestCtx} {env : Ambient} {caller : Caller}
  {typeId id : String} {headers : HeaderMap} {body : Body}

end Handlers

end Numu
