/-
The service: the requests that write objects or types, one after another.

The state is the process's registry and workflows and the database.  It starts as
the migrations leave the database and with what the process loads from it.  Every
argument of a request is free: its caller, its headers and body, the clock, the
uuid it draws, what the network and the identity provider answer.
-/
import Numu.Api.Auth
import Numu.Api.Catalog
import Numu.Api.Types

namespace Numu

open Fallible

/-- A request that writes objects or types. -/
inductive Request where
  | create (ctx : RequestCtx) (env : Ambient) (caller : Caller) (typeId : String)
      (headers : HeaderMap) (body : Body)
  | update (v : UpdateVerb) (ctx : RequestCtx) (env : Ambient) (caller : Caller)
      (typeId id : String) (headers : HeaderMap) (body : Body)
  | delete (ctx : RequestCtx) (caller : Caller) (typeId id : String) (headers : HeaderMap)
  | createType (display : Json → String) (ctx : RequestCtx) (caller : Caller)
      (body : Except String TypeSpec)
  | runConnector (ctx : RequestCtx) (env : Ambient) (caller : Caller)
      (fetch : String → Except AppError Json) (id : String)
  | claimAdmin (caller : Caller)
  | login (env : Ambient) (provider sub : String) (email : Option String) (name : String)

namespace Service

/-- The service after a handler ran on its database. -/
def after {α : Type} (σ : Service) (h : Handler α) : Service :=
  { σ with store := (exec h σ.store).2 }

/-- The service after a request. -/
def perform (σ : Service) : Request → Service
  | .create ctx env caller typeId headers body =>
    σ.after (collCreate σ.toAppState ctx env caller typeId headers body)
  | .update v ctx env caller typeId id headers body =>
    σ.after (itemUpdate v σ.toAppState ctx env caller typeId id headers body)
  | .delete ctx caller typeId id headers =>
    σ.after (itemDelete σ.toAppState ctx caller typeId id headers)
  | .createType display ctx caller body => (exec (Numu.createType display ctx caller body) σ).2
  | .runConnector ctx env caller fetch id =>
    σ.after (Numu.runConnector σ.toAppState ctx env caller fetch id)
  | .claimAdmin caller => σ.after (Numu.claimAdmin caller)
  | .login env provider sub email name => σ.after (upsertIdentity env provider sub email name)

/-- The service after some requests, in their order. -/
def run (σ : Service) : List Request → Service
  | [] => σ
  | r :: rest => (σ.perform r).run rest

/-- The service at its first start. -/
def seeded : Service where
  registry := seededTypes
  workflows := seededWorkflows
  store := seededStore

end Service

end Numu
