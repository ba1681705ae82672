/-
That every request is answered.

What is proved of the answers of a server says nothing of one that never answers.
No request of this one waits for another: whatever the others do, and however many
more are started, a request that is let move again and again has its answer after
finitely many of its own statements, and that answer is final.

One kind of request can be left without: a provider's callback whose state cookie
stops the thread that checks it.
-/
import Numu.Proofs.Answers

namespace Numu

open Fallible

namespace Server

variable {ρ : Type} [LinearOrder ρ] {D : Deployment ρ} {req : Incoming}

/-- The state cookie of a provider's callback stops the thread. -/
def Stops (D : Deployment ρ) (req : Incoming) : Prop :=
  ∃ name q stopped, req.route = .oauthCallback name q ∧
    callbackGate (oauthEnv D req) name q req.cookie = .error stopped

/-- Only such a request has no program. -/
theorem program_stops {ctx : RequestCtx} :
    (∃ stopped, program D req ctx = .error stopped) ↔ Stops D req := by
  constructor
  · rintro ⟨stopped, hp⟩
    unfold program at hp
    cases hroute : req.route with
    | oauthCallback name q =>
        simp only [hroute, oauthCallback] at hp
        cases hgate : callbackGate (oauthEnv D req) name q req.cookie with
        | error e => exact ⟨name, q, e, hroute, hgate⟩
        | ok gate => simp [hgate, Except.map] at hp
    | devLogin body =>
        simp only [hroute] at hp
        split at hp
        · cases hp
        · cases hp
    | _ => simp [hroute] at hp
  · rintro ⟨name, q, stopped, hroute, hgate⟩
    refine ⟨stopped, ?_⟩
    simp only [program, hroute, oauthCallback, hgate]
    rfl

theorem answers_serve : (serve D req).Answers fun out => out = none ↔ Stops D req := by
  cases hp : program D req (requestCtx req.requestId req.draws) with
  | error stopped =>
      rw [serve_error hp]
      exact ⟨fun _ => program_stops.mp ⟨stopped, hp⟩, fun _ => rfl⟩
  | ok p =>
      rw [serve_ok hp]
      refine Resumption.Answers.bind (answers_true p) fun r _ => ?_
      constructor
      · intro hnone
        cases hnone
      · intro hstops
        obtain ⟨stopped, hstopped⟩ := program_stops.mpr hstops
        rw [hp] at hstopped
        cases hstopped

section Runs

variable {reqs : Nat → Incoming} {p : Pool Server (Option HttpReply)} {moves : Nat → Pool.Move}
  {i : Nat}

/-- What a request has been answered, `none` if its thread was stopped. -/
theorem Runs.answered (hrun : Runs D reqs p) {out : Option HttpReply} (hi : p.Finished i out) :
    out = none ↔ Stops D (reqs i) := by
  obtain ⟨m, hout, -⟩ := Pool.Run.answered hrun (fun n => (answers_serve (D := D)).guarded []) hi
  exact hout

end Runs

end Server

end Numu
