/-
Programs over a part of a larger state.

A handler talks to the database, and the database is one part of the process that
runs it.  A `Zoom` is how a part sits in a whole: it can be read off, and a part
that is put in is what is read off afterwards.  What else in the whole follows a
change of the part is up to `put`.

A program over the part is then a program over the whole, step for step.  What it
reads is the part, and what it writes is a part put in, so whatever was proved of its
writes on the part is used on the whole without looking at the program again.
-/
import Numu.Lib.Resumption

/-- How a part sits in a whole. -/
structure Zoom (τ σ : Type) where
  get : τ → σ
  put : σ → τ → τ
  get_put : ∀ s t, get (put s t) = s

namespace Resumption

variable {τ σ α : Type} (z : Zoom τ σ)

/-- The program on the part, run on the whole. -/
def zoom : Resumption σ α → Resumption τ α
  | done a => done a
  | read next => read fun t => (next (z.get t)).zoom
  | write update next => write (fun t => z.put (update (z.get t)) t) fun t =>
      (next (z.get t)).zoom

variable {z} {p : Resumption σ α}

theorem ReadOnly.zoom (hp : p.ReadOnly) : (p.zoom z).ReadOnly := by
  induction p with
  | done a => trivial
  | read next ih => intro t; exact ih _ (hp _)
  | write update next _ => exact hp.elim

/-- A write puts a part in that the program wrote. -/
theorem Writes.zoom {R : σ → σ → Prop} (hp : p.Writes R) :
    (p.zoom z).Writes fun t t' => ∃ s, R (z.get t) s ∧ t' = z.put s t := by
  induction p with
  | done a => trivial
  | read next ih => intro t; exact ih _ (hp _)
  | write update next ih =>
      intro t
      exact ⟨⟨_, (hp (z.get t)).1, rfl⟩, ih _ (hp _).2⟩

end Resumption

namespace Fallible

variable {ε τ σ α : Type}

/-- The program on the part, run on the whole. -/
def zoom (z : Zoom τ σ) (p : Fallible ε σ α) : Fallible ε τ α :=
  ExceptT.mk (Resumption.zoom z (ExceptT.run p))

variable {z : Zoom τ σ} {p : Fallible ε σ α}

theorem readOnly_zoom (hp : ReadOnly p) : ReadOnly (zoom z p) :=
  Resumption.ReadOnly.zoom (p := ExceptT.run p) hp

theorem writes_zoom {R : σ → σ → Prop} (hp : Writes R p) :
    Writes (fun t t' => ∃ s, R (z.get t) s ∧ t' = z.put s t) (zoom z p) :=
  Resumption.Writes.zoom (p := ExceptT.run p) hp

end Fallible
