/-
How a program ends, in states that satisfy an invariant.

What a program answers depends on the states it meets, and some of its errors are
errors only in states that never come.  `Ends` says what it may answer when every
state it meets satisfies an invariant: of a program that may fail, which answers and
which errors.  It asks nothing of the writes, so whatever keeps the invariant is a
matter of its own.

In a pool the states a program meets are among those the pool goes through.
-/
import Numu.Lib.Recall

namespace Resumption

variable {τ σ α β : Type} {I : σ → Prop} {P : α → Prop} {p : Resumption σ α}

/-- In states that satisfy `I` the program ends with an answer that satisfies `P`. -/
def Ends (I : σ → Prop) (P : α → Prop) : Resumption σ α → Prop
  | done a => P a
  | read next => ∀ s, I s → (next s).Ends I P
  | write _ next => ∀ s, I s → (next s).Ends I P

theorem Ends.bind {Q : β → Prop} {f : α → Resumption σ β} (hp : p.Ends I P)
    (hf : ∀ a, P a → (f a).Ends I Q) : (p.bind f).Ends I Q := by
  induction p with
  | done a => exact hf a hp
  | read next ih => intro s hs; exact ih s (hp s hs)
  | write update next ih => intro s hs; exact ih s (hp s hs)

theorem Ends.weaken {Q : α → Prop} (hp : p.Ends I P) (h : ∀ a, P a → Q a) : p.Ends I Q := by
  induction p with
  | done a => exact h a hp
  | read next ih => intro s hs; exact ih s (hp s hs)
  | write update next ih => intro s hs; exact ih s (hp s hs)

/-- What a program answers in any states it answers in these. -/
theorem Answers.ends (hp : p.Answers P) : p.Ends I P := by
  induction p with
  | done a => exact hp
  | read next ih => intro s _; exact ih s (hp s)
  | write update next ih => intro s _; exact ih s (hp s)

theorem Ends.zoom {z : Zoom τ σ} {J : τ → Prop} (hJ : ∀ t, J t → I (z.get t)) (hp : p.Ends I P) :
    (p.zoom z).Ends J P := by
  induction p with
  | done a => exact hp
  | read next ih => intro t ht; exact ih _ (hp _ (hJ t ht))
  | write update next ih => intro t ht; exact ih _ (hp _ (hJ t ht))

/-- The states a program meets are those it remembers. -/
theorem Ends.guarded (hp : p.Ends I P) : ∀ m, p.Guarded (fun _ _ _ => True)
    (fun a m' => m <:+ m' ∧ ((∀ u, Seen m' u → I u) → P a)) m := by
  -- After a state that breaks the invariant nothing is promised.
  have hbroken : ∀ (q : Resumption σ α) (g : Glance σ) (m : List (Glance σ)), ¬ I g.state →
      q.Guarded (fun _ _ _ => True) (fun a m' => m <:+ m' ∧ ((∀ u, Seen m' u → I u) → P a))
        (g :: m) := by
    intro q g m hg
    have hany : q.Writes fun _ _ => True := writes_of_forall (fun _ _ => trivial) q
    refine (hany.guarded_suffix (g :: m) fun _ _ _ _ _ => trivial).weaken fun a m' hm => ?_
    refine ⟨(List.suffix_cons g m).trans hm, fun hI => absurd (hI g.state ?_) hg⟩
    refine Seen.mono ⟨g, List.mem_cons_self, ?_⟩ hm
    cases g with
    | read s => rfl
    | write s t => exact Or.inl rfl
  induction p with
  | done a => intro m; exact ⟨List.suffix_refl m, fun _ => hp⟩
  | read next ih =>
      intro m s
      by_cases hs : I s
      · exact (ih s (hp s hs) _).weaken fun a m' h => ⟨(List.suffix_cons _ m).trans h.1, h.2⟩
      · exact hbroken (next s) (.read s) m hs
  | write update next ih =>
      intro m s
      refine ⟨trivial, ?_⟩
      by_cases hs : I s
      · exact (ih s (hp s hs) _).weaken fun a m' h => ⟨(List.suffix_cons _ m).trans h.1, h.2⟩
      · exact hbroken (next s) (.write s (update s)) m hs

end Resumption

/-- An answer that satisfies one thing, or an error that satisfies another. -/
def Outcome {ε α : Type} (Q : α → Prop) (E : ε → Prop) : Except ε α → Prop
  | .ok a => Q a
  | .error e => E e

namespace Fallible

variable {ε τ σ α β : Type} {I : σ → Prop} {Q : α → Prop} {E : ε → Prop}

/-- The same of a program that may fail. -/
def Ends (I : σ → Prop) (Q : α → Prop) (E : ε → Prop) (p : Fallible ε σ α) : Prop :=
  Resumption.Ends I (Outcome Q E) (ExceptT.run p)

end Fallible
