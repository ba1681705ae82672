/-
A graph that gains one edge.

A graph is its edge relation.  Adding the edge from `m` to `o` adds exactly the
paths that go to `m`, take it, and go on from `o`; how often the new edge is taken
does not matter, since what lies between the first and the last time can be left
out.  A cycle that is new must therefore lead from `o` back to `m` along old edges,
which is what a guard against cycles has to ask for.
-/
import Mathlib.Logic.Relation

namespace Edges

open Relation

variable {α : Type} {r q : α → α → Prop} {m o a p : α}

/-- No path leads from a node back to it. -/
def Acyclic (r : α → α → Prop) : Prop := ∀ x, ¬ TransGen r x x

/-- The graph with the edge from `m` to `o`. -/
def With (r : α → α → Prop) (m o : α) : α → α → Prop := fun x y => r x y ∨ (x = m ∧ y = o)

/-- A graph without edges has no cycle. -/
theorem acyclic_of_forall_not (h : ∀ x y, ¬ r x y) : Acyclic r := by
  intro x hcycle
  obtain ⟨y, hxy, -⟩ := TransGen.head'_iff.mp hcycle
  exact h x y hxy

theorem Acyclic.mono (hr : Acyclic r) (h : ∀ x y, q x y → r x y) : Acyclic q := by
  intro x hcycle
  exact hr x (TransGen.mono h x x hcycle)

theorem reflTransGen_mono_with (h : ReflTransGen r a p) : ReflTransGen (With r m o) a p :=
  ReflTransGen.mono (fun _ _ hxy => Or.inl hxy) a p h

/-- **The paths of the larger graph: the old ones, and those that pass over the new edge.** -/
theorem reflTransGen_with :
    ReflTransGen (With r m o) a p ↔
      ReflTransGen r a p ∨ (ReflTransGen r a m ∧ ReflTransGen r o p) := by
  refine ⟨fun h => ?_, fun h => ?_⟩
  · induction h with
    | refl => exact Or.inl .refl
    | tail _ hedge ih =>
        rcases hedge with hold | ⟨rfl, rfl⟩
        · rcases ih with hpath | ⟨ham, hop⟩
          · exact Or.inl (hpath.tail hold)
          · exact Or.inr ⟨ham, hop.tail hold⟩
        · -- The new edge is taken once more: its last use is the one that counts.
          rcases ih with hpath | ⟨ham, -⟩
          · exact Or.inr ⟨hpath, .refl⟩
          · exact Or.inr ⟨ham, .refl⟩
  · rcases h with hpath | ⟨ham, hop⟩
    · exact reflTransGen_mono_with hpath
    · have hedge : With r m o m o := Or.inr ⟨rfl, rfl⟩
      exact ((reflTransGen_mono_with ham).tail hedge).trans (reflTransGen_mono_with hop)

theorem transGen_with (h : TransGen (With r m o) a p) :
    TransGen r a p ∨ (ReflTransGen r a m ∧ ReflTransGen r o p) := by
  obtain ⟨b, hab, hbp⟩ := TransGen.tail'_iff.mp h
  rcases hbp with hold | ⟨rfl, rfl⟩
  · rcases reflTransGen_with.mp hab with hpath | ⟨ham, hob⟩
    · exact Or.inl (TransGen.tail' hpath hold)
    · exact Or.inr ⟨ham, hob.tail hold⟩
  · rcases reflTransGen_with.mp hab with hpath | ⟨ham, -⟩
    · exact Or.inr ⟨hpath, .refl⟩
    · exact Or.inr ⟨ham, .refl⟩

/-- **An edge whose target does not lead back to its source closes no cycle.** -/
theorem Acyclic.with (hr : Acyclic r) (hback : ¬ ReflTransGen r o m) : Acyclic (With r m o) := by
  intro x hcycle
  rcases transGen_with hcycle with hold | ⟨hxm, hox⟩
  · exact hr x hold
  · exact hback (hox.trans hxm)

/-- **New sources close no cycle: whatever starts at a node nothing leads to lies on none.** -/
theorem Acyclic.sources {new : α → Prop} (hr : Acyclic r) (hedge : ∀ x y, q x y → r x y ∨ new x)
    (hnew : ∀ x y, q x y → ¬ new y) : Acyclic q := by
  have hpath : ∀ {a b}, TransGen q a b → (∃ c, q c a) → TransGen r a b := by
    intro a b h
    induction h using TransGen.head_induction_on with
    | single hab =>
        rintro ⟨c, hca⟩
        rcases hedge _ _ hab with hold | hsource
        · exact .single hold
        · exact absurd hsource (hnew _ _ hca)
    | head hab _ ih =>
        rintro ⟨c, hca⟩
        rcases hedge _ _ hab with hold | hsource
        · exact .head hold (ih ⟨_, hab⟩)
        · exact absurd hsource (hnew _ _ hca)
  intro x hcycle
  obtain ⟨y, -, hyx⟩ := TransGen.tail'_iff.mp hcycle
  exact hr x (hpath hcycle ⟨y, hyx⟩)

end Edges
