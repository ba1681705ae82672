/-
What a program has seen by the time it writes, and when that was.

A gate reads the state and the write behind it comes later, so in a pool the write
is justified by a moment of the past.  The memory of a watched program holds those
moments.  Here they are found again in the log: every state a program has seen is
one of the states before its commit.

The other half is where a state came from.  What holds at some moment and did not
at the start was gained by one of the commits, and kept by all that came after.
-/
import Numu.Lib.Watch
import Numu.Lib.Zoom

/-! ### The states of a memory -/

/-- The states a step shows: the one it was taken in, and the one a write left. -/
def Glance.Shows {σ : Type} : Glance σ → σ → Prop
  | .read s, u => u = s
  | .write s t, u => u = s ∨ u = t

/-- Some step of the memory shows the state. -/
def Seen {σ : Type} (m : List (Glance σ)) (u : σ) : Prop := ∃ g ∈ m, g.Shows u

namespace Seen

variable {τ σ : Type} {m m' : List (Glance σ)} {s t u : σ}

theorem mono (h : Seen m u) (hm : m <:+ m') : Seen m' u := by
  obtain ⟨g, hg, hu⟩ := h
  exact ⟨g, hm.mem hg, hu⟩

theorem read : Seen (.read s :: m) s := ⟨_, List.mem_cons_self, rfl⟩

theorem after : Seen (.write s t :: m) t := ⟨_, List.mem_cons_self, Or.inr rfl⟩

theorem cons {g : Glance σ} (h : Seen m u) : Seen (g :: m) u := h.mono (List.suffix_cons _ _)

theorem of_nil (h : Seen ([] : List (Glance σ)) u) : False := by
  obtain ⟨g, hg, -⟩ := h
  cases hg

end Seen

/-- A step on the whole as one on the part. -/
def Glance.zoom {τ σ : Type} (z : Zoom τ σ) : Glance τ → Glance σ
  | .read t => .read (z.get t)
  | .write t t' => .write (z.get t) (z.get t')

theorem Seen.of_zoom {τ σ : Type} {z : Zoom τ σ} {m : List (Glance τ)} {s : σ}
    (h : Seen (m.map (Glance.zoom z)) s) : ∃ t, Seen m t ∧ z.get t = s := by
  obtain ⟨g, hg, hs⟩ := h
  obtain ⟨k, hk, rfl⟩ := List.mem_map.mp hg
  cases k with
  | read t => exact ⟨t, ⟨_, hk, rfl⟩, hs.symm⟩
  | write t t' =>
      rcases hs with rfl | rfl
      · exact ⟨t, ⟨_, hk, Or.inl rfl⟩, rfl⟩
      · exact ⟨t', ⟨_, hk, Or.inr rfl⟩, rfl⟩

/-! ### Promises -/

namespace Resumption

variable {τ σ α : Type} {W : List (Glance σ) → σ → σ → Prop} {Q : α → List (Glance σ) → Prop}

/-- A promise about the memory behind each write and one about the write itself. -/
theorem Guarded.and_writes {R : σ → σ → Prop} {p : Resumption σ α} (hr : p.Writes R) :
    ∀ {m}, p.Guarded W Q m → p.Guarded (fun m s t => W m s t ∧ R s t) Q m := by
  induction p with
  | done a => intro m hp; exact hp
  | read next ih => intro m hp s; exact ih s (hr s) (hp s)
  | write update next ih =>
      intro m hp s
      exact ⟨⟨(hp s).1, (hr s).1⟩, ih s (hr s).2 (hp s).2⟩

/-- Two promises about the memory behind each write. -/
theorem Guarded.and {W' : List (Glance σ) → σ → σ → Prop} {Q' : α → List (Glance σ) → Prop}
    {p : Resumption σ α} : ∀ {m}, p.Guarded W Q m → p.Guarded W' Q' m →
      p.Guarded (fun m s t => W m s t ∧ W' m s t) (fun a m => Q a m ∧ Q' a m) m := by
  induction p with
  | done a => intro m hp hp'; exact ⟨hp, hp'⟩
  | read next ih => intro m hp hp' s; exact ih s (hp s) (hp' s)
  | write update next ih =>
      intro m hp hp' s
      exact ⟨⟨(hp s).1, (hp' s).1⟩, ih s (hp s).2 (hp' s).2⟩

/-- Writes that the memory so far justifies. -/
theorem Writes.guarded_suffix {R : σ → σ → Prop} {p : Resumption σ α} (hp : p.Writes R) :
    ∀ m, (∀ m', m <:+ m' → ∀ s t, R s t → W m' s t) → p.Guarded W (fun _ m' => m <:+ m') m := by
  induction p with
  | done a => intro m _; exact List.suffix_refl m
  | read next ih =>
      intro m hW s
      refine (ih s (hp s) _ fun m' hm => hW m' ((List.suffix_cons _ m).trans hm)).weaken ?_
      intro a m' hm
      exact (List.suffix_cons _ m).trans hm
  | write update next ih =>
      intro m hW s
      refine ⟨hW m (List.suffix_refl m) _ _ (hp s).1, ?_⟩
      refine (ih s (hp s).2 _ fun m' hm => hW m' ((List.suffix_cons _ m).trans hm)).weaken ?_
      intro a m' hm
      exact (List.suffix_cons _ m).trans hm

/-- What the memory holds at the start it holds at every write. -/
theorem Guarded.justify {W' : List (Glance σ) → σ → σ → Prop} {p : Resumption σ α} :
    ∀ {m}, p.Guarded W Q m → (∀ m', m <:+ m' → ∀ s t, W m' s t → W' m' s t) →
      p.Guarded W' Q m := by
  induction p with
  | done a => intro m hp _; exact hp
  | read next ih =>
      intro m hp h s
      exact ih s (hp s) fun m' hm => h m' ((List.suffix_cons _ m).trans hm)
  | write update next ih =>
      intro m hp h s
      refine ⟨h m (List.suffix_refl m) _ _ (hp s).1, ih s (hp s).2 fun m' hm => ?_⟩
      exact h m' ((List.suffix_cons _ m).trans hm)

/-- A promise about the part is one about the whole. -/
theorem Guarded.zoom {z : Zoom τ σ} {p : Resumption σ α} :
    ∀ {m : List (Glance τ)}, p.Guarded W Q (m.map (Glance.zoom z)) →
      (p.zoom z).Guarded
        (fun m t t' => ∃ s, W (m.map (Glance.zoom z)) (z.get t) s ∧ t' = z.put s t)
        (fun a m => Q a (m.map (Glance.zoom z))) m := by
  induction p with
  | done a => intro m hp; exact hp
  | read next ih => intro m hp t; exact ih _ (hp (z.get t))
  | write update next ih =>
      intro m hp t
      refine ⟨⟨_, (hp (z.get t)).1, rfl⟩, ih _ ?_⟩
      have hrest := (hp (z.get t)).2
      simpa [Glance.zoom, z.get_put] using hrest

end Resumption

namespace Fallible

variable {ε τ σ α β : Type} {W : List (Glance σ) → σ → σ → Prop} {m : List (Glance σ)}

/-- After a gate, writes that the memory so far justifies. -/
theorem guarded_suffix {R : σ → σ → Prop} {p : Fallible ε σ α} (hp : Writes R p)
    (hW : ∀ m', m <:+ m' → ∀ s t, R s t → W m' s t) : Guarded W (fun _ _ => True) p m :=
  Resumption.Guarded.weaken (p := ExceptT.run p) (fun _ _ _ _ _ => trivial)
    (Resumption.Writes.guarded_suffix hp m hW)

/-- And where nothing is said of the write, whatever comes. -/
theorem guarded_behind (p : Fallible ε σ α) (hW : ∀ m', m <:+ m' → ∀ s t, W m' s t) :
    Guarded W (fun _ _ => True) p m :=
  guarded_suffix (R := fun _ _ => True)
    (Resumption.writes_of_forall (fun _ _ => trivial) (ExceptT.run p)) fun m' hm s t _ => hW m' hm s t

/-- The same, with what the memory so far promises of the answer. -/
theorem guarded_beyond {Q : α → List (Glance σ) → Prop} (p : Fallible ε σ α)
    (hW : ∀ m', m <:+ m' → ∀ s t, W m' s t) (hQ : ∀ a m', m <:+ m' → Q a m') :
    Guarded W Q p m := by
  have hany : Resumption.Writes (fun _ _ => True) (ExceptT.run p) :=
    Resumption.writes_of_forall (fun _ _ => trivial) _
  refine Resumption.Guarded.weaken (p := ExceptT.run p) ?_
    (hany.guarded_suffix m fun m' hm s t _ => hW m' hm s t)
  intro r m' hm a _
  exact hQ a m' hm

theorem guarded_and_writes {R : σ → σ → Prop} {Q : α → List (Glance σ) → Prop}
    {p : Fallible ε σ α} (hp : Guarded W Q p m) (hr : Writes R p) :
    Guarded (fun m s t => W m s t ∧ R s t) Q p m :=
  Resumption.Guarded.and_writes hr hp

theorem guarded_and {W' : List (Glance σ) → σ → σ → Prop} {p : Fallible ε σ α}
    (hp : Guarded W (fun _ _ => True) p m) (hp' : Guarded W' (fun _ _ => True) p m) :
    Guarded (fun m s t => W m s t ∧ W' m s t) (fun _ _ => True) p m :=
  Resumption.Guarded.weaken (p := ExceptT.run p) (fun _ _ _ _ _ => trivial)
    (Resumption.Guarded.and (p := ExceptT.run p) hp hp')

theorem guarded_justify {W' : List (Glance σ) → σ → σ → Prop} {Q : α → List (Glance σ) → Prop}
    {p : Fallible ε σ α} (hp : Guarded W Q p m)
    (h : ∀ m', m <:+ m' → ∀ s t, W m' s t → W' m' s t) : Guarded W' Q p m :=
  Resumption.Guarded.justify hp h

theorem guarded_zoom {z : Zoom τ σ} {Q : α → List (Glance σ) → Prop} {p : Fallible ε σ α}
    {m : List (Glance τ)} (hp : Guarded W Q p (m.map (Glance.zoom z))) :
    Guarded (fun m t t' => ∃ s, W (m.map (Glance.zoom z)) (z.get t) s ∧ t' = z.put s t)
      (fun a m => Q a (m.map (Glance.zoom z))) (zoom z p) m :=
  Resumption.Guarded.zoom (p := ExceptT.run p) hp

end Fallible

/-! ### Programs that end with a write -/

namespace Resumption

variable {σ α β : Type} {R : σ → σ → Prop} {P : α → Prop}

/-- A write that `R` holds of is the last step, and the answer behind it satisfies `P`. -/
def Concludes (R : σ → σ → Prop) (P : α → Prop) : Resumption σ α → Prop
  | done _ => True
  | read next => ∀ s, (next s).Concludes R P
  | write update next => ∀ s, (next s).Concludes R P ∧
      (R s (update s) → ∃ a, next s = done a ∧ P a)

/-- What only computes on the answer may follow. -/
theorem Concludes.map {p : Resumption σ α} {g : α → β} {Q : β → Prop} (hp : p.Concludes R P)
    (h : ∀ a, P a → Q (g a)) : (p.bind fun a => done (g a)).Concludes R Q := by
  induction p with
  | done a => trivial
  | read next ih => intro s; exact ih s (hp s)
  | write update next ih =>
      intro s
      refine ⟨ih s (hp s).1, fun hR => ?_⟩
      obtain ⟨a, hdone, ha⟩ := (hp s).2 hR
      refine ⟨g a, ?_, h a ha⟩
      show ((next s).bind fun a => done (g a)) = done (g a)
      rw [hdone]
      rfl

end Resumption

namespace Fallible

variable {ε σ α β : Type} {R : σ → σ → Prop} {P : α → Prop}

/-- The same of a program that may fail: behind such a write it has succeeded. -/
def Concludes (R : σ → σ → Prop) (P : α → Prop) (p : Fallible ε σ α) : Prop :=
  Resumption.Concludes R (fun r : Except ε α => ∃ a, r = .ok a ∧ P a) (ExceptT.run p)

end Fallible

/-! ### Moments of a log -/

/-- One of the states up to the commit. -/
def Earlier {σ : Type} (l : List (Commit σ)) (c : Commit σ) (u : σ) : Prop :=
  u = c.before ∨ ∃ d ∈ l, u = d.before ∨ u = d.after

namespace World.From

variable {σ : Type} {s : σ} {w : World σ}

/-- The world of a part of the log. -/
theorem upTo (h : World.From s w) : ∀ {l₁ l₂ : List (Commit σ)} {c : Commit σ},
    w.log = l₁ ++ c :: l₂ → World.From s ⟨c.before, l₁⟩ := by
  induction h with
  | start => intro l₁ l₂ c hlog; simp at hlog
  | @commit w h i update ih =>
      intro l₁ l₂ c hlog
      rcases List.eq_nil_or_concat l₂ with rfl | ⟨l, d, rfl⟩
      · obtain ⟨hinit, hlast⟩ := List.append_inj' hlog rfl
        obtain rfl : c = ⟨i, w.now, update w.now⟩ := (List.cons.inj hlast).1.symm
        rw [← hinit]
        exact h
      · have hcat : w.log ++ [⟨i, w.now, update w.now⟩] = (l₁ ++ c :: l) ++ [d] := by
          simpa [World.commit] using hlog
        exact ih (List.append_inj' hcat rfl).1

/-- And of the same part with the commit. -/
theorem through (h : World.From s w) : ∀ {l₁ l₂ : List (Commit σ)} {c : Commit σ},
    w.log = l₁ ++ c :: l₂ → World.From s ⟨c.after, l₁ ++ [c]⟩ := by
  intro l₁ l₂ c hlog
  have hbefore := h.upTo hlog
  exact hbefore.commit c.who fun _ => c.after

/-- An earlier moment is the present of a part of the log. -/
theorem earlier (h : World.From s w) {l₁ l₂ : List (Commit σ)} {c : Commit σ}
    (hlog : w.log = l₁ ++ c :: l₂) {u : σ} (hu : Earlier l₁ c u) :
    ∃ l, l <+: l₁ ∧ World.From s ⟨u, l⟩ := by
  have hbefore := h.upTo hlog
  rcases hu with rfl | ⟨d, hd, hu⟩
  · exact ⟨l₁, List.prefix_refl _, hbefore⟩
  obtain ⟨a, b, rfl⟩ := List.append_of_mem hd
  rcases hu with rfl | rfl
  · exact ⟨a, List.prefix_append _ _, hbefore.upTo rfl⟩
  · refine ⟨a ++ [d], ⟨b, by simp⟩, hbefore.through rfl⟩

/-- What holds at the start, and after every commit when it held at every moment before, holds
always. -/
theorem always (h : World.From s w) {P : σ → Prop} (hstart : P s)
    (hstep : ∀ l₁ c l₂, w.log = l₁ ++ c :: l₂ → (∀ u, Earlier l₁ c u → P u) → P c.after) :
    ∀ u, w.Visited u → P u := by
  induction h with
  | start =>
      rintro u (rfl | ⟨c, hc, -⟩)
      · exact hstart
      · exact absurd hc List.not_mem_nil
  | @commit w h i update ih =>
      have hold : ∀ u, w.Visited u → P u := by
        refine ih fun l₁ c l₂ hlog => hstep l₁ c (l₂ ++ [⟨i, w.now, update w.now⟩]) ?_
        simp [World.commit, hlog]
      intro u hu
      rcases World.visited_commit.mp hu with rfl | hu
      · refine hstep w.log ⟨i, w.now, update w.now⟩ [] rfl fun u hu => hold u ?_
        rcases hu with rfl | ⟨d, hd, rfl | rfl⟩
        · exact Or.inl rfl
        · exact Or.inr ⟨d, hd, rfl⟩
        · exact h.visited_after d hd
      · exact hold u hu

/-- What held at one of the moments and no commit loses holds now. -/
theorem kept (h : World.From s w) {P : σ → Prop} (hstep : ∀ c ∈ w.log, P c.before → P c.after) :
    ∀ u, w.Visited u → P u → P w.now := by
  induction h with
  | start =>
      rintro u (rfl | ⟨c, hc, -⟩) hP
      · exact hP
      · exact absurd hc List.not_mem_nil
  | @commit w h i update ih =>
      intro u hu hP
      rcases World.visited_commit.mp hu with rfl | hu
      · exact hP
      · have hbefore : P w.now := ih (fun c hc => hstep c (List.mem_append.mpr (Or.inl hc))) u hu hP
        exact hstep ⟨i, w.now, update w.now⟩ (by simp [World.commit]) hbefore

/-- And what held at a moment before a commit the commit finds. -/
theorem found (h : World.From s w) {P : σ → Prop} (hstep : ∀ c ∈ w.log, P c.before → P c.after)
    {l₁ l₂ : List (Commit σ)} {c : Commit σ} (hlog : w.log = l₁ ++ c :: l₂) {u : σ}
    (hu : Earlier l₁ c u) (hP : P u) : P c.before := by
  have hbefore := h.upTo hlog
  refine hbefore.kept (fun d hd => hstep d ?_) u ?_ hP
  · rw [hlog]
    exact List.mem_append.mpr (Or.inl hd)
  · rcases hu with rfl | ⟨d, hd, rfl | rfl⟩
    · exact Or.inl rfl
    · exact Or.inr ⟨d, hd, rfl⟩
    · exact hbefore.visited_after d hd

/-- What every commit since a moment does, all of them together do. -/
theorem since (h : World.From s w) {R : σ → σ → Prop}
    (htrans : ∀ a b c, R a b → R b c → R a c) : ∀ {l₁ l₂ : List (Commit σ)} {c : Commit σ},
    w.log = l₁ ++ c :: l₂ → (∀ d ∈ c :: l₂, R d.before d.after) → R c.before w.now := by
  induction h with
  | start => intro l₁ l₂ c hlog; simp at hlog
  | @commit w h i update ih =>
      intro l₁ l₂ c hlog hstep
      rcases List.eq_nil_or_concat l₂ with rfl | ⟨l, d, rfl⟩
      · obtain ⟨-, hlast⟩ := List.append_inj' hlog rfl
        obtain rfl : c = ⟨i, w.now, update w.now⟩ := (List.cons.inj hlast).1.symm
        exact hstep _ List.mem_cons_self
      · rw [List.concat_eq_append] at hstep
        have hcat : w.log ++ [⟨i, w.now, update w.now⟩] = (l₁ ++ c :: l) ++ [d] := by
          simpa [World.commit] using hlog
        obtain ⟨hinit, hlast⟩ := List.append_inj' hcat rfl
        obtain rfl := (List.cons.inj hlast).1
        have hold : R c.before w.now := ih hinit fun e he => hstep e (by
          rcases List.mem_cons.mp he with rfl | he
          · exact List.mem_cons_self
          · exact List.mem_cons_of_mem _ (List.mem_append.mpr (Or.inl he)))
        exact htrans _ _ _ hold (hstep ⟨i, w.now, update w.now⟩ (by simp))

/-- What held at a moment and does not now was lost by a commit since. -/
theorem lost (h : World.From s w) {P : σ → Prop} {l₁ l₂ : List (Commit σ)} {c : Commit σ}
    (hlog : w.log = l₁ ++ c :: l₂) (hbefore : P c.before) (hnow : ¬ P w.now) :
    ∃ k d k', w.log = k ++ d :: k' ∧ l₁ <+: k ∧ P d.before ∧ ¬ P d.after := by
  by_contra hkept
  refine hnow (h.since (R := fun u v => P u → P v) (fun _ _ _ hab hbc ha => hbc (hab ha)) hlog
    (fun d hd hd' => ?_) hbefore)
  by_contra hafter
  obtain ⟨k, k', hsplit⟩ := List.append_of_mem hd
  refine hkept ⟨l₁ ++ k, d, k', ?_, List.prefix_append _ _, hd', hafter⟩
  rw [hlog, hsplit, List.append_assoc]

/-- What holds now and did not at the start was gained by a commit, and has been kept since. -/
theorem gained (h : World.From s w) {P : σ → Prop} (hstart : ¬ P s) (hnow : P w.now) :
    ∃ l₁ c l₂, w.log = l₁ ++ c :: l₂ ∧ ¬ P c.before ∧ P c.after ∧ ∀ d ∈ l₂, P d.before ∧ P d.after := by
  classical
  induction h with
  | start => exact absurd hnow hstart
  | @commit w h i update ih =>
      by_cases hbefore : P w.now
      · obtain ⟨l₁, c, l₂, hlog, hlost, hgot, hkept⟩ := ih hbefore
        refine ⟨l₁, c, l₂ ++ [⟨i, w.now, update w.now⟩], ?_, hlost, hgot, ?_⟩
        · simp [World.commit, hlog]
        · intro d hd
          rcases List.mem_append.mp hd with hd | hd
          · exact hkept d hd
          · obtain rfl := List.mem_singleton.mp hd
            exact ⟨hbefore, hnow⟩
      · exact ⟨w.log, ⟨i, w.now, update w.now⟩, [], rfl, hbefore, hnow, by simp⟩

end World.From

/-! ### From the memory to the log -/

namespace Watch

variable {σ α : Type} {code : Nat → Resumption σ α} {s : σ} {w : Watch σ α}

/-- A state of the run so far. -/
def Past (w : Watch σ α) (u : σ) : Prop :=
  u = w.pool.world.now ∨ ∃ d ∈ w.sightings, u = d.before ∨ u = d.after

theorem Run.seen (hrun : Run code (start s) w) : (∀ i u, Seen (w.memory i) u → w.Past u) ∧
    ∀ l₁ c l₂, w.sightings = l₁ ++ c :: l₂ → ∀ u, Seen c.memory u →
      Earlier (l₁.map Sighting.toCommit) c.toCommit u := by
  induction hrun with
  | refl =>
      refine ⟨fun i u hu => hu.of_nil.elim, fun l₁ c l₂ h => ?_⟩
      simp [start] at h
  | @tail v _ _ hstep ih =>
      obtain ⟨hmem, hsight⟩ := ih
      cases hstep with
      | spawn => exact ⟨hmem, hsight⟩
      | @read i next hi =>
          refine ⟨fun j u hu => ?_, hsight⟩
          have hu : Seen (v.remember i (.read v.pool.world.now) j) u := hu
          by_cases hij : j = i
          · subst hij
            rw [remember_self] at hu
            obtain ⟨g, hg, hshow⟩ := hu
            rcases List.mem_cons.mp hg with rfl | hg
            · exact Or.inl hshow
            · exact hmem j u ⟨g, hg, hshow⟩
          · rw [remember_other v _ hij] at hu
            exact hmem j u hu
      | @write i update next hi =>
          -- The states up to now are those before the new sighting.
          have hpast : ∀ u, v.Past u → ∃ d ∈ v.sightings ++
              [⟨⟨i, v.pool.world.now, update v.pool.world.now⟩, v.memory i⟩],
              u = d.before ∨ u = d.after := by
            intro u hu
            rcases hu with rfl | ⟨d, hd, hu⟩
            · exact ⟨_, List.mem_append.mpr (Or.inr (List.mem_singleton.mpr rfl)), Or.inl rfl⟩
            · exact ⟨d, List.mem_append.mpr (Or.inl hd), hu⟩
          refine ⟨fun j u hu => ?_, fun l₁ c l₂ hsplit u hu => ?_⟩
          · have hu : Seen (v.remember i
                (.write v.pool.world.now (update v.pool.world.now)) j) u := hu
            by_cases hij : j = i
            · subst hij
              rw [remember_self] at hu
              obtain ⟨g, hg, hshow⟩ := hu
              rcases List.mem_cons.mp hg with rfl | hg
              · rcases hshow with rfl | rfl
                · exact Or.inr (hpast _ (Or.inl rfl))
                · exact Or.inl rfl
              · exact Or.inr (hpast u (hmem j u ⟨g, hg, hshow⟩))
            · rw [remember_other v _ hij] at hu
              exact Or.inr (hpast u (hmem j u hu))
          · rcases List.eq_nil_or_concat l₂ with rfl | ⟨l, d, rfl⟩
            · obtain ⟨hinit, hlast⟩ := List.append_inj' hsplit rfl
              obtain rfl := (List.cons.inj hlast).1
              rcases hmem i u hu with rfl | ⟨d, hd, hu⟩
              · exact Or.inl rfl
              · refine Or.inr ⟨d.toCommit, ?_, hu⟩
                rw [← hinit]
                exact List.mem_map_of_mem hd
            · have hcat : v.sightings ++
                  [⟨⟨i, v.pool.world.now, update v.pool.world.now⟩, v.memory i⟩] =
                  (l₁ ++ c :: l) ++ [d] := by
                simpa using hsplit
              exact hsight l₁ c l (List.append_inj' hcat rfl).1 u hu

end Watch

/-- The answer of a program that has finished. -/
def Pool.answer? {σ α : Type} (p : Pool σ α) (i : Nat) : Option α :=
  match p.threads[i]? with
  | some (.done a) => some a
  | _ => none

theorem Pool.finished_of_answer {σ α : Type} {p : Pool σ α} {i : Nat} {a : α}
    (h : p.answer? i = some a) : p.Finished i a := by
  unfold Pool.answer? at h
  split at h
  · rename_i b hb
    obtain rfl := Option.some.inj h
    exact hb
  · cases h

namespace Pool.Run

variable {σ α : Type} {code : Nat → Resumption σ α} {s : σ} {p : Pool σ α}
  {W : Nat → List (Glance σ) → σ → σ → Prop} {Q : Nat → α → List (Glance σ) → Prop}

/-- **Every commit of a pool is justified by moments before it.** -/
theorem justified (hrun : Pool.Run code (fun _ _ => True) (Pool.start s) p)
    (hcode : ∀ n, (code n).Guarded (W n) (Q n) []) {l₁ l₂ : List (Commit σ)} {c : Commit σ}
    (hlog : p.world.log = l₁ ++ c :: l₂) :
    ∃ m, (∀ u, Seen m u → Earlier l₁ c u) ∧ W c.who m c.before c.after := by
  obtain ⟨w, hw, rfl⟩ := Watch.exists_run hrun
  rw [hw.log] at hlog
  obtain ⟨k₁, k, hsight, rfl, hrest⟩ := List.map_eq_append_iff.mp hlog
  obtain ⟨d, k₂, rfl, rfl, -⟩ := List.map_eq_cons_iff.mp hrest
  refine ⟨d.memory, hw.seen.2 k₁ d k₂ hsight, ?_⟩
  exact (hw.justified hcode).commits d (by simp [hsight])

/-- And so is every answer, by what the program met and did. -/
theorem answered (hrun : Pool.Run code (fun _ _ => True) (Pool.start s) p)
    (hcode : ∀ n, (code n).Guarded (W n) (Q n) []) {i : Nat} {a : α} (hi : p.Finished i a) :
    ∃ m, Q i a m ∧ (∀ u, Seen m u → p.world.Visited u) ∧
      ∀ u t, Glance.write u t ∈ m → ⟨i, u, t⟩ ∈ p.world.log := by
  obtain ⟨w, hw, rfl⟩ := Watch.exists_run hrun
  refine ⟨w.memory i, (hw.justified hcode).finished hi, fun u hu => ?_, fun u t hut => ?_⟩
  · rcases hw.seen.1 i u hu with rfl | ⟨d, hd, hu⟩
    · exact Or.inl rfl
    · have hlog : d.toCommit ∈ w.pool.world.log := by
        rw [hw.log]
        exact List.mem_map_of_mem hd
      rcases hu with rfl | rfl
      · exact Or.inr ⟨d.toCommit, hlog, rfl⟩
      · exact (Pool.Run.from hrun).visited_after d.toCommit hlog
  · obtain ⟨a', b', hmem⟩ := List.append_of_mem hut
    have hsight := hw.sighted (i := i) (a := u) (b := t) (m := b') ⟨a', hmem.symm⟩
    rw [hw.log]
    exact List.mem_map_of_mem hsight

end Pool.Run
