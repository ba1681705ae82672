/-
A run, taken from one of its moments on.

Any pool of a run can be taken as a start: what is left of its programs are programs
that were just started, and the log begins again.  A program that was started later
is then one of a run from the start, so whatever it saw and did lies between that
moment and the present.

That is real time as far as an interleaving has it: of two programs the second was
started after the first had finished exactly when some pool of the run has the first
one's answer and not yet the second one.
-/
import Mathlib.Data.Nat.Find
import Numu.Lib.Recall

/-- What happened since a moment. -/
def World.since {σ : Type} (v w : World σ) : World σ := ⟨w.now, w.log.drop v.log.length⟩

namespace Pool

variable {σ α : Type}

/-- What is left of the programs of a pool, and the code of those to come. -/
def resume (p : Pool σ α) (code : Nat → Resumption σ α) (n : Nat) : Resumption σ α :=
  (p.threads[n]?).getD (code n)

section Resume

variable {code : Nat → Resumption σ α} {p q : Pool σ α}

theorem resume_late {n : Nat} (h : p.threads.length ≤ n) : p.resume code n = code n := by
  rw [resume, List.getElem?_eq_none h]
  rfl

theorem resume_early {n : Nat} (h : n < p.threads.length) : p.resume code n = p.threads[n] := by
  rw [resume, List.getElem?_eq_getElem h]
  rfl

/-- All that is left of a pool can be started at once. -/
theorem resumed (p : Pool σ α) (code : Nat → Resumption σ α) :
    Run (p.resume code) (fun _ _ => True) (start p.world.now) ⟨⟨p.world.now, []⟩, p.threads⟩ := by
  suffices hall : ∀ n, n ≤ p.threads.length → Run (p.resume code) (fun _ _ => True)
      (start p.world.now) ⟨⟨p.world.now, []⟩, p.threads.take n⟩ by
    have hwhole := hall p.threads.length (Nat.le_refl _)
    rwa [List.take_length] at hwhole
  intro n
  induction n with
  | zero => intro _; exact .refl
  | succ n ih =>
      intro hn
      have hspawn : Step (p.resume code) (fun _ _ => True) ⟨⟨p.world.now, []⟩, p.threads.take n⟩
          ⟨⟨p.world.now, []⟩, p.threads.take n ++ [p.resume code (p.threads.take n).length]⟩ :=
        .spawn trivial
      rw [List.length_take, Nat.min_eq_left (by omega), resume_early (by omega),
        List.take_append_getElem] at hspawn
      exact (ih (by omega)).tail hspawn

/-- **Any moment of a run can be taken as its start.** -/
theorem Run.rebase (hrun : Run code (fun _ _ => True) p q) :
    q.world.log = p.world.log ++ (p.world.since q.world).log ∧
      p.threads.length ≤ q.threads.length ∧
      Run (p.resume code) (fun _ _ => True) (start p.world.now) ⟨p.world.since q.world, q.threads⟩ := by
  induction hrun with
  | refl =>
      have hsince : p.world.since p.world = ⟨p.world.now, []⟩ := by
        rw [World.since, List.drop_length]
      rw [hsince]
      exact ⟨(List.append_nil _).symm, Nat.le_refl _, resumed p code⟩
  | @tail q r _ hstep ih =>
      obtain ⟨hlog, hlen, hsame⟩ := ih
      cases hstep with
      | spawn _ =>
          refine ⟨hlog, ?_, ?_⟩
          · rw [List.length_append]
            exact Nat.le_add_right_of_le hlen
          · have hspawn : Step (p.resume code) (fun _ _ => True) ⟨p.world.since q.world, q.threads⟩
                ⟨p.world.since q.world, q.threads ++ [p.resume code q.threads.length]⟩ :=
              .spawn trivial
            rw [resume_late hlen] at hspawn
            exact hsame.tail hspawn
      | read hi =>
          refine ⟨hlog, ?_, hsame.tail (.read hi)⟩
          rw [List.length_set]
          exact hlen
      | @write i update next hi =>
          have hle : p.world.log.length ≤ q.world.log.length := by
            rw [hlog, List.length_append]
            exact Nat.le_add_right _ _
          have hcommit : p.world.since (q.world.commit i update) =
              (p.world.since q.world).commit i update := by
            simp only [World.since, World.commit, List.drop_append_of_le_length hle]
          refine ⟨?_, ?_, ?_⟩
          · rw [hcommit]
            show q.world.log ++ _ = p.world.log ++ ((p.world.since q.world).log ++ _)
            rw [← List.append_assoc, ← hlog]
            rfl
          · rw [List.length_set]
            exact hlen
          · rw [hcommit]
            exact hsame.tail (.write hi)

theorem Run.from_since (hrun : Run code (fun _ _ => True) p q) :
    World.From p.world.now (p.world.since q.world) := hrun.rebase.2.2.from

/-- A commit since is a commit. -/
theorem Run.mem_since (hrun : Run code (fun _ _ => True) p q) {c : Commit σ}
    (hc : c ∈ (p.world.since q.world).log) : c ∈ q.world.log := by
  rw [hrun.rebase.1]
  exact List.mem_append.mpr (Or.inr hc)

/-- A stretch of a run is followed by the next one. -/
theorem Run.since_trans {r : Pool σ α} (hpq : Run code (fun _ _ => True) p q)
    (hqr : Run code (fun _ _ => True) q r) :
    (p.world.since r.world).log = (p.world.since q.world).log ++ (q.world.since r.world).log := by
  have hlog := (Run.rebase (hpq.trans hqr)).1
  rw [hqr.rebase.1, hpq.rebase.1, List.append_assoc] at hlog
  exact (List.append_cancel_left hlog).symm

/-- **What held at a moment holds at every moment of the next stretch, or was lost in between.** -/
theorem Run.kept_across {r : Pool σ α} (hpq : Run code (fun _ _ => True) p q)
    (hqr : Run code (fun _ _ => True) q r) {P : σ → Prop} {u v : σ}
    (hu : (p.world.since q.world).Visited u) (hv : (q.world.since r.world).Visited v) (hP : P u) :
    P v ∨ ∃ c ∈ (p.world.since r.world).log, P c.before ∧ ¬ P c.after := by
  by_cases hlost : ∃ c ∈ (p.world.since r.world).log, P c.before ∧ ¬ P c.after
  · exact Or.inr hlost
  have hkept : ∀ c ∈ (p.world.since r.world).log, P c.before → P c.after := by
    intro c hc hbefore
    by_contra hafter
    exact hlost ⟨c, hc, hbefore, hafter⟩
  rw [hpq.since_trans hqr] at hkept
  -- To the end of the first stretch, and on from there.
  have hmiddle : P q.world.now :=
    hpq.from_since.kept (fun c hc => hkept c (List.mem_append.mpr (Or.inl hc))) u hu hP
  exact Or.inl (hqr.from_since.visited hmiddle
    (fun c hc => hkept c (List.mem_append.mpr (Or.inr hc))) v hv)

/-- **What a program saw and did lies between its start and its answer.** -/
theorem Run.lived {Q : Nat → α → List (Glance σ) → Prop} (hrun : Run code (fun _ _ => True) p q)
    (hcode : ∀ n, (code n).Guarded (fun _ _ _ => True) (Q n) []) {i : Nat} {a : α}
    (hlate : p.threads.length ≤ i) (hi : q.Finished i a) :
    ∃ m, Q i a m ∧ (∀ u, Seen m u → (p.world.since q.world).Visited u) ∧
      ∀ u t, Glance.write u t ∈ m → ⟨i, u, t⟩ ∈ (p.world.since q.world).log := by
  have hresumed : ∀ n, (p.resume code n).Guarded (fun _ _ _ => True)
      (fun a m => p.threads.length ≤ n → Q n a m) [] := by
    intro n
    rcases Nat.lt_or_ge n p.threads.length with hn | hn
    · refine (Resumption.Writes.guarded (R := fun _ _ => True)
        (Resumption.writes_of_forall (fun _ _ => trivial) _) (fun _ _ _ _ => trivial) []).weaken ?_
      intro a m _ hle
      exact absurd hle (Nat.not_le.mpr hn)
    · rw [resume_late hn]
      exact (hcode n).weaken fun a m h _ => h
  obtain ⟨m, hm, hseen, hwrote⟩ := hrun.rebase.2.2.answered hresumed (i := i) (a := a) hi
  exact ⟨m, hm hlate, hseen, hwrote⟩

end Resume

end Pool

/-! ### Programs whose writes are not asked about -/

theorem Resumption.Answers.guarded {σ α : Type} {P : α → Prop} {p : Resumption σ α}
    (hp : p.Answers P) : ∀ m, p.Guarded (fun _ _ _ => True) (fun a _ => P a) m := by
  induction p with
  | done a => intro m; exact hp
  | read next ih => intro m s; exact ih s (hp s) _
  | write update next ih => intro m s; exact ⟨trivial, ih s (hp s) _⟩

namespace Fallible

variable {ε σ α β : Type} {Q : β → List (Glance σ) → Prop} {m : List (Glance σ)}

/-- Whatever the first half does, it only adds to the memory. -/
theorem guarded_skip_bind {p : Fallible ε σ α} {f : α → Fallible ε σ β}
    (h : ∀ a m', m <:+ m' → Guarded (fun _ _ _ => True) Q (f a) m') :
    Guarded (fun _ _ _ => True) Q (p >>= f) m := by
  refine guarded_bind ?_
  have hany : Resumption.Writes (fun _ _ => True) (ExceptT.run p) :=
    Resumption.writes_of_forall (fun _ _ => trivial) _
  refine Resumption.Guarded.weaken (p := ExceptT.run p) ?_
    (hany.guarded_suffix m fun _ _ _ _ _ => trivial)
  intro r m' hm a _
  exact h a m' hm

/-- What is promised of a program, with the memory it starts from. -/
theorem guarded_suffix_of {W : List (Glance σ) → σ → σ → Prop} {p : Fallible ε σ β}
    (hp : Guarded W Q p m) :
    Guarded (fun _ _ _ => True) (fun a m' => Q a m' ∧ m <:+ m') p m := by
  have hany : Resumption.Writes (fun _ _ => True) (ExceptT.run p) :=
    Resumption.writes_of_forall (fun _ _ => trivial) _
  have hboth := Resumption.Guarded.and (p := ExceptT.run p) hp
    (hany.guarded_suffix (W := fun _ _ _ => True) m fun _ _ _ _ _ => trivial)
  refine Resumption.Guarded.justify (Resumption.Guarded.weaken ?_ hboth) fun _ _ _ _ _ => trivial
  intro r m' hr a ha
  exact ⟨hr.1 a ha, hr.2⟩

theorem guarded_of_answers {P : β → Prop} {p : Fallible ε σ β} (hp : Answers P p) :
    Guarded (fun _ _ _ => True) (fun a _ => P a) p m :=
  Resumption.Answers.guarded (p := ExceptT.run p) hp m

end Fallible

/-! ### Fair schedules -/

namespace Pool

variable {σ α : Type} {code : Nat → Resumption σ α} {p : Pool σ α} {moves : Nat → Move} {i : Nat}

/-- A program stays as it is while others move. -/
theorem move_kept {m : Move} {c : Resumption σ α} (hm : m ≠ .advance i)
    (hc : p.threads[i]? = some c) : (move code p m).threads[i]? = some c := by
  cases m with
  | spawn =>
      show (p.threads ++ [_])[i]? = some c
      rw [List.getElem?_append_left (List.getElem?_eq_some_iff.mp hc).1]
      exact hc
  | advance j =>
      have hne : j ≠ i := by
        rintro rfl
        exact hm rfl
      simp only [move]
      split
      · exact (List.getElem?_set_ne hne).trans hc
      · exact (List.getElem?_set_ne hne).trans hc
      · exact hc

/-- An answer is final. -/
theorem Finished.move {a : α} {m : Move} (h : p.Finished i a) : (move code p m).Finished i a := by
  by_cases hm : m = .advance i
  · have hstill : Pool.move code p m = p := by
      rw [hm]
      simp only [Pool.move, show p.threads[i]? = some (.done a) from h]
    rw [hstill]
    exact h
  · exact move_kept hm h

end Pool
