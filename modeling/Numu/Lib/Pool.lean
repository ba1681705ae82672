/-
Many programs over one state, one step at a time.

A `Pool` is the shared state, the commits made so far, and what is left of every
program that was started.  A step starts the next program, or lets one program
take its next read or write.  Nothing else is assumed of the order, so a fact
about every reachable pool is a fact about every interleaving.

The proofs about pools go through a rely/guarantee contract.  A program keeps
its contract when each of its writes is one the contract guarantees, whatever
the other programs did in the meantime within what it relies on.  That is a
property of one program, proved along its own text.  `Contract.run_ok` puts the
programs together: in every reachable pool the invariant holds and every program
still keeps its contract.

The log is ghost state.  No program reads it; it is what "every two moments of a
run" and "the write this request made" are said with.
-/
import Numu.Lib.Resumption
import Mathlib.Logic.Relation

/-- One write: who made it, and the state before and after it. -/
structure Commit (σ : Type) where
  who : Nat
  before : σ
  after : σ

/-- The shared state now, and every write that led to it, oldest first. -/
structure World (σ : Type) where
  now : σ
  log : List (Commit σ)

/-- The world after program `i` made a write. -/
def World.commit {σ : Type} (w : World σ) (i : Nat) (update : σ → σ) : World σ where
  now := update w.now
  log := w.log ++ [⟨i, w.now, update w.now⟩]

/-- Some moment of the run had this state. -/
def World.Visited {σ : Type} (w : World σ) (s : σ) : Prop :=
  s = w.now ∨ ∃ c ∈ w.log, s = c.before

/-- After a commit the moments are the old ones and the new present. -/
theorem World.visited_commit {σ : Type} {w : World σ} {i : Nat} {update : σ → σ} {t : σ} :
    (w.commit i update).Visited t ↔ t = update w.now ∨ w.Visited t := by
  unfold World.Visited World.commit
  simp only [List.mem_append, List.mem_singleton]
  refine ⟨fun h => ?_, fun h => ?_⟩
  · rcases h with h | ⟨c, hc | rfl, h⟩
    · exact Or.inl h
    · exact Or.inr (Or.inr ⟨c, hc, h⟩)
    · exact Or.inr (Or.inl h)
  · rcases h with h | h | ⟨c, hc, h⟩
    · exact Or.inl h
    · exact Or.inr ⟨_, Or.inr rfl, h⟩
    · exact Or.inr ⟨c, Or.inl hc, h⟩

/-- The log leads from the state `s` to the present one. -/
inductive World.From {σ : Type} (s : σ) : World σ → Prop
  | start : From s ⟨s, []⟩
  | commit {w : World σ} (h : From s w) (i : Nat) (update : σ → σ) : From s (w.commit i update)

/-- What holds at the start and is kept by every commit holds at every moment. -/
theorem World.From.visited {σ : Type} {s : σ} {w : World σ} (h : World.From s w) {P : σ → Prop}
    (hs : P s) (hstep : ∀ c ∈ w.log, P c.before → P c.after) : ∀ t, w.Visited t → P t := by
  induction h with
  | start =>
      intro t ht
      rcases ht with rfl | ⟨c, hc, -⟩
      · exact hs
      · simp at hc
  | @commit w h i update ih =>
      have hold : ∀ t, w.Visited t → P t := by
        refine ih ?_
        intro c hc
        exact hstep c (List.mem_append.mpr (Or.inl hc))
      have hnow : P w.now := hold _ (Or.inl rfl)
      intro t ht
      rcases ht with rfl | ⟨c, hc, rfl⟩
      · exact hstep ⟨i, w.now, update w.now⟩ (by simp [World.commit]) hnow
      · rcases List.mem_append.mp hc with hc | hc
        · exact hold _ (Or.inr ⟨c, hc, rfl⟩)
        · obtain rfl : c = ⟨i, w.now, update w.now⟩ := by simpa using hc
          exact hnow

/-- The state a commit leaves is one of the moments too. -/
theorem World.From.visited_after {σ : Type} {s : σ} {w : World σ} (h : World.From s w) :
    ∀ c ∈ w.log, w.Visited c.after := by
  induction h with
  | start => intro c hc; simp at hc
  | @commit w h i update ih =>
      intro c hc
      rcases List.mem_append.mp hc with hc | hc
      · rcases ih c hc with hnow | ⟨d, hd, hafter⟩
        · exact Or.inr ⟨⟨i, w.now, update w.now⟩, by simp [World.commit], hnow⟩
        · exact Or.inr ⟨d, List.mem_append.mpr (Or.inl hd), hafter⟩
      · obtain rfl : c = ⟨i, w.now, update w.now⟩ := by simpa using hc
        exact Or.inl rfl

/-- What no commit loses is gained by one commit at most. -/
theorem World.From.gained_once {σ : Type} {s : σ} {w : World σ} (h : World.From s w)
    {P : σ → Prop} (hstep : ∀ c ∈ w.log, P c.before → P c.after) :
    ∀ c ∈ w.log, ∀ d ∈ w.log, ¬ P c.before → P c.after → ¬ P d.before → P d.after → c = d := by
  suffices hboth : (∀ c ∈ w.log, P c.after → P w.now) ∧
      ∀ c ∈ w.log, ∀ d ∈ w.log, ¬ P c.before → P c.after → ¬ P d.before → P d.after → c = d from
    hboth.2
  induction h with
  | start => exact ⟨by simp, by simp⟩
  | @commit w h i update ih =>
      obtain ⟨hkept, honce⟩ := ih fun c hc => hstep c (List.mem_append.mpr (Or.inl hc))
      have hlast := hstep ⟨i, w.now, update w.now⟩ (by simp [World.commit])
      refine ⟨?_, ?_⟩
      · intro c hc hafter
        rcases List.mem_append.mp hc with hc | hc
        · exact hlast (hkept c hc hafter)
        · obtain rfl := List.mem_singleton.mp hc
          exact hafter
      · intro c hc d hd hcb hca hdb hda
        rcases List.mem_append.mp hc with hc | hc
        · rcases List.mem_append.mp hd with hd | hd
          · exact honce c hc d hd hcb hca hdb hda
          · obtain rfl := List.mem_singleton.mp hd
            exact absurd (hkept c hc hca) hdb
        · obtain rfl := List.mem_singleton.mp hc
          rcases List.mem_append.mp hd with hd | hd
          · exact absurd (hkept d hd hda) hcb
          · exact (List.mem_singleton.mp hd).symm

theorem World.From.visited_start {σ : Type} {s : σ} {w : World σ} (h : World.From s w) :
    w.Visited s := by
  induction h with
  | start => exact Or.inl rfl
  | commit h i update ih => exact World.visited_commit.mpr (Or.inr ih)

/-- The program's own commits are the same in both logs. -/
def World.SameCommits {σ : Type} (i : Nat) (w w' : World σ) : Prop :=
  ∀ c : Commit σ, c.who = i → (c ∈ w'.log ↔ c ∈ w.log)

/-- A commit of another program leaves one's own alone. -/
theorem World.sameCommits_commit {σ : Type} {i j : Nat} {w w' : World σ} (hij : i ≠ j)
    (hlog : w'.log = w.log ++ [⟨j, w.now, w'.now⟩]) : World.SameCommits i w w' := by
  intro c hc
  rw [hlog, List.mem_append]
  refine ⟨fun h => ?_, Or.inl⟩
  rcases h with h | h
  · exact h
  · obtain rfl : c = ⟨j, w.now, w'.now⟩ := by simpa using h
    exact absurd hc.symm hij

/-- The program has made no commit yet. -/
def World.Fresh {σ : Type} (w : World σ) (i : Nat) : Prop := ∀ c ∈ w.log, c.who ≠ i

theorem World.Fresh.rely {σ : Type} {i : Nat} {w w' : World σ} (h : w.Fresh i)
    (hr : World.SameCommits i w w') : w'.Fresh i := by
  intro c hc hwho
  exact h c ((hr c hwho).mp hc) hwho

/-- The first commit of a program is its only one. -/
theorem World.Fresh.commit {σ : Type} {i : Nat} {w : World σ} (h : w.Fresh i) {t : σ} :
    ∀ c ∈ (w.commit i fun _ => t).log, c.who = i → c = ⟨i, w.now, t⟩ := by
  intro c hc hwho
  rcases List.mem_append.mp hc with hc | hc
  · exact absurd hwho (h c hc)
  · simpa using hc

/-- The world and what is left of every program started so far. -/
structure Pool (σ α : Type) where
  world : World σ
  threads : List (Resumption σ α)

namespace Pool

variable {σ α : Type}

/-- Nothing has been started. -/
def start (s : σ) : Pool σ α := ⟨⟨s, []⟩, []⟩

/-- One step of the pool.  Program `n` is started as the `n`-th one, when `allow` lets it. -/
inductive Step (code : Nat → Resumption σ α) (allow : Nat → Pool σ α → Prop) :
    Pool σ α → Pool σ α → Prop
  | spawn {p : Pool σ α} (h : allow p.threads.length p) :
      Step code allow p ⟨p.world, p.threads ++ [code p.threads.length]⟩
  | read {p : Pool σ α} {i : Nat} {next : σ → Resumption σ α}
      (h : p.threads[i]? = some (.read next)) :
      Step code allow p ⟨p.world, p.threads.set i (next p.world.now)⟩
  | write {p : Pool σ α} {i : Nat} {update : σ → σ} {next : σ → Resumption σ α}
      (h : p.threads[i]? = some (.write update next)) :
      Step code allow p ⟨p.world.commit i update, p.threads.set i (next p.world.now)⟩

/-- Any number of steps. -/
abbrev Run (code : Nat → Resumption σ α) (allow : Nat → Pool σ α → Prop) :
    Pool σ α → Pool σ α → Prop :=
  Relation.ReflTransGen (Step code allow)

/-- Program `i` has finished with the answer `a`. -/
def Finished (p : Pool σ α) (i : Nat) (a : α) : Prop := p.threads[i]? = some (.done a)

/-- Every program that was started has finished. -/
def Quiet (p : Pool σ α) : Prop := ∀ c ∈ p.threads, ∃ a, c = .done a

theorem forall_set {l : List (Resumption σ α)} {P : Nat → Resumption σ α → Prop} {i : Nat}
    {c : Resumption σ α} (hother : ∀ j d, j ≠ i → l[j]? = some d → P j d) (hc : P i c) :
    ∀ j d, (l.set i c)[j]? = some d → P j d := by
  intro j d hd
  rw [List.getElem?_set] at hd
  by_cases hij : i = j
  · subst hij
    rw [if_pos rfl] at hd
    split at hd
    · obtain rfl : c = d := by simpa using hd
      exact hc
    · simp at hd
  · rw [if_neg hij] at hd
    exact hother j d (fun hc => hij hc.symm) hd

theorem forall_concat {β : Type} {l : List β} {P : Nat → β → Prop} {c : β}
    (hold : ∀ j d, l[j]? = some d → P j d) (hc : P l.length c) :
    ∀ j d, (l ++ [c])[j]? = some d → P j d := by
  intro j d hd
  rcases Nat.lt_or_ge j l.length with hlt | hge
  · rw [List.getElem?_append_left hlt] at hd
    exact hold j d hd
  · rw [List.getElem?_append_right hge] at hd
    rcases Nat.eq_or_lt_of_le hge with heq | hgt
    · subst heq
      obtain rfl : c = d := by simpa using hd
      exact hc
    · rw [List.getElem?_eq_none (by simp; omega)] at hd
      simp at hd

theorem Run.from {code : Nat → Resumption σ α} {allow : Nat → Pool σ α → Prop} {s : σ}
    {p : Pool σ α} (hrun : Run code allow (start s) p) : World.From s p.world := by
  induction hrun with
  | refl => exact .start
  | tail _ hstep ih =>
      cases hstep with
      | spawn _ => exact ih
      | read _ => exact ih
      | write _ => exact ih.commit _ _

/-- A run in which whatever is started may be started. -/
theorem Run.allowed {code : Nat → Resumption σ α} {allow : Nat → Pool σ α → Prop} {s : σ}
    {p : Pool σ α} (hrun : Run code (fun _ _ => True) (start s) p)
    (h : ∀ q n, Run code allow (start s) q → allow n q) : Run code allow (start s) p := by
  induction hrun with
  | refl => exact .refl
  | tail _ hstep ih =>
      cases hstep with
      | spawn _ => exact ih.tail (.spawn (h _ _ ih))
      | read hi => exact ih.tail (.read hi)
      | write hi => exact ih.tail (.write hi)

/-- What every write of a program does is what its commits in the log did. -/
theorem Run.log_writes {code : Nat → Resumption σ α} {allow : Nat → Pool σ α → Prop} {s : σ}
    {p : Pool σ α} (hrun : Run code allow (start s) p) {R : Nat → σ → σ → Prop}
    (hcode : ∀ n, (code n).Writes (R n)) : ∀ c ∈ p.world.log, R c.who c.before c.after := by
  suffices h : (∀ (i : Nat) (c : Resumption σ α), p.threads[i]? = some c → c.Writes (R i)) ∧
      ∀ c ∈ p.world.log, R c.who c.before c.after from h.2
  induction hrun with
  | refl => exact ⟨by simp [start], by simp [start]⟩
  | @tail p q _ hstep ih =>
      obtain ⟨hthreads, hlog⟩ := ih
      cases hstep with
      | spawn _ => exact ⟨forall_concat hthreads (hcode _), hlog⟩
      | @read i next hi =>
          exact ⟨forall_set (fun j d _ hd => hthreads j d hd) (hthreads i _ hi p.world.now), hlog⟩
      | @write i update next hi =>
          have hi' := hthreads i _ hi p.world.now
          refine ⟨forall_set (fun j d _ hd => hthreads j d hd) hi'.2, ?_⟩
          intro c hc
          rcases List.mem_append.mp hc with hc | hc
          · exact hlog c hc
          · obtain rfl : c = ⟨i, p.world.now, update p.world.now⟩ := by simpa using hc
            exact hi'.1

/-! ### Playing a given schedule -/

/-- A scheduling decision: start the next program, or let program `i` move. -/
inductive Move where
  | spawn
  | advance (i : Nat)

/-- The pool after one decision; one that cannot be followed changes nothing. -/
def move (code : Nat → Resumption σ α) (p : Pool σ α) : Move → Pool σ α
  | .spawn => ⟨p.world, p.threads ++ [code p.threads.length]⟩
  | .advance i =>
    match p.threads[i]? with
    | some (.read next) => ⟨p.world, p.threads.set i (next p.world.now)⟩
    | some (.write update next) => ⟨p.world.commit i update, p.threads.set i (next p.world.now)⟩
    | _ => p

/-- The pool after a whole schedule. -/
def play (code : Nat → Resumption σ α) (p : Pool σ α) (schedule : List Move) : Pool σ α :=
  schedule.foldl (move code) p

/-- A program that moves takes one step of a run, or none. -/
theorem moved_run (code : Nat → Resumption σ α) (allow : Nat → Pool σ α → Prop) (p : Pool σ α)
    (i : Nat) : Run code allow p (move code p (.advance i)) := by
  simp only [move]
  split
  · rename_i next h
    exact .single (.read h)
  · rename_i update next h
    exact .single (.write h)
  · exact .refl

theorem move_run (code : Nat → Resumption σ α) (p : Pool σ α) (m : Move) :
    Run code (fun _ _ => True) p (move code p m) := by
  cases m with
  | spawn => exact .single (.spawn trivial)
  | advance i => exact moved_run code _ p i

/-- A schedule with everything allowed plays a run. -/
theorem play_run (code : Nat → Resumption σ α) :
    ∀ (schedule : List Move) (p : Pool σ α),
      Run code (fun _ _ => True) p (play code p schedule) := by
  intro schedule
  induction schedule with
  | nil => intro p; exact .refl
  | cons m rest ih => intro p; exact (move_run code p m).trans (ih _)

/-- A schedule that starts nothing plays a run, whatever may be started. -/
theorem advance_run (code : Nat → Resumption σ α) (allow : Nat → Pool σ α → Prop) :
    ∀ (is : List Nat) (p : Pool σ α), Run code allow p (play code p (is.map .advance)) := by
  intro is
  induction is with
  | nil => intro p; exact .refl
  | cons i rest ih => intro p; exact (moved_run code allow p i).trans (ih _)

/-- A program that may be started is, and then programs move. -/
theorem spawn_run {code : Nat → Resumption σ α} {allow : Nat → Pool σ α → Prop} {p : Pool σ α}
    (h : allow p.threads.length p) (is : List Nat) :
    Run code allow p (play code p (.spawn :: is.map .advance)) :=
  .head (.spawn h) (advance_run code allow is _)

end Pool

/-! ### Contracts -/

/-- What the programs of a pool promise each other. -/
structure Contract (σ : Type) where
  /-- Holds of every world of the run. -/
  inv : World σ → Prop
  /-- What the others may do to the world while program `i` waits. -/
  rely : Nat → World σ → World σ → Prop
  /-- What a write of program `i` may do. -/
  guar : Nat → World σ → World σ → Prop
  rely_refl : ∀ i w, rely i w w
  rely_trans : ∀ {i w₁ w₂ w₃}, rely i w₁ w₂ → rely i w₂ w₃ → rely i w₁ w₃
  inv_guar : ∀ {i w w'}, inv w → guar i w w' → inv w'
  rely_guar : ∀ {i j w w'}, i ≠ j → inv w → guar j w w' → rely i w w'

namespace Contract

variable {σ α β ε : Type} (C : Contract σ) (i : Nat)

/--
Program `i`, resumed in a world that followed `w`, makes only writes the contract
guarantees, and its answer satisfies `Q`.
-/
def Keeps (Q : α → World σ → Prop) : Resumption σ α → World σ → Prop
  | .done a, w => ∀ w', C.rely i w w' → C.inv w' → Q a w'
  | .read next, w => ∀ w', C.rely i w w' → C.inv w' → Keeps Q (next w'.now) w'
  | .write update next, w => ∀ w', C.rely i w w' → C.inv w' →
      C.guar i w' (w'.commit i update) ∧ Keeps Q (next w'.now) (w'.commit i update)

variable {C i}

/-- What the others do in the meantime does not break a program's contract. -/
theorem Keeps.rely {Q : α → World σ → Prop} {p : Resumption σ α} {w w' : World σ}
    (h : C.Keeps i Q p w) (hw : C.rely i w w') : C.Keeps i Q p w' := by
  cases p with
  | done a => intro w'' hr hinv; exact h w'' (C.rely_trans hw hr) hinv
  | read next => intro w'' hr hinv; exact h w'' (C.rely_trans hw hr) hinv
  | write update next => intro w'' hr hinv; exact h w'' (C.rely_trans hw hr) hinv

/-- A contract may be checked where the program is next resumed. -/
theorem Keeps.of_resumed {Q : α → World σ → Prop} {p : Resumption σ α} {w : World σ}
    (h : ∀ w', C.rely i w w' → C.inv w' → C.Keeps i Q p w') : C.Keeps i Q p w := by
  cases p with
  | done a => intro w' hr hinv; exact h w' hr hinv w' (C.rely_refl i w') hinv
  | read next => intro w' hr hinv; exact h w' hr hinv w' (C.rely_refl i w') hinv
  | write update next => intro w' hr hinv; exact h w' hr hinv w' (C.rely_refl i w') hinv

theorem Keeps.bind {Q : β → World σ → Prop} {p : Resumption σ α} {f : α → Resumption σ β} :
    ∀ {w : World σ}, C.Keeps i (fun a w' => C.Keeps i Q (f a) w') p w →
      C.Keeps i Q (p.bind f) w := by
  induction p with
  | done a => intro w h; exact Keeps.of_resumed h
  | read next ih => intro w h w' hr hinv; exact ih _ (h w' hr hinv)
  | write update next ih =>
      intro w h w' hr hinv
      exact ⟨(h w' hr hinv).1, ih _ (h w' hr hinv).2⟩

/-! ### One rule per way of building a program -/

/-- The contract of a program that may fail. -/
def KeepsF (C : Contract σ) (i : Nat) (Q : Except ε α → World σ → Prop)
    (p : Fallible ε σ α) (w : World σ) : Prop :=
  C.Keeps i Q (ExceptT.run p) w

theorem KeepsF.of_resumed {Q : Except ε α → World σ → Prop} {p : Fallible ε σ α} {w : World σ}
    (h : ∀ w', C.rely i w w' → C.inv w' → C.KeepsF i Q p w') : C.KeepsF i Q p w :=
  Keeps.of_resumed (C := C) h

theorem keepsF_pure {Q : Except ε α → World σ → Prop} {a : α} {w : World σ}
    (h : ∀ w', C.rely i w w' → C.inv w' → Q (.ok a) w') :
    C.KeepsF i Q (pure a : Fallible ε σ α) w := h

theorem keepsF_throw {Q : Except ε α → World σ → Prop} {e : ε} {w : World σ}
    (h : ∀ w', C.rely i w w' → C.inv w' → Q (.error e) w') :
    C.KeepsF i Q (throw e : Fallible ε σ α) w := h

/-- A sequence keeps its contract when the first half leads to a second half that does. -/
theorem keepsF_bind {Q : Except ε β → World σ → Prop} {p : Fallible ε σ α}
    {f : α → Fallible ε σ β} {w : World σ}
    (h : C.KeepsF i (fun r w' => match r with
      | .ok a => C.KeepsF i Q (f a) w'
      | .error e => Q (.error e) w') p w) : C.KeepsF i Q (p >>= f) w := by
  refine Keeps.bind (C := C) (p := ExceptT.run p) ?_
  have hmono : ∀ (q : Resumption σ (Except ε α)) (w : World σ),
      C.Keeps i (fun r w' => match r with
        | .ok a => C.KeepsF i Q (f a) w'
        | .error e => Q (.error e) w') q w →
      C.Keeps i (fun r w' => C.Keeps i Q (ExceptT.bindCont f r) w') q w := by
    intro q
    induction q with
    | done r =>
        intro w h w' hr hinv
        cases r with
        | ok a => exact h w' hr hinv
        | error e => intro w'' hr' hinv'; exact h w'' (C.rely_trans hr hr') hinv'
    | read next ih => intro w h w' hr hinv; exact ih _ _ (h w' hr hinv)
    | write update next ih =>
        intro w h w' hr hinv
        exact ⟨(h w' hr hinv).1, ih _ _ (h w' hr hinv).2⟩
  exact hmono _ _ h

theorem keepsF_query_bind {Q : Except ε β → World σ → Prop} {g : σ → α}
    {f : α → Fallible ε σ β} {w : World σ}
    (h : ∀ w', C.rely i w w' → C.inv w' → C.KeepsF i Q (f (g w'.now)) w') :
    C.KeepsF i Q (Fallible.query g >>= f) w := h

/-- A write of the program: the contract covers it, and the rest goes on from there. -/
theorem keepsF_attempt_bind {Q : Except ε β → World σ → Prop} {g : σ → Except ε (α × σ)}
    {f : α → Fallible ε σ β} {w : World σ}
    (hok : ∀ w' a s', C.rely i w w' → C.inv w' → g w'.now = .ok (a, s') →
      C.guar i w' (w'.commit i fun _ => s') ∧ C.KeepsF i Q (f a) (w'.commit i fun _ => s'))
    (herr : ∀ w' e, C.rely i w w' → C.inv w' → g w'.now = .error e →
      C.guar i w' (w'.commit i id) ∧
        C.KeepsF i Q (throw e : Fallible ε σ β) (w'.commit i id)) :
    C.KeepsF i Q (Fallible.attempt g >>= f) w := by
  intro w' hr hinv
  have hcommit : ∀ s', Fallible.settle g w'.now = s' →
      w'.commit i (Fallible.settle g) = w'.commit i fun _ => s' := by
    rintro s' rfl
    rfl
  cases hg : g w'.now with
  | error e =>
      have hs : Fallible.settle g w'.now = w'.now := by simp only [Fallible.settle, hg]
      have hid : w'.commit i (Fallible.settle g) = w'.commit i id := hcommit _ hs
      obtain ⟨hguar, hrest⟩ := herr w' e hr hinv hg
      rw [hid]
      refine ⟨hguar, ?_⟩
      simp only [hg]
      exact hrest
  | ok r =>
      obtain ⟨a, s'⟩ := r
      have hs : Fallible.settle g w'.now = s' := by simp only [Fallible.settle, hg]
      obtain ⟨hguar, hrest⟩ := hok w' a s' hr hinv hg
      rw [hcommit s' hs]
      refine ⟨hguar, ?_⟩
      simp only [hg]
      exact hrest

/-- A first half that only reads can be passed over, with any answer it may give. -/
theorem keepsF_readOnly_bind {Q : Except ε β → World σ → Prop} {P : α → Prop}
    {p : Fallible ε σ α} {f : α → Fallible ε σ β} {w : World σ} (hp : Fallible.ReadOnly p)
    (ha : Fallible.Answers P p)
    (hok : ∀ a w', P a → C.rely i w w' → C.inv w' → C.KeepsF i Q (f a) w')
    (herr : ∀ e w', C.rely i w w' → C.inv w' → Q (.error e) w') :
    C.KeepsF i Q (p >>= f) w := by
  refine keepsF_bind ?_
  have hgen : ∀ (q : Resumption σ (Except ε α)) (w₁ : World σ), q.ReadOnly →
      q.Answers (fun r => ∀ a, r = .ok a → P a) → C.rely i w w₁ →
      C.Keeps i (fun r w' => match r with
        | .ok a => C.KeepsF i Q (f a) w'
        | .error e => Q (.error e) w') q w₁ := by
    intro q
    induction q with
    | done r =>
        intro w₁ _ hans h₁ w' hr hinv
        cases r with
        | ok a => exact hok a w' (hans a rfl) (C.rely_trans h₁ hr) hinv
        | error e => exact herr e w' (C.rely_trans h₁ hr) hinv
    | read next ih =>
        intro w₁ hro hans h₁ w' hr hinv
        exact ih _ w' (hro _) (hans _) (C.rely_trans h₁ hr)
    | write update next _ => intro w₁ hro; exact hro.elim
  exact hgen _ w hp ha (C.rely_refl i w)

/--
A program whose writes are all covered keeps its contract.  What the others and
its own writes leave true holds of its answer too.
-/
theorem keepsF_of_writes {R : σ → σ → Prop} {P : α → Prop} {S : World σ → Prop}
    {Q : Except ε α → World σ → Prop} {p : Fallible ε σ α} (hp : Fallible.Writes R p)
    (ha : Fallible.Answers P p) (hrely : ∀ w w', C.rely i w w' → S w → S w')
    (hwrite : ∀ w update, C.inv w → S w → R w.now (update w.now) →
      C.guar i w (w.commit i update) ∧ S (w.commit i update))
    (hQ : ∀ r w, (∀ a, r = .ok a → P a) → S w → Q r w) :
    ∀ w, S w → C.KeepsF i Q p w := by
  have hgen : ∀ q : Resumption σ (Except ε α), q.Writes R →
      q.Answers (fun r => ∀ a, r = .ok a → P a) → ∀ w, S w → C.Keeps i Q q w := by
    intro q
    induction q with
    | done r => intro _ hans w hs w' hr _; exact hQ r w' hans (hrely w w' hr hs)
    | read next ih =>
        intro hwrites hans w hs w' hr _
        exact ih _ (hwrites _) (hans _) w' (hrely w w' hr hs)
    | write update next ih =>
        intro hwrites hans w hs w' hr hinv
        obtain ⟨hguar, hs'⟩ := hwrite w' update hinv (hrely w w' hr hs) (hwrites w'.now).1
        exact ⟨hguar, ih _ (hwrites w'.now).2 (hans _) _ hs'⟩
  exact hgen _ hp ha

/-! ### From the programs to the pool -/

/-- The invariant holds and every program left in the pool keeps its contract. -/
structure PoolOk (C : Contract σ) (Q : Nat → α → World σ → Prop) (p : Pool σ α) : Prop where
  inv : C.inv p.world
  /-- Only a program that was started has made commits. -/
  started : ∀ c ∈ p.world.log, c.who < p.threads.length
  keeps : ∀ i c, p.threads[i]? = some c → C.Keeps i (Q i) c p.world

theorem PoolOk.finished {Q : Nat → α → World σ → Prop} {p : Pool σ α} (h : PoolOk C Q p)
    {i : Nat} {a : α} (hi : p.Finished i a) : Q i a p.world :=
  h.keeps i _ hi p.world (C.rely_refl i _) h.inv

/-- A program that is about to be started has made no commit. -/
theorem PoolOk.fresh {Q : Nat → α → World σ → Prop} {p : Pool σ α} (h : PoolOk C Q p) :
    p.world.Fresh p.threads.length := by
  intro c hc hwho
  have hlt := h.started c hc
  omega

theorem PoolOk.step {Q : Nat → α → World σ → Prop} {code : Nat → Resumption σ α}
    {allow : Nat → Pool σ α → Prop}
    (hspawn : ∀ p, PoolOk C Q p → allow p.threads.length p →
      C.Keeps p.threads.length (Q p.threads.length) (code p.threads.length) p.world)
    {p q : Pool σ α} (h : PoolOk C Q p) (hstep : Pool.Step code allow p q) : PoolOk C Q q := by
  cases hstep with
  | spawn hallow =>
      refine ⟨h.inv, ?_, Pool.forall_concat h.keeps (hspawn p h hallow)⟩
      intro c hc
      have hlt : c.who < p.threads.length := h.started c hc
      show c.who < (p.threads ++ [_]).length
      rw [List.length_append]
      omega
  | @read i next hi =>
      refine ⟨h.inv, ?_, Pool.forall_set (fun j d _ hd => h.keeps j d hd) ?_⟩
      · show ∀ c ∈ p.world.log, c.who < (p.threads.set i _).length
        rw [List.length_set]
        exact h.started
      · exact h.keeps i _ hi p.world (C.rely_refl i _) h.inv
  | @write i update next hi =>
      obtain ⟨hguar, hrest⟩ := h.keeps i _ hi p.world (C.rely_refl i _) h.inv
      refine ⟨C.inv_guar h.inv hguar, ?_, Pool.forall_set ?_ hrest⟩
      · intro c hc
        show c.who < (p.threads.set i _).length
        rw [List.length_set]
        rcases List.mem_append.mp hc with hc | hc
        · exact h.started c hc
        · obtain rfl : c = ⟨i, p.world.now, update p.world.now⟩ := by simpa using hc
          exact (List.getElem?_eq_some_iff.mp hi).1
      · intro j d hj hd
        exact (h.keeps j d hd).rely (C.rely_guar hj h.inv hguar)

/-- **Programs that keep their contracts one by one keep them in every interleaving.** -/
theorem run_ok {Q : Nat → α → World σ → Prop} {code : Nat → Resumption σ α}
    {allow : Nat → Pool σ α → Prop} {s : σ} (hinit : C.inv ⟨s, []⟩)
    (hspawn : ∀ p, PoolOk C Q p → allow p.threads.length p →
      C.Keeps p.threads.length (Q p.threads.length) (code p.threads.length) p.world)
    {p : Pool σ α} (hrun : Pool.Run code allow (Pool.start s) p) : PoolOk C Q p := by
  induction hrun with
  | refl => exact ⟨hinit, by simp [Pool.start], by intro i c hc; simp [Pool.start] at hc⟩
  | tail _ hstep ih => exact ih.step hspawn hstep

end Contract
