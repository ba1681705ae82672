/-
A pool whose programs remember their steps.

A program acts on what it read some steps ago, and the state may have moved on
since.  To relate a write to the reads before it, a `Watch` keeps next to a pool
what every program remembers: the states it took its steps in, the latest first.
Every commit is kept with the memory of the program that made it.

All of that is ghost state, as the log is.  A watched run is a run of the pool
with a commentary, and every run of the pool has one.

`Guarded` is what a program promises along its own text, whatever it reads: a
write happens only where its memory justifies it.  Nothing is said about the
other programs, so the promise carries over to the pool without a contract.
-/
import Numu.Lib.Pool

/-- One step as a program remembers it. -/
inductive Glance (σ : Type) where
  | read (s : σ)
  | write (s t : σ)

/-- The state the step was taken in. -/
def Glance.state {σ : Type} : Glance σ → σ
  | .read s => s
  | .write s _ => s

/-- A commit, and what the program that made it remembered before. -/
structure Sighting (σ : Type) extends Commit σ where
  memory : List (Glance σ)

/-! ### Programs whose writes are justified -/

namespace Resumption

variable {σ α β : Type}

/--
Resumed with this memory, the program writes only what `W` justifies by its
memory, and its answer and the memory it ends with satisfy `Q`.
-/
def Guarded (W : List (Glance σ) → σ → σ → Prop) (Q : α → List (Glance σ) → Prop) :
    Resumption σ α → List (Glance σ) → Prop
  | done a, m => Q a m
  | read next, m => ∀ s, Guarded W Q (next s) (.read s :: m)
  | write update next, m => ∀ s, W m s (update s) ∧
      Guarded W Q (next s) (.write s (update s) :: m)

variable {W : List (Glance σ) → σ → σ → Prop}

theorem Guarded.weaken {Q Q' : α → List (Glance σ) → Prop} {p : Resumption σ α}
    (h : ∀ a m, Q a m → Q' a m) : ∀ {m}, p.Guarded W Q m → p.Guarded W Q' m := by
  induction p with
  | done a => intro m hp; exact h a m hp
  | read next ih => intro m hp s; exact ih s (hp s)
  | write update next ih => intro m hp s; exact ⟨(hp s).1, ih s (hp s).2⟩

theorem Guarded.bind {Q : β → List (Glance σ) → Prop} {p : Resumption σ α}
    {f : α → Resumption σ β} :
    ∀ {m}, p.Guarded W (fun a m' => (f a).Guarded W Q m') m → (p.bind f).Guarded W Q m := by
  induction p with
  | done a => intro m hp; exact hp
  | read next ih => intro m hp s; exact ih s (hp s)
  | write update next ih => intro m hp s; exact ⟨(hp s).1, ih s (hp s).2⟩

/-- A program without writes only adds to its memory. -/
theorem ReadOnly.guarded {P : α → Prop} {p : Resumption σ α} (hp : p.ReadOnly)
    (ha : p.Answers P) :
    ∀ m, p.Guarded W (fun a m' => P a ∧ m <:+ m') m := by
  induction p with
  | done a => intro m; exact ⟨ha, List.suffix_refl m⟩
  | read next ih =>
      intro m s
      refine (ih s (hp s) (ha s) _).weaken fun a m' h => ⟨h.1, ?_⟩
      exact (List.suffix_cons _ m).trans h.2
  | write update next _ => exact hp.elim

/-- Writes that need no justification. -/
theorem Writes.guarded {R : σ → σ → Prop} {p : Resumption σ α} (hp : p.Writes R)
    (hW : ∀ m s t, R s t → W m s t) : ∀ m, p.Guarded W (fun _ _ => True) m := by
  induction p with
  | done a => intro m; trivial
  | read next ih => intro m s; exact ih s (hp s) _
  | write update next ih => intro m s; exact ⟨hW m s _ (hp s).1, ih s (hp s).2 _⟩

/-- A write is the last step of the program, and `P` relates it to the answer. -/
def WritesLast (P : σ → σ → α → Prop) : Resumption σ α → Prop
  | done _ => True
  | read next => ∀ s, (next s).WritesLast P
  | write update next => ∀ s, ∃ a, next s = done a ∧ P s (update s) a

end Resumption

namespace Fallible

variable {ε σ α β : Type}

/-- The promise of a program that may fail; nothing is promised of its errors. -/
def Guarded (W : List (Glance σ) → σ → σ → Prop) (Q : α → List (Glance σ) → Prop)
    (p : Fallible ε σ α) (m : List (Glance σ)) : Prop :=
  Resumption.Guarded W (fun (r : Except ε α) m' => ∀ a, r = .ok a → Q a m') (ExceptT.run p) m

variable {W : List (Glance σ) → σ → σ → Prop} {Q : β → List (Glance σ) → Prop}
  {m : List (Glance σ)}

theorem guarded_pure {Q : α → List (Glance σ) → Prop} {a : α} (h : Q a m) :
    Guarded W Q (pure a : Fallible ε σ α) m := by
  intro b hb
  obtain rfl := Except.ok.inj hb
  exact h

theorem guarded_throw {Q : α → List (Glance σ) → Prop} (e : ε) :
    Guarded W Q (throw e : Fallible ε σ α) m := by
  intro a ha
  cases ha

theorem guarded_weaken {Q Q' : α → List (Glance σ) → Prop} {p : Fallible ε σ α}
    (hp : Guarded W Q p m) (h : ∀ a m', Q a m' → Q' a m') : Guarded W Q' p m :=
  Resumption.Guarded.weaken (p := ExceptT.run p) (fun _ m' hr a ha => h a m' (hr a ha)) hp

theorem guarded_bind {p : Fallible ε σ α} {f : α → Fallible ε σ β}
    (hp : Guarded W (fun a m' => Guarded W Q (f a) m') p m) : Guarded W Q (p >>= f) m := by
  refine Resumption.Guarded.bind (p := ExceptT.run p) ?_
  refine Resumption.Guarded.weaken (p := ExceptT.run p) (fun r m' hr => ?_) hp
  cases r with
  | ok a => exact hr a rfl
  | error e => intro a ha; cases ha

theorem guarded_query_bind {g : σ → α} {f : α → Fallible ε σ β}
    (h : ∀ s, Guarded W Q (f (g s)) (.read s :: m)) : Guarded W Q (query g >>= f) m := h

theorem guarded_check_bind {r : Except ε α} {f : α → Fallible ε σ β}
    (h : ∀ a, r = .ok a → Guarded W Q (f a) m) : Guarded W Q (check r >>= f) m := by
  refine guarded_bind ?_
  intro a ha
  exact h a ha

theorem guarded_ensure {Q : Unit → List (Glance σ) → Prop} {c : Bool} {e : ε}
    (h : c = true → Q () m) : Guarded W Q (ensure c e : Fallible ε σ Unit) m := by
  cases c with
  | true => exact guarded_pure (h rfl)
  | false => exact guarded_throw e

theorem guarded_ensure_bind {c : Bool} {e : ε} {f : Unit → Fallible ε σ β}
    (h : c = true → Guarded W Q (f ()) m) : Guarded W Q (ensure c e >>= f) m := by
  cases c with
  | true => exact h rfl
  | false => exact guarded_bind (guarded_throw e)

theorem guarded_getOr_bind {o : Option α} {e : ε} {f : α → Fallible ε σ β}
    (h : ∀ a, o = some a → Guarded W Q (f a) m) : Guarded W Q (getOr o e >>= f) m := by
  cases o with
  | some a => exact h a rfl
  | none => exact guarded_bind (guarded_throw e)

/-- A write is justified where it succeeds, and where it fails it must be allowed to do nothing. -/
theorem guarded_attempt_bind {g : σ → Except ε (α × σ)} {f : α → Fallible ε σ β}
    (hok : ∀ s a t, g s = .ok (a, t) → W m s t ∧ Guarded W Q (f a) (.write s t :: m))
    (herr : ∀ s e, g s = .error e → W m s s) : Guarded W Q (attempt g >>= f) m := by
  refine guarded_bind ?_
  intro s
  show W m s (settle g s) ∧
    ∀ a, (g s).map Prod.fst = .ok a → Guarded W Q (f a) (.write s (settle g s) :: m)
  unfold settle
  cases hg : g s with
  | error e =>
      refine ⟨herr s e hg, ?_⟩
      intro a ha
      cases ha
  | ok r =>
      obtain ⟨a, t⟩ := r
      obtain ⟨hW, hrest⟩ := hok s a t hg
      refine ⟨hW, ?_⟩
      intro a' ha'
      obtain rfl := Except.ok.inj ha'
      exact hrest

/-- A first half that only reads adds to the memory and hands over what it may answer. -/
theorem guarded_readOnly_bind {P : α → Prop} {p : Fallible ε σ α} {f : α → Fallible ε σ β}
    (hp : ReadOnly p) (ha : Answers P p)
    (h : ∀ a m', P a → m <:+ m' → Guarded W Q (f a) m') : Guarded W Q (p >>= f) m := by
  refine guarded_bind ?_
  refine Resumption.Guarded.weaken (p := ExceptT.run p) ?_ (Resumption.ReadOnly.guarded hp ha m)
  intro r m' hr a hra
  exact h a m' (hr.1 a hra) hr.2

/-- Writes that need no justification. -/
theorem guarded_of_writes {R : σ → σ → Prop} {p : Fallible ε σ α} (hp : Writes R p)
    (hW : ∀ m s t, R s t → W m s t) (m : List (Glance σ)) :
    Guarded W (fun _ _ => True) p m :=
  Resumption.Guarded.weaken (p := ExceptT.run p) (fun _ _ _ _ _ => trivial)
    (Resumption.Writes.guarded hp hW m)

end Fallible

/-! ### The watched pool -/

/-- A pool, what its programs remember, and its commits with the memories behind them. -/
structure Watch (σ α : Type) where
  pool : Pool σ α
  memory : Nat → List (Glance σ)
  sightings : List (Sighting σ)

namespace Watch

variable {σ α : Type}

/-- Nothing has been started. -/
def start (s : σ) : Watch σ α := ⟨Pool.start s, fun _ => [], []⟩

/-- The memories after program `i` took a step. -/
def remember (w : Watch σ α) (i : Nat) (g : Glance σ) : Nat → List (Glance σ) := fun j =>
  if j = i then g :: w.memory i else w.memory j

theorem remember_self (w : Watch σ α) (i : Nat) (g : Glance σ) :
    w.remember i g i = g :: w.memory i := if_pos rfl

theorem remember_other (w : Watch σ α) {i j : Nat} (g : Glance σ) (h : j ≠ i) :
    w.remember i g j = w.memory j := if_neg h

/-- One step of the pool, watched. -/
inductive Step (code : Nat → Resumption σ α) : Watch σ α → Watch σ α → Prop
  | spawn {w : Watch σ α} :
      Step code w ⟨⟨w.pool.world, w.pool.threads ++ [code w.pool.threads.length]⟩, w.memory,
        w.sightings⟩
  | read {w : Watch σ α} {i : Nat} {next : σ → Resumption σ α}
      (h : w.pool.threads[i]? = some (.read next)) :
      Step code w ⟨⟨w.pool.world, w.pool.threads.set i (next w.pool.world.now)⟩,
        w.remember i (.read w.pool.world.now), w.sightings⟩
  | write {w : Watch σ α} {i : Nat} {update : σ → σ} {next : σ → Resumption σ α}
      (h : w.pool.threads[i]? = some (.write update next)) :
      Step code w ⟨⟨w.pool.world.commit i update, w.pool.threads.set i (next w.pool.world.now)⟩,
        w.remember i (.write w.pool.world.now (update w.pool.world.now)),
        w.sightings ++ [⟨⟨i, w.pool.world.now, update w.pool.world.now⟩, w.memory i⟩]⟩

/-- Any number of steps. -/
abbrev Run (code : Nat → Resumption σ α) : Watch σ α → Watch σ α → Prop :=
  Relation.ReflTransGen (Step code)

variable {code : Nat → Resumption σ α} {s : σ} {w : Watch σ α}

/-- A watched run is a run of the pool. -/
theorem Run.pool (hrun : Run code (start s) w) :
    Pool.Run code (fun _ _ => True) (Pool.start s) w.pool := by
  induction hrun with
  | refl => exact .refl
  | tail _ hstep ih =>
      cases hstep with
      | spawn => exact ih.tail (.spawn trivial)
      | read h => exact ih.tail (.read h)
      | write h => exact ih.tail (.write h)

/-- Every run of the pool can be watched. -/
theorem exists_run {p : Pool σ α} (hrun : Pool.Run code (fun _ _ => True) (Pool.start s) p) :
    ∃ w, Run code (start s) w ∧ w.pool = p := by
  induction hrun with
  | refl => exact ⟨start s, .refl, rfl⟩
  | tail _ hstep ih =>
      obtain ⟨w, hw, rfl⟩ := ih
      cases hstep with
      | spawn _ => exact ⟨_, hw.tail .spawn, rfl⟩
      | read h => exact ⟨_, hw.tail (.read h), rfl⟩
      | write h => exact ⟨_, hw.tail (.write h), rfl⟩

/-- The sightings are the commits of the log. -/
theorem Run.log (hrun : Run code (start s) w) :
    w.pool.world.log = w.sightings.map Sighting.toCommit := by
  induction hrun with
  | refl => rfl
  | tail _ hstep ih =>
      cases hstep with
      | spawn => exact ih
      | read _ => exact ih
      | write _ =>
          rw [List.map_append, ← ih]
          rfl

/-- A program that was not started remembers nothing. -/
theorem Run.unstarted (hrun : Run code (start s) w) :
    ∀ i, w.pool.threads.length ≤ i → w.memory i = [] := by
  induction hrun with
  | refl => intro i _; rfl
  | @tail v _ _ hstep ih =>
      intro i hi
      have hmoved : ∀ {j : Nat} {c : Resumption σ α} {d : Resumption σ α} (g : Glance σ),
          v.pool.threads[j]? = some c → (v.pool.threads.set j d).length ≤ i →
          v.remember j g i = [] := by
        intro j c d g hj hle
        rw [List.length_set] at hle
        have hlt := (List.getElem?_eq_some_iff.mp hj).1
        rw [remember_other v g (by omega)]
        exact ih i hle
      cases hstep with
      | spawn =>
          refine ih i ?_
          have hlen : (v.pool.threads ++ [code v.pool.threads.length]).length ≤ i := hi
          rw [List.length_append] at hlen
          omega
      | read h => exact hmoved _ h hi
      | write h => exact hmoved _ h hi

/-- A write that a program remembers was sighted, with what the program remembered before. -/
theorem Run.sighted (hrun : Run code (start s) w) {i : Nat} {a b : σ} {m : List (Glance σ)}
    (h : Glance.write a b :: m <:+ w.memory i) : ⟨⟨i, a, b⟩, m⟩ ∈ w.sightings := by
  induction hrun with
  | refl => simp [start] at h
  | @tail v _ _ hstep ih =>
      cases hstep with
      | spawn => exact ih h
      | @read j next hj =>
          have hmem : Glance.write a b :: m <:+ v.remember j (.read v.pool.world.now) i := h
          by_cases hij : i = j
          · subst hij
            rw [remember_self, List.suffix_cons_iff] at hmem
            rcases hmem with hc | hmem
            · cases hc
            · exact ih hmem
          · rw [remember_other v _ hij] at hmem
            exact ih hmem
      | @write j update next hj =>
          have hmem : Glance.write a b :: m <:+
              v.remember j (.write v.pool.world.now (update v.pool.world.now)) i := h
          by_cases hij : i = j
          · subst hij
            rw [remember_self, List.suffix_cons_iff] at hmem
            rcases hmem with hc | hmem
            · obtain ⟨hwrite, rfl⟩ := List.cons.inj hc
              obtain ⟨rfl, rfl⟩ := Glance.write.inj hwrite
              exact List.mem_append.mpr (Or.inr (List.mem_singleton.mpr rfl))
            · exact List.mem_append.mpr (Or.inl (ih hmem))
          · rw [remember_other v _ hij] at hmem
            exact List.mem_append.mpr (Or.inl (ih hmem))

/-- Every program left in the pool keeps its promise, and every commit so far was justified. -/
structure Justified (W : Nat → List (Glance σ) → σ → σ → Prop)
    (Q : Nat → α → List (Glance σ) → Prop) (w : Watch σ α) : Prop where
  threads : ∀ (i : Nat) (c : Resumption σ α), w.pool.threads[i]? = some c →
    c.Guarded (W i) (Q i) (w.memory i)
  commits : ∀ c ∈ w.sightings, W c.who c.memory c.before c.after

/-- When a program moves, it has what its new memory asks of it and the others what they had. -/
theorem Justified.moved {W : Nat → List (Glance σ) → σ → σ → Prop}
    {Q : Nat → α → List (Glance σ) → Prop} (h : Justified W Q w) {i : Nat} {g : Glance σ}
    {c : Resumption σ α} (hc : c.Guarded (W i) (Q i) (g :: w.memory i)) :
    ∀ (j : Nat) (d : Resumption σ α), (w.pool.threads.set i c)[j]? = some d →
      d.Guarded (W j) (Q j) (w.remember i g j) := by
  refine Pool.forall_set ?_ ?_
  · intro j d hj hd
    show d.Guarded (W j) (Q j) (w.remember i g j)
    rw [remember_other w g hj]
    exact h.threads j d hd
  · show Resumption.Guarded (W i) (Q i) c (w.remember i g i)
    rw [remember_self]
    exact hc

/-- **Programs that keep their promise one by one make only justified commits together.** -/
theorem Run.justified {W : Nat → List (Glance σ) → σ → σ → Prop}
    {Q : Nat → α → List (Glance σ) → Prop} (hcode : ∀ n, (code n).Guarded (W n) (Q n) [])
    (hrun : Run code (start s) w) : Justified W Q w := by
  induction hrun with
  | refl => exact ⟨by simp [start, Pool.start], by simp [start]⟩
  | @tail v u hv hstep ih =>
      cases hstep with
      | spawn =>
          refine ⟨Pool.forall_concat ih.threads ?_, ih.commits⟩
          have hnew := hcode v.pool.threads.length
          rwa [← Run.unstarted hv _ (Nat.le_refl _)] at hnew
      | @read i next hi =>
          exact ⟨ih.moved (ih.threads i _ hi v.pool.world.now), ih.commits⟩
      | @write i update next hi =>
          obtain ⟨hW, hrest⟩ := ih.threads i _ hi v.pool.world.now
          refine ⟨ih.moved hrest, ?_⟩
          intro c hc
          rcases List.mem_append.mp hc with hc | hc
          · exact ih.commits c hc
          · obtain rfl := List.mem_singleton.mp hc
            exact hW

theorem Justified.finished {W : Nat → List (Glance σ) → σ → σ → Prop}
    {Q : Nat → α → List (Glance σ) → Prop} (h : Justified W Q w) {i : Nat} {a : α}
    (hi : w.pool.Finished i a) : Q i a (w.memory i) := h.threads i _ hi

/-- A program whose write is its last step has answered as soon as it has written. -/
theorem Run.answered {P : σ → σ → α → Prop} {i : Nat} (hcode : (code i).WritesLast P)
    (hrun : Run code (start s) w) :
    ∀ c ∈ w.sightings, c.who = i → ∃ a, w.pool.Finished i a ∧ P c.before c.after a := by
  suffices hall : (∀ j d, w.pool.threads[j]? = some d → j = i → d.WritesLast P) ∧
      ∀ c ∈ w.sightings, c.who = i → ∃ a, w.pool.Finished i a ∧ P c.before c.after a from hall.2
  induction hrun with
  | refl => exact ⟨by simp [start, Pool.start], by simp [start]⟩
  | @tail v u _ hstep ih =>
      obtain ⟨hthreads, hsighted⟩ := ih
      -- The answer of a finished program stays when a program that is not finished moves.
      have hkept : ∀ {j : Nat} {c d : Resumption σ α} {a : α}, v.pool.threads[j]? = some c →
          (∀ a, c ≠ .done a) → v.pool.Finished i a →
          (v.pool.threads.set j d)[i]? = some (.done a) := by
        intro j c d a hj hc hfinished
        have hne : j ≠ i := by
          rintro rfl
          exact hc a (Option.some.inj (hj.symm.trans hfinished))
        rw [List.getElem?_set_ne hne]
        exact hfinished
      cases hstep with
      | spawn =>
          refine ⟨Pool.forall_concat hthreads (fun hi => hi ▸ hcode), fun c hc hwho => ?_⟩
          obtain ⟨a, hfinished, hP⟩ := hsighted c hc hwho
          refine ⟨a, ?_, hP⟩
          show (v.pool.threads ++ [code v.pool.threads.length])[i]? = some (.done a)
          rw [List.getElem?_append_left (List.getElem?_eq_some_iff.mp hfinished).1]
          exact hfinished
      | @read j next hj =>
          refine ⟨Pool.forall_set (fun k d _ hd => hthreads k d hd) fun hi =>
            hthreads j _ hj hi v.pool.world.now, fun c hc hwho => ?_⟩
          obtain ⟨a, hfinished, hP⟩ := hsighted c hc hwho
          exact ⟨a, hkept hj (fun a hc => by cases hc) hfinished, hP⟩
      | @write j update next hj =>
          refine ⟨Pool.forall_set (fun k d _ hd => hthreads k d hd) fun hi => ?_,
            fun c hc hwho => ?_⟩
          · obtain ⟨a, hdone, -⟩ := hthreads j _ hj hi v.pool.world.now
            rw [hdone]
            trivial
          rcases List.mem_append.mp hc with hc | hc
          · obtain ⟨a, hfinished, hP⟩ := hsighted c hc hwho
            exact ⟨a, hkept hj (fun a hc => by cases hc) hfinished, hP⟩
          · obtain rfl := List.mem_singleton.mp hc
            obtain rfl : j = i := hwho
            obtain ⟨a, hdone, hP⟩ := hthreads j _ hj rfl v.pool.world.now
            refine ⟨a, ?_, hP⟩
            show (v.pool.threads.set j (next v.pool.world.now))[j]? = some (.done a)
            rw [hdone, List.getElem?_set_self (List.getElem?_eq_some_iff.mp hj).1]

/-! ### Playing a given schedule -/

/-- The watched pool after one decision; one that cannot be followed changes nothing. -/
def move (code : Nat → Resumption σ α) (w : Watch σ α) : Pool.Move → Watch σ α
  | .spawn => ⟨⟨w.pool.world, w.pool.threads ++ [code w.pool.threads.length]⟩, w.memory,
      w.sightings⟩
  | .advance i =>
    match w.pool.threads[i]? with
    | some (.read next) =>
      ⟨⟨w.pool.world, w.pool.threads.set i (next w.pool.world.now)⟩,
        w.remember i (.read w.pool.world.now), w.sightings⟩
    | some (.write update next) =>
      ⟨⟨w.pool.world.commit i update, w.pool.threads.set i (next w.pool.world.now)⟩,
        w.remember i (.write w.pool.world.now (update w.pool.world.now)),
        w.sightings ++ [⟨⟨i, w.pool.world.now, update w.pool.world.now⟩, w.memory i⟩]⟩
    | _ => w

/-- The watched pool after a whole schedule. -/
def play (code : Nat → Resumption σ α) (w : Watch σ α) (schedule : List Pool.Move) : Watch σ α :=
  schedule.foldl (move code) w

theorem move_run (code : Nat → Resumption σ α) (w : Watch σ α) (m : Pool.Move) :
    Run code w (move code w m) := by
  cases m with
  | spawn => exact .single .spawn
  | advance i =>
      simp only [move]
      split
      · rename_i next h
        exact .single (.read h)
      · rename_i update next h
        exact .single (.write h)
      · exact .refl

/-- A schedule plays a run. -/
theorem play_run (code : Nat → Resumption σ α) :
    ∀ (schedule : List Pool.Move) (w : Watch σ α), Run code w (play code w schedule) := by
  intro schedule
  induction schedule with
  | nil => intro w; exact .refl
  | cons m rest ih => intro w; exact (move_run code w m).trans (ih _)

end Watch
