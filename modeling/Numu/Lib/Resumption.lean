/-
Programs that run as a sequence of atomic steps on a shared state.

A request handler that talks to a database is neither a function of the database
nor a relation on it: it reads, thinks, reads again and writes, and between any
two of its statements another request may have its turn.  A `Resumption` keeps
that shape.  It is finished, or it is one atomic read or one atomic write away
from the rest of itself.

The same value has two readings.  `run` executes it alone, from one state to the
answer and the next state.  `Numu/Lib/Pool.lean` interleaves many of them, one
step at a time.  What is proved of the one program is then proved of the code in
both readings.

`Fallible` adds early exit with an error, which is what the `?` of the source
does, and the last section says which programs write nothing.
-/
import Mathlib.Tactic.Common

/-- A program over the shared state `σ`: finished, or one atomic step from the rest. -/
inductive Resumption (σ α : Type) : Type where
  /-- Finished with an answer. -/
  | done (a : α)
  /-- Look at the state and go on. -/
  | read (next : σ → Resumption σ α)
  /-- Replace the state and go on with what the state was. -/
  | write (update : σ → σ) (next : σ → Resumption σ α)

namespace Resumption

variable {σ α β γ : Type}

/-- Run one program, then the one its answer selects. -/
def bind : Resumption σ α → (α → Resumption σ β) → Resumption σ β
  | done a, f => f a
  | read next, f => read fun s => (next s).bind f
  | write update next, f => write update fun s => (next s).bind f

instance : Monad (Resumption σ) where
  pure := done
  bind := bind

/-- The program executed alone: its answer and the state it leaves. -/
def run : Resumption σ α → σ → α × σ
  | done a, s => (a, s)
  | read next, s => (next s).run s
  | write update next, s => (next s).run (update s)

theorem run_bind (p : Resumption σ α) (f : α → Resumption σ β) :
    ∀ s, (p.bind f).run s = (f (p.run s).1).run (p.run s).2 := by
  induction p with
  | done a => intro s; rfl
  | read next ih => intro s; exact ih s s
  | write update next ih => intro s; exact ih s (update s)

/-- No step of the program writes. -/
def ReadOnly : Resumption σ α → Prop
  | done _ => True
  | read next => ∀ s, (next s).ReadOnly
  | write _ _ => False

theorem ReadOnly.bind {p : Resumption σ α} {f : α → Resumption σ β} (hp : p.ReadOnly)
    (hf : ∀ a, (f a).ReadOnly) : (p.bind f).ReadOnly := by
  induction p with
  | done a => exact hf a
  | read next ih => intro s; exact ih s (hp s)
  | write update next _ => exact hp.elim

theorem ReadOnly.run_snd {p : Resumption σ α} (hp : p.ReadOnly) : ∀ s, (p.run s).2 = s := by
  induction p with
  | done a => intro s; rfl
  | read next ih => intro s; exact ih s (hp s) s
  | write update next _ => exact hp.elim

/-- Every write of the program, from whatever state, is one that `R` allows. -/
def Writes (R : σ → σ → Prop) : Resumption σ α → Prop
  | done _ => True
  | read next => ∀ s, (next s).Writes R
  | write update next => ∀ s, R s (update s) ∧ (next s).Writes R

theorem ReadOnly.writes {R : σ → σ → Prop} {p : Resumption σ α} (hp : p.ReadOnly) :
    p.Writes R := by
  induction p with
  | done a => trivial
  | read next ih => intro s; exact ih s (hp s)
  | write update next _ => exact hp.elim

theorem writes_of_forall {R : σ → σ → Prop} (h : ∀ s t, R s t) (p : Resumption σ α) :
    p.Writes R := by
  induction p with
  | done a => trivial
  | read next ih => intro s; exact ih s
  | write update next ih => intro s; exact ⟨h _ _, ih s⟩

theorem Writes.weaken {R S : σ → σ → Prop} {p : Resumption σ α} (hp : p.Writes R)
    (h : ∀ s t, R s t → S s t) : p.Writes S := by
  induction p with
  | done a => trivial
  | read next ih => intro s; exact ih s (hp s)
  | write update next ih => intro s; exact ⟨h _ _ (hp s).1, ih s (hp s).2⟩

theorem Writes.bind {R : σ → σ → Prop} {p : Resumption σ α} {f : α → Resumption σ β}
    (hp : p.Writes R) (hf : ∀ a, (f a).Writes R) : (p.bind f).Writes R := by
  induction p with
  | done a => exact hf a
  | read next ih => intro s; exact ih s (hp s)
  | write update next ih => intro s; exact ⟨(hp s).1, ih s (hp s).2⟩

/-- Every answer the program can give, whatever it reads on the way, satisfies `P`. -/
def Answers (P : α → Prop) : Resumption σ α → Prop
  | done a => P a
  | read next => ∀ s, (next s).Answers P
  | write _ next => ∀ s, (next s).Answers P

theorem Answers.weaken {P Q : α → Prop} {p : Resumption σ α} (hp : p.Answers P)
    (h : ∀ a, P a → Q a) : p.Answers Q := by
  induction p with
  | done a => exact h a hp
  | read next ih => intro s; exact ih s (hp s)
  | write update next ih => intro s; exact ih s (hp s)

/-- What a program answers is one of the answers it can give. -/
theorem Answers.run_fst {P : α → Prop} {p : Resumption σ α} (hp : p.Answers P) :
    ∀ s, P (p.run s).1 := by
  induction p with
  | done a => intro s; exact hp
  | read next ih => intro s; exact ih s (hp s) s
  | write update next ih => intro s; exact ih s (hp s) (update s)

theorem Answers.bind {P : α → Prop} {Q : β → Prop} {p : Resumption σ α} {f : α → Resumption σ β}
    (hp : p.Answers P) (hf : ∀ a, P a → (f a).Answers Q) : (p.bind f).Answers Q := by
  induction p with
  | done a => exact hf a hp
  | read next ih => intro s; exact ih s (hp s)
  | write update next ih => intro s; exact ih s (hp s)

end Resumption

/-- A program that may stop early with an error. -/
abbrev Fallible (ε σ : Type) : Type → Type := ExceptT ε (Resumption σ)

namespace Fallible

variable {ε σ α β : Type}

/-- Read something off the state; a read cannot fail. -/
def query (f : σ → α) : Fallible ε σ α :=
  ExceptT.mk (.read fun s => .done (.ok (f s)))

/-- The state an attempted write leaves: the old one when it fails. -/
def settle (f : σ → Except ε (α × σ)) (s : σ) : σ :=
  match f s with
  | .ok (_, s') => s'
  | .error _ => s

/-- One atomic write.  A write that fails changes nothing. -/
def attempt (f : σ → Except ε (α × σ)) : Fallible ε σ α :=
  ExceptT.mk (.write (settle f) fun s => .done ((f s).map Prod.fst))

/-- A computation that touches no state. -/
def check (r : Except ε α) : Fallible ε σ α := ExceptT.mk (.done r)

/-- Go on when the condition holds, stop with the error otherwise. -/
def ensure (c : Bool) (e : ε) : Fallible ε σ Unit := if c then pure () else throw e

/-- Run the program only under the condition. -/
def onlyIf (c : Prop) [Decidable c] (p : Fallible ε σ Unit) : Fallible ε σ Unit :=
  if c then p else pure ()

/-- The value of an option, or the error. -/
def getOr (o : Option α) (e : ε) : Fallible ε σ α :=
  match o with
  | some a => pure a
  | none => throw e

/-- The program executed alone. -/
def exec (p : Fallible ε σ α) (s : σ) : Except ε α × σ := Resumption.run (ExceptT.run p) s

/-! ### Executing a program alone -/

@[simp] theorem exec_pure (a : α) (s : σ) : exec (pure a : Fallible ε σ α) s = (.ok a, s) := rfl

@[simp] theorem exec_throw (e : ε) (s : σ) :
    exec (throw e : Fallible ε σ α) s = (.error e, s) := rfl

@[simp] theorem exec_query (f : σ → α) (s : σ) :
    exec (query f : Fallible ε σ α) s = (.ok (f s), s) := rfl

@[simp] theorem exec_check (r : Except ε α) (s : σ) :
    exec (check r : Fallible ε σ α) s = (r, s) := rfl

theorem exec_attempt (f : σ → Except ε (α × σ)) (s : σ) :
    exec (attempt f) s = ((f s).map Prod.fst, settle f s) := rfl

theorem exec_bind (p : Fallible ε σ α) (f : α → Fallible ε σ β) (s : σ) :
    exec (p >>= f) s =
      match exec p s with
      | (.ok a, s') => exec (f a) s'
      | (.error e, s') => (.error e, s') := by
  show Resumption.run (Resumption.bind (ExceptT.run p) _) s = _
  rw [Resumption.run_bind]
  unfold exec
  rcases h : Resumption.run (ExceptT.run p) s with ⟨r, s'⟩
  cases r with
  | ok a => rfl
  | error e => rfl

/-- A sequence succeeds exactly when both of its halves do. -/
theorem exec_bind_ok {p : Fallible ε σ α} {f : α → Fallible ε σ β} {s s' : σ} {b : β} :
    exec (p >>= f) s = (.ok b, s') ↔
      ∃ a t, exec p s = (.ok a, t) ∧ exec (f a) t = (.ok b, s') := by
  rw [exec_bind]
  rcases exec p s with ⟨r, t⟩
  cases r with
  | ok a => simp
  | error e => simp

/-- A sequence fails in its first half, or in its second after the first succeeded. -/
theorem exec_bind_error {p : Fallible ε σ α} {f : α → Fallible ε σ β} {s s' : σ} {e : ε} :
    exec (p >>= f) s = (.error e, s') ↔
      exec p s = (.error e, s') ∨
        ∃ a t, exec p s = (.ok a, t) ∧ exec (f a) t = (.error e, s') := by
  rw [exec_bind]
  rcases exec p s with ⟨r, t⟩
  cases r with
  | ok a => simp
  | error e => simp

theorem exec_ensure_ok {c : Bool} {e : ε} {s s' : σ} {u : Unit} :
    exec (ensure c e) s = (.ok u, s') ↔ c = true ∧ s' = s := by
  cases c <;> simp [ensure, eq_comm]

theorem exec_ensure_error {c : Bool} {e e' : ε} {s s' : σ} :
    exec (ensure c e) s = (.error e', s') ↔ c = false ∧ e' = e ∧ s' = s := by
  cases c <;> simp [ensure, eq_comm]

theorem exec_onlyIf_ok {c : Prop} [Decidable c] {p : Fallible ε σ Unit} {s s' : σ} {u : Unit} :
    exec (onlyIf c p) s = (.ok u, s') ↔
      (c ∧ exec p s = (.ok u, s')) ∨ (¬ c ∧ s' = s) := by
  by_cases h : c <;> simp [onlyIf, h, eq_comm]

theorem exec_getOr_ok {o : Option α} {e : ε} {s s' : σ} {a : α} :
    exec (getOr o e) s = (.ok a, s') ↔ o = some a ∧ s' = s := by
  cases o <;> simp [getOr, eq_comm]

theorem exec_getOr_some_bind (a : α) (e : ε) (f : α → Fallible ε σ β) (s : σ) :
    exec (getOr (some a) e >>= f) s = exec (f a) s := by
  rw [exec_bind]
  rfl

/-- A write that succeeded, and the state it left. -/
theorem exec_attempt_ok {f : σ → Except ε (α × σ)} {s s' : σ} {a : α} :
    exec (attempt f) s = (.ok a, s') ↔ f s = .ok (a, s') := by
  rw [exec_attempt]
  unfold settle
  rcases f s with e | ⟨b, t⟩ <;> simp [Except.map]

/-- A write that failed changed nothing. -/
theorem exec_attempt_error {f : σ → Except ε (α × σ)} {s s' : σ} {e : ε} :
    exec (attempt f) s = (.error e, s') ↔ f s = .error e ∧ s' = s := by
  rw [exec_attempt]
  unfold settle
  rcases f s with e | ⟨b, t⟩ <;> simp [Except.map, eq_comm]

/-! ### Programs that only read -/

/-- No step of the program writes. -/
def ReadOnly (p : Fallible ε σ α) : Prop := Resumption.ReadOnly (ExceptT.run p)

@[simp] theorem readOnly_pure (a : α) : ReadOnly (pure a : Fallible ε σ α) := trivial

@[simp] theorem readOnly_throw (e : ε) : ReadOnly (throw e : Fallible ε σ α) := trivial

@[simp] theorem readOnly_query (f : σ → α) : ReadOnly (query f : Fallible ε σ α) :=
  fun _ => trivial

@[simp] theorem readOnly_check (r : Except ε α) : ReadOnly (check r : Fallible ε σ α) :=
  trivial

@[simp] theorem readOnly_ensure (c : Bool) (e : ε) : ReadOnly (ensure c e : Fallible ε σ Unit) := by
  cases c <;> trivial

@[simp] theorem readOnly_getOr (o : Option α) (e : ε) : ReadOnly (getOr o e : Fallible ε σ α) := by
  cases o <;> trivial

theorem readOnly_bind {p : Fallible ε σ α} {f : α → Fallible ε σ β} (hp : ReadOnly p)
    (hf : ∀ a, ReadOnly (f a)) : ReadOnly (p >>= f) := by
  refine Resumption.ReadOnly.bind hp ?_
  intro r
  cases r with
  | ok a => exact hf a
  | error e => trivial

theorem readOnly_ite {c : Prop} [Decidable c] {p q : Fallible ε σ α} (hp : ReadOnly p)
    (hq : ReadOnly q) : ReadOnly (if c then p else q) := by
  split
  · exact hp
  · exact hq

theorem readOnly_onlyIf {c : Prop} [Decidable c] {p : Fallible ε σ Unit} (hp : ReadOnly p) :
    ReadOnly (onlyIf c p) := readOnly_ite hp (readOnly_pure _)

/-- A program that only reads leaves the state alone, whatever it answers. -/
theorem exec_snd_of_readOnly {p : Fallible ε σ α} (hp : ReadOnly p) {s s' : σ} {r : Except ε α}
    (h : exec p s = (r, s')) : s' = s := by
  have hrun := Resumption.ReadOnly.run_snd hp s
  have hs' : (exec p s).2 = s' := by rw [h]
  exact hs'.symm.trans hrun

/-- A first half that only reads fails on the spot, or hands over to the second half. -/
theorem exec_readOnly_bind {p : Fallible ε σ α} {f : α → Fallible ε σ β} (hp : ReadOnly p)
    (s : σ) :
    (∃ e, exec (p >>= f) s = (.error e, s)) ∨
      ∃ a, exec p s = (.ok a, s) ∧ exec (p >>= f) s = exec (f a) s := by
  rw [exec_bind]
  rcases hrun : exec p s with ⟨r, t⟩
  obtain rfl := exec_snd_of_readOnly hp hrun
  cases r with
  | ok a => exact Or.inr ⟨a, rfl, rfl⟩
  | error e => exact Or.inl ⟨e, rfl⟩

/-- The same, of a run that is given: it failed and nothing happened, or the second half ran. -/
theorem exec_readOnly_next {p : Fallible ε σ α} {f : α → Fallible ε σ β} {s s' : σ}
    {r : Except ε β} (hp : ReadOnly p) (h : exec (p >>= f) s = (r, s')) :
    ((∃ e, r = .error e) ∧ s' = s) ∨ ∃ a, exec p s = (.ok a, s) ∧ exec (f a) s = (r, s') := by
  rcases exec_readOnly_bind (f := f) hp s with ⟨e, hfail⟩ | ⟨a, ha, hrest⟩
  · rw [hfail] at h
    exact Or.inl ⟨⟨e, (congrArg Prod.fst h).symm⟩, (congrArg Prod.snd h).symm⟩
  · exact Or.inr ⟨a, ha, hrest.symm.trans h⟩

/-! ### What the writes of a program do -/

/-- Every write of the program, from whatever state, is one that `R` allows. -/
def Writes (R : σ → σ → Prop) (p : Fallible ε σ α) : Prop :=
  Resumption.Writes R (ExceptT.run p)

section Writes

variable {R : σ → σ → Prop}

theorem ReadOnly.writes {p : Fallible ε σ α} (hp : ReadOnly p) : Writes R p :=
  Resumption.ReadOnly.writes hp

theorem Writes.weaken {S : σ → σ → Prop} {p : Fallible ε σ α} (hp : Writes R p)
    (h : ∀ s t, R s t → S s t) : Writes S p :=
  Resumption.Writes.weaken hp h

theorem writes_bind {p : Fallible ε σ α} {f : α → Fallible ε σ β} (hp : Writes R p)
    (hf : ∀ a, Writes R (f a)) : Writes R (p >>= f) := by
  refine Resumption.Writes.bind hp ?_
  intro r
  cases r with
  | ok a => exact hf a
  | error e => trivial

/-- After a computation only its actual answer matters. -/
theorem writes_check_bind {r : Except ε α} {f : α → Fallible ε σ β}
    (hf : ∀ a, r = .ok a → Writes R (f a)) : Writes R (check r >>= f) := by
  cases r with
  | ok a => exact hf a rfl
  | error e => trivial

/-- And after a test only what it let through. -/
theorem writes_ensure_bind {c : Bool} {e : ε} {f : Unit → Fallible ε σ β}
    (hf : c = true → Writes R (f ())) : Writes R (ensure c e >>= f) := by
  cases c with
  | true => exact hf rfl
  | false => trivial

theorem writes_getOr_bind {o : Option α} {e : ε} {f : α → Fallible ε σ β}
    (hf : ∀ a, o = some a → Writes R (f a)) : Writes R (getOr o e >>= f) := by
  cases o with
  | some a => exact hf a rfl
  | none => trivial

theorem writes_attempt {f : σ → Except ε (α × σ)} (hf : ∀ s, R s (settle f s)) :
    Writes R (attempt f) := fun s => ⟨hf s, trivial⟩

theorem writes_onlyIf {c : Prop} [Decidable c] {p : Fallible ε σ Unit} (hp : Writes R p) :
    Writes R (onlyIf c p) := by
  unfold onlyIf
  split
  · exact hp
  · exact (readOnly_pure _).writes

end Writes

/-! ### What a program can answer -/

/-- Every success the program can answer with, whatever it reads, satisfies `P`. -/
def Answers (P : α → Prop) (p : Fallible ε σ α) : Prop :=
  Resumption.Answers (fun r : Except ε α => ∀ a, r = .ok a → P a) (ExceptT.run p)

section Answers

variable {P : α → Prop}

theorem answers_true (p : Fallible ε σ α) : Answers (fun _ => True) p := by
  unfold Answers
  induction ExceptT.run p with
  | done r => intro a _; trivial
  | read next ih => intro s; exact ih s
  | write update next ih => intro s; exact ih s

theorem answers_pure {a : α} (h : P a) : Answers P (pure a : Fallible ε σ α) := by
  intro b hb
  obtain rfl := Except.ok.inj hb
  exact h

theorem answers_check (r : Except ε α) :
    Answers (fun a => r = .ok a) (check r : Fallible ε σ α) := fun _ ha => ha

theorem answers_ensure (c : Bool) (e : ε) :
    Answers (fun _ => c = true) (ensure c e : Fallible ε σ Unit) := by
  cases c with
  | true => intro _ _; rfl
  | false => intro a ha; cases ha

theorem answers_getOr (o : Option α) (e : ε) :
    Answers (fun a => o = some a) (getOr o e : Fallible ε σ α) := by
  cases o with
  | some a => intro b hb; rw [Except.ok.inj hb]
  | none => intro a ha; cases ha

theorem answers_weaken {Q : α → Prop} {p : Fallible ε σ α} (hp : Answers P p)
    (h : ∀ a, P a → Q a) : Answers Q p :=
  Resumption.Answers.weaken (p := ExceptT.run p) hp fun _ hr a ha => h a (hr a ha)

theorem answers_ite {c : Prop} [Decidable c] {p q : Fallible ε σ α} (hp : Answers P p)
    (hq : Answers P q) : Answers P (if c then p else q) := by
  split
  · exact hp
  · exact hq

theorem answers_onlyIf {c : Prop} [Decidable c] {R : Prop} {p : Fallible ε σ Unit}
    (hp : Answers (fun _ => R) p) : Answers (fun _ => c → R) (onlyIf c p) := by
  by_cases hc : c
  · rw [onlyIf, if_pos hc]
    exact answers_weaken hp fun _ h _ => h
  · rw [onlyIf, if_neg hc]
    exact answers_pure fun h => absurd h hc

theorem answers_bind {Q : β → Prop} {p : Fallible ε σ α} {f : α → Fallible ε σ β}
    (hp : Answers P p) (hf : ∀ a, P a → Answers Q (f a)) : Answers Q (p >>= f) := by
  refine Resumption.Answers.bind hp ?_
  intro r hr
  cases r with
  | ok a => exact hf a (hr a rfl)
  | error e => intro a ha; cases ha

end Answers

/-! ### What a program can fail with -/

/-- Every error the program can stop with, whatever it reads, satisfies `P`. -/
def Raises (P : ε → Prop) (p : Fallible ε σ α) : Prop :=
  Resumption.Answers (fun r : Except ε α => ∀ e, r = .error e → P e) (ExceptT.run p)

section Raises

variable {P : ε → Prop}

theorem Raises.exec {p : Fallible ε σ α} (hp : Raises P p) {s s' : σ} {e : ε}
    (h : exec p s = (.error e, s')) : P e :=
  Resumption.Answers.run_fst hp s e (congrArg Prod.fst h)

theorem raises_pure (a : α) : Raises P (pure a : Fallible ε σ α) := by
  intro e he
  cases he

theorem raises_throw {e : ε} (h : P e) : Raises P (throw e : Fallible ε σ α) := by
  intro e' he'
  obtain rfl := Except.error.inj he'
  exact h

theorem raises_query (f : σ → α) : Raises P (query f : Fallible ε σ α) := by
  intro s e he
  cases he

theorem raises_check {r : Except ε α} (h : ∀ e, r = .error e → P e) :
    Raises P (check r : Fallible ε σ α) := h

theorem raises_attempt {f : σ → Except ε (α × σ)} (h : ∀ s e, f s = .error e → P e) :
    Raises P (attempt f) := by
  intro s e he
  cases hf : f s with
  | ok r =>
      rw [hf] at he
      cases he
  | error e' =>
      rw [hf] at he
      obtain rfl := Except.error.inj he
      exact h s _ hf

theorem raises_ensure {c : Bool} {e : ε} (h : c = false → P e) :
    Raises P (ensure c e : Fallible ε σ Unit) := by
  cases c with
  | true => exact raises_pure ()
  | false => exact raises_throw (h rfl)

theorem raises_ite {c : Prop} [Decidable c] {p q : Fallible ε σ α} (hp : Raises P p)
    (hq : Raises P q) : Raises P (if c then p else q) := by
  split
  · exact hp
  · exact hq

theorem raises_onlyIf {c : Prop} [Decidable c] {p : Fallible ε σ Unit} (hp : Raises P p) :
    Raises P (onlyIf c p) := raises_ite hp (raises_pure ())

theorem raises_bind {p : Fallible ε σ α} {f : α → Fallible ε σ β} (hp : Raises P p)
    (hf : ∀ a, Raises P (f a)) : Raises P (p >>= f) := by
  refine Resumption.Answers.bind hp ?_
  intro r hr
  cases r with
  | ok a => exact hf a
  | error e =>
      intro e' he'
      obtain rfl := Except.error.inj he'
      exact hr _ rfl

/-- A program that never fails and never writes answers, where it is. -/
theorem exec_of_readOnly {p : Fallible ε σ α} (hp : Raises (fun _ => False) p) (hro : ReadOnly p)
    (s : σ) : ∃ a, exec p s = (.ok a, s) := by
  obtain ⟨r, s', hrun⟩ : ∃ r s', exec p s = (r, s') := ⟨_, _, rfl⟩
  obtain rfl := exec_snd_of_readOnly hro hrun
  cases r with
  | ok a => exact ⟨a, hrun⟩
  | error e => exact (hp.exec hrun).elim

end Raises

/-! ### Programs that count their successes -/

/-- Executed alone the program raises the count by one where it succeeds, and leaves it where it
fails. -/
def Tallies (count : σ → Nat) (p : Fallible ε σ α) (s : σ) : Prop :=
  (∀ a t, exec p s = (.ok a, t) → count t = count s + 1) ∧
    ∀ e t, exec p s = (.error e, t) → count t = count s

section Tallies

variable {count : σ → Nat} {s : σ}

/-- What is only read is not counted. -/
theorem tallies_readOnly_bind {p : Fallible ε σ α} {f : α → Fallible ε σ β} (hp : ReadOnly p)
    (hf : ∀ a, exec p s = (.ok a, s) → Tallies count (f a) s) : Tallies count (p >>= f) s := by
  rcases exec_readOnly_bind (f := f) hp s with ⟨e, hfail⟩ | ⟨a, ha, hrest⟩
  · refine ⟨fun b t h => ?_, fun e' t h => ?_⟩
    · rw [hfail] at h
      simp at h
    · obtain ⟨-, rfl⟩ := Prod.mk.inj (hfail.symm.trans h)
      rfl
  · obtain ⟨hok, herr⟩ := hf a ha
    exact ⟨fun b t h => hok b t (hrest.symm.trans h), fun e t h => herr e t (hrest.symm.trans h)⟩

theorem tallies_query_bind {g : σ → α} {f : α → Fallible ε σ β} (hf : Tallies count (f (g s)) s) :
    Tallies count (query g >>= f) s := hf

theorem tallies_check_bind {r : Except ε α} {f : α → Fallible ε σ β}
    (hf : ∀ a, r = .ok a → Tallies count (f a) s) : Tallies count (check r >>= f) s :=
  tallies_readOnly_bind (readOnly_check r) fun a ha => hf a (congrArg Prod.fst ha)

theorem tallies_ensure_bind {c : Bool} {e : ε} {f : Unit → Fallible ε σ β}
    (hf : c = true → Tallies count (f ()) s) : Tallies count (ensure c e >>= f) s :=
  tallies_readOnly_bind (readOnly_ensure c e) fun _ h => hf (exec_ensure_ok.mp h).1

theorem tallies_getOr_bind {o : Option α} {e : ε} {f : α → Fallible ε σ β}
    (hf : ∀ a, o = some a → Tallies count (f a) s) : Tallies count (getOr o e >>= f) s :=
  tallies_readOnly_bind (readOnly_getOr o e) fun a h => hf a (exec_getOr_ok.mp h).1

/-- A write that is not counted. -/
theorem tallies_attempt_bind {g : σ → Except ε (α × σ)} {f : α → Fallible ε σ β}
    (hg : ∀ a t, g s = .ok (a, t) → count t = count s ∧ Tallies count (f a) t) :
    Tallies count (attempt g >>= f) s := by
  unfold Tallies
  simp only [exec_bind, exec_attempt, settle]
  cases hgs : g s with
  | error e =>
      refine ⟨fun b t h => ?_, fun e' t h => ?_⟩
      · simp [Except.map] at h
      · obtain ⟨-, rfl⟩ := Prod.mk.inj h
        rfl
  | ok r =>
      obtain ⟨hsame, hok, herr⟩ := hg r.1 r.2 hgs
      exact ⟨fun b t h => (hok b t h).trans (by rw [hsame]), fun e t h => (herr e t h).trans hsame⟩

/-- The write that is counted: nothing after it writes or fails. -/
theorem tallies_counted {g : σ → Except ε (α × σ)} {f : α → Fallible ε σ β} {a : α} {t : σ}
    (hg : g s = .ok (a, t)) (hcount : count t = count s + 1)
    (hf : ∃ b, exec (f a) t = (.ok b, t)) : Tallies count (attempt g >>= f) s := by
  obtain ⟨b, hb⟩ := hf
  have hrun : exec (attempt g >>= f) s = (.ok b, t) := by
    rw [exec_bind, exec_attempt_ok.mpr hg]
    exact hb
  refine ⟨fun b' t' h => ?_, fun e t' h => ?_⟩
  · obtain ⟨-, rfl⟩ := Prod.mk.inj (hrun.symm.trans h)
    exact hcount
  · rw [hrun] at h
    simp at h

end Tallies

/-! ### Programs that fail before they write -/

/-- Wherever `P` holds the program fails with one and the same error, and writes nothing. -/
def RefusesOn (P : σ → Prop) (p : Fallible ε σ α) : Prop :=
  ∃ e, ∀ s, P s → exec p s = (.error e, s)

section RefusesOn

variable {P : σ → Prop}

/-- A computation fails everywhere or nowhere, so only what follows it is left to look at. -/
theorem refusesOn_check_bind {r : Except ε α} {f : α → Fallible ε σ β}
    (hf : ∀ a, r = .ok a → RefusesOn P (f a)) : RefusesOn P (check r >>= f) := by
  cases hr : r with
  | error e => exact ⟨e, fun s _ => by rw [exec_bind, exec_check]⟩
  | ok a =>
      obtain ⟨e, he⟩ := hf a hr
      exact ⟨e, fun s hs => by rw [exec_bind, exec_check]; exact he s hs⟩

theorem refusesOn_ensure_bind {c : Bool} {e : ε} {f : Unit → Fallible ε σ β}
    (hf : c = true → RefusesOn P (f ())) : RefusesOn P (ensure c e >>= f) := by
  cases hc : c with
  | false => exact ⟨e, fun s _ => by rw [exec_bind]; rfl⟩
  | true =>
      obtain ⟨e', he'⟩ := hf hc
      exact ⟨e', fun s hs => by rw [exec_bind]; exact he' s hs⟩

theorem refusesOn_getOr_bind {o : Option α} {e : ε} {f : α → Fallible ε σ β}
    (hf : ∀ a, o = some a → RefusesOn P (f a)) : RefusesOn P (getOr o e >>= f) := by
  cases ho : o with
  | none => exact ⟨e, fun s _ => by rw [exec_bind]; rfl⟩
  | some a =>
      obtain ⟨e', he'⟩ := hf a ho
      exact ⟨e', fun s hs => by rw [exec_bind]; exact he' s hs⟩

end RefusesOn

/-! ### One program on two states -/

/-- The program answers alike on both states and writes on neither. -/
def AgreesOn (s t : σ) (p : Fallible ε σ α) : Prop := ∃ r, exec p s = (r, s) ∧ exec p t = (r, t)

section AgreesOn

variable {s t : σ}

theorem agreesOn_pure (a : α) : AgreesOn s t (pure a : Fallible ε σ α) := ⟨_, rfl, rfl⟩

theorem agreesOn_throw (e : ε) : AgreesOn s t (throw e : Fallible ε σ α) := ⟨_, rfl, rfl⟩

theorem agreesOn_check (r : Except ε α) : AgreesOn s t (check r : Fallible ε σ α) :=
  ⟨r, rfl, rfl⟩

theorem agreesOn_ensure (c : Bool) (e : ε) : AgreesOn s t (ensure c e : Fallible ε σ Unit) := by
  cases c with
  | true => exact ⟨_, rfl, rfl⟩
  | false => exact ⟨_, rfl, rfl⟩

theorem agreesOn_getOr (o : Option α) (e : ε) : AgreesOn s t (getOr o e : Fallible ε σ α) := by
  cases o with
  | some a => exact ⟨_, rfl, rfl⟩
  | none => exact ⟨_, rfl, rfl⟩

theorem agreesOn_query {f : σ → α} (h : f s = f t) : AgreesOn s t (query f : Fallible ε σ α) :=
  ⟨.ok (f s), rfl, by rw [exec_query, h]⟩

/-- A first half that agrees fails alike on both states, or hands over one answer on both. -/
theorem AgreesOn.bind_cases {p : Fallible ε σ α} (hp : AgreesOn s t p) (f : α → Fallible ε σ β) :
    (∃ e, exec (p >>= f) s = (.error e, s) ∧ exec (p >>= f) t = (.error e, t)) ∨
      ∃ a, exec p s = (.ok a, s) ∧ exec p t = (.ok a, t) ∧
        exec (p >>= f) s = exec (f a) s ∧ exec (p >>= f) t = exec (f a) t := by
  obtain ⟨r, hs, ht⟩ := hp
  rw [exec_bind, exec_bind, hs, ht]
  cases r with
  | error e => exact Or.inl ⟨e, rfl, rfl⟩
  | ok a => exact Or.inr ⟨a, rfl, rfl, rfl, rfl⟩

/-- What an agreeing program answers on one state it answers on the other. -/
theorem AgreesOn.transfer {p : Fallible ε σ α} (hp : AgreesOn s t p) {r : Except ε α}
    (h : exec p s = (r, s)) : exec p t = (r, t) := by
  obtain ⟨r', hs, ht⟩ := hp
  obtain rfl : r' = r := congrArg Prod.fst (hs.symm.trans h)
  exact ht

theorem agreesOn_bind {p : Fallible ε σ α} {f : α → Fallible ε σ β} (hp : AgreesOn s t p)
    (hf : ∀ a, AgreesOn s t (f a)) : AgreesOn s t (p >>= f) := by
  rcases hp.bind_cases f with ⟨e, hs, ht⟩ | ⟨a, -, -, hs, ht⟩
  · exact ⟨_, hs, ht⟩
  · obtain ⟨r, hs', ht'⟩ := hf a
    exact ⟨r, hs.trans hs', ht.trans ht'⟩

theorem agreesOn_ite {c : Prop} [Decidable c] {p q : Fallible ε σ α} (hp : AgreesOn s t p)
    (hq : AgreesOn s t q) : AgreesOn s t (if c then p else q) := by
  split
  · exact hp
  · exact hq

end AgreesOn

end Fallible
