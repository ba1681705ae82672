/-
What the audit log says, and who can never be in it.

Rows are only ever put at the end of the log, each by a request for the caller it was
given and under the ids of that request.  A row is never taken out or rewritten, but
for the entity it speaks of: when that entity is removed the row forgets its id.  So a
row of the log is evidence of a login: its actor was the caller of the request whose
ids it bears.

A release build compiles the dev login out.  What is left logs an actor in only for
the identity it was enrolled with, and enrols only what a provider vouched for, under
an id of its own making.  So whoever acts in a release was vouched for twice, by the
same provider for the same subject, and the seeded admin acts never.
-/
import Numu.Proofs.Changes

namespace Numu

open Fallible

variable {ρ : Type}

/-! ### The log -/

/-- A row of the log after some time: the entity it speaks of may be gone. -/
def EventRow.Aged (old new : EventRow) : Prop := new = old ∨ new = { old with entityId := none }

theorem EventRow.Aged.trans {a b c : EventRow} (hab : a.Aged b) (hbc : b.Aged c) : a.Aged c := by
  rcases hab with rfl | rfl
  · exact hbc
  · rcases hbc with rfl | rfl
    · exact Or.inr rfl
    · exact Or.inr rfl

theorem EventRow.Aged.isOf {a b : EventRow} {ctx : RequestCtx} {caller : Caller} (h : a.Aged b)
    (ha : a.IsOf ctx caller) : b.IsOf ctx caller := by
  rcases h with rfl | rfl
  · exact ha
  · exact ⟨ha.actor, ha.request, ha.trace⟩

/-- The log went on: every row is still in its place, and `P` holds of those behind. -/
inductive Continues (P : EventRow → Prop) : List EventRow → List EventRow → Prop
  | behind {new : List EventRow} (h : ∀ ev ∈ new, P ev) : Continues P [] new
  | kept {old new : EventRow} {before after : List EventRow} (aged : old.Aged new)
      (rest : Continues P before after) : Continues P (old :: before) (new :: after)

namespace Continues

variable {P Q : EventRow → Prop} {a b c : List EventRow}

theorem map (f : EventRow → EventRow) (hf : ∀ ev : EventRow, ev.Aged (f ev)) (l : List EventRow) :
    Continues P l (l.map f) := by
  induction l with
  | nil => exact .behind (by simp)
  | cons ev rest ih => exact .kept (hf ev) ih

theorem refl (l : List EventRow) : Continues P l l := by
  have h : Continues P l (l.map id) := map id (fun _ => Or.inl rfl) l
  rwa [List.map_id] at h

theorem append {new : List EventRow} (h : ∀ ev ∈ new, P ev) (l : List EventRow) :
    Continues P l (l ++ new) := by
  induction l with
  | nil => exact .behind h
  | cons ev rest ih => exact .kept (Or.inl rfl) ih

theorem mono (h : Continues P a b) (hpq : ∀ ev, P ev → Q ev) : Continues Q a b := by
  induction h with
  | behind h => exact .behind fun ev hev => hpq ev (h ev hev)
  | kept aged rest ih => exact .kept aged ih

/-- What holds of every row before holds of every row after, when it stays with age. -/
theorem forall_after (hP : ∀ old new : EventRow, old.Aged new → P old → P new)
    (h : Continues P a b) (ha : ∀ ev ∈ a, P ev) : ∀ ev ∈ b, P ev := by
  induction h with
  | behind h => exact h
  | kept aged rest ih =>
      rw [List.forall_mem_cons] at ha ⊢
      exact ⟨hP _ _ aged ha.1, ih ha.2⟩

theorem trans (hP : ∀ old new : EventRow, old.Aged new → P old → P new) (hab : Continues P a b)
    (hbc : Continues P b c) : Continues P a c := by
  induction hab generalizing c with
  | behind h => exact .behind (hbc.forall_after hP h)
  | kept aged rest ih =>
      cases hbc with
      | kept later rest' => exact .kept (aged.trans later) (ih rest')

end Continues

/-- Every statement goes on with the log. -/
theorem Store.Change.continues {P : EventRow → Prop} {E : AuthIdentity → Prop} {s t : Store}
    (h : s.Change P E t) : Continues P s.events t.events := by
  cases h with
  | logged of _ =>
      refine .append (fun ev hev => ?_) s.events
      obtain rfl := List.mem_singleton.mp hev
      exact of
  | @removed id =>
      refine .map _ (fun ev => ?_) s.events
      split
      · exact Or.inr rfl
      · exact Or.inl rfl
  | _ => exact .refl _

namespace Server

/-- The row is evidence of a login: one of the commits after `l₁` put it in, for a caller with a
login behind it and under the ids of its request. -/
def Audited (D : Deployment ρ) (reqs : Nat → Incoming) (log l₁ : List (Commit Server))
    (ev : EventRow) : Prop :=
  ∃ l c l' caller, log = l ++ c :: l' ∧ l₁ <+: l ∧ LoggedIn D reqs l c caller ∧
    ev.IsOf (requestCtx (reqs c.who).requestId (reqs c.who).draws) caller

theorem Audited.aged {D : Deployment ρ} {reqs : Nat → Incoming} {log l₁ : List (Commit Server)}
    (old new : EventRow) (h : old.Aged new) (hold : Audited D reqs log l₁ old) :
    Audited D reqs log l₁ new := by
  obtain ⟨l, c, l', caller, hsplit, hafter, hlogin, hof⟩ := hold
  exact ⟨l, c, l', caller, hsplit, hafter, hlogin, h.isOf hof⟩

/-- The actor was enrolled for the identity: a provider vouched for it, and the commit minted the
actor's id and put both in. -/
inductive Enrolled (D : Deployment ρ) (reqs : Nat → Incoming) (l : List (Commit Server))
    (key : String × String) (actorId : String) : Prop
  | intro {k k' : List (Commit Server)} {d : Commit Server} {p : Provider} {identity : Identity}
      (split : l = k ++ d :: k') (vouched : Vouched D (reqs d.who) p identity)
      (same : key = (p.name, identity.sub))
      (minted : actorId = "USR_" ++ (reqs d.who).draws.uuid.text)
      (missing : d.before.store.entities.has actorId = false)
      (there : d.after.store.entities.has actorId = true)

/-- An identity that was not there is that of a first login, and its actor was not there either. -/
theorem Wrote.enrols {D : Deployment ρ} {req : Incoming} {past : Server → Prop} {π π' : Server}
    (h : Wrote D req past π π') {a : AuthIdentity} (ha : a ∈ π'.store.authIdentities)
    (hnew : a ∉ π.store.authIdentities) : Enrols D req a ∧
      π.store.entities.has a.actorId = false ∧ π'.store.entities.has a.actorId = true := by
  generalize hs : π.store = s at *
  generalize ht : π'.store = t at *
  have hchange := hs ▸ ht ▸ h.change
  cases hchange with
  | enrolled entity data identity own of linked kind actor type parent =>
      rcases (Table.mem_insert identity).mp ha with hold | rfl
      · exact absurd hold hnew
      · rw [linked]
        refine ⟨of, ?_, ?_⟩
        · by_contra hhas
          rw [Table.insert_eq_none.mpr (by simpa using hhas)] at entity
          cases entity
        · exact (Table.has_insert entity).mpr (Or.inr rfl)
  | removed => exact absurd (Table.mem_filter.mp ha).1 hnew
  | _ => exact absurd ha hnew

section Runs

variable [LinearOrder ρ] {D : Deployment ρ} {reqs : Nat → Incoming}
  {p : Pool Server (Option HttpReply)} {l₁ l₂ : List (Commit Server)} {c : Commit Server}

/--
**The audit log is append-only, and its rows are evidence.**  In every interleaving of any
requests, and from every moment on: the rows of the log stay in their order, each as it was but for
an entity that is gone, and every row behind them was put in by a later commit for a caller with a
login of the last thirty days, with the request and trace ids of that caller's request.
-/
theorem audit_log_continues (hrun : Runs D reqs p) (hlog : p.world.log = l₁ ++ c :: l₂) :
    Continues (Audited D reqs p.world.log l₁) c.before.store.events p.world.now.store.events := by
  refine (Pool.Run.from hrun).since (R := fun π π' => Continues (Audited D reqs p.world.log l₁)
    π.store.events π'.store.events) (fun _ _ _ h h' => h.trans Audited.aged h') hlog ?_
  intro d hd
  obtain ⟨k, k', hsplit⟩ := List.append_of_mem hd
  have hd : p.world.log = (l₁ ++ k) ++ d :: k' := by rw [hlog, hsplit, List.append_assoc]
  refine (hrun.wrote hd).change.continues.mono ?_
  rintro ev ⟨caller, hknown, hof⟩
  exact ⟨_, d, _, caller, hd, List.prefix_append _ _, hrun.loggedIn hd hknown, hof⟩

/-! ### The identities -/

/-- Who is linked to an identity was enrolled for it. -/
theorem Runs.enrolled (hrun : Runs D reqs p) (hlog : p.world.log = l₁ ++ c :: l₂) {π : Server}
    (hπ : Earlier l₁ c π) {key : String × String} {actorId : String}
    (hlinked : π.store.linkedActor key = some actorId) : Enrolled D reqs l₁ key actorId := by
  obtain ⟨a, hfind, rfl⟩ := Option.map_eq_some_iff.mp hlinked
  obtain ⟨hmem, rfl⟩ := Table.find?_eq_some.mp hfind
  obtain ⟨l, ⟨rest, rfl⟩, hfrom⟩ := (Pool.Run.from hrun).earlier hlog hπ
  obtain ⟨k, d, k', hsplit, hbefore, hafter, -⟩ :=
    hfrom.gained (P := fun π => a ∈ π.store.authIdentities) List.not_mem_nil hmem
  have hsplit : l = k ++ d :: k' := hsplit
  subst hsplit
  have hd : p.world.log = k ++ d :: (k' ++ rest ++ c :: l₂) := by simp [hlog]
  obtain ⟨⟨p, identity, hvouched, rfl⟩, hmissing, hthere⟩ := (hrun.wrote hd).enrols hafter hbefore
  have hearlier : k ++ d :: k' ++ rest = k ++ d :: (k' ++ rest) := by simp
  exact .intro hearlier hvouched rfl rfl hmissing hthere

/-- No id that a login mints is the one of the seeded admin. -/
theorem minted_ne_dev (u : Uuid) : "USR_" ++ u.text ≠ "USR_dev" := by
  intro heq
  have hlength := congrArg String.length heq
  have huuid : u.text.length = 32 := by
    rw [Uuid.text, String.length_ofList, u.length]
  rw [String.length_append, huuid] at hlength
  exact absurd hlength (by decide)

/--
**In a release build every caller was vouched for, twice.**  In every interleaving of any requests
on a release build, whoever a commit is made for has a session that a provider vouched for, and is
the actor that was enrolled, under an id minted for it, when the same provider vouched for the same
subject before.  So it is never the seeded admin.
-/
theorem release_callers_enrolled (hrun : Runs D reqs p) (hrelease : D.release = true)
    (hlog : p.world.log = l₁ ++ c :: l₂) {caller : Caller} (h : LoggedIn D reqs l₁ c caller) :
    caller.actorId ≠ "USR_dev" ∧ ∃ k d k' provider identity, l₁ = k ++ d :: k' ∧
      insertSession ((reqs d.who).draws.session D.sha caller.actorId) d.before =
        .ok ((), d.after) ∧
      Vouched D (reqs d.who) provider identity ∧
      Enrolled D reqs k (provider.name, identity.sub) caller.actorId := by
  cases h with
  | @intro k k' d token π split login opened presented digest inTime moment role =>
      subst split
      have hd : p.world.log = k ++ d :: (k' ++ c :: l₂) := by simp [hlog]
      cases login with
      | dev debug =>
          rw [hrelease] at debug
          cases debug
      | @provider provider identity vouched linked =>
          obtain ⟨π, hπ, hlinked⟩ := linked
          have henrolled := hrun.enrolled hd hπ hlinked
          refine ⟨?_, k, d, k', provider, identity, rfl, opened, vouched, henrolled⟩
          obtain ⟨_, _, _, hminted, _, _⟩ := henrolled
          rw [hminted]
          exact minted_ne_dev _

end Runs

/-- The log in the evening has two rows more than before Ada created her project. -/
theorem ada_leaves_a_trail : ∃ l₁ c l₂, adasRun.world.log = l₁ ++ c :: l₂ ∧
    adasRun.world.now.store.events.length = 2 ∧
    Continues (Audited hosted adasDay adasRun.world.log l₁) c.before.store.events
      adasRun.world.now.store.events := by
  obtain ⟨l₁, c, l₂, hlog, -⟩ := adasRun_created
  exact ⟨l₁, c, l₂, hlog, adasRun_facts.2.2.2.2, audit_log_continues adasRun_runs hlog⟩

/-- Ada was enrolled and logged in on the word of the provider before she created her project. -/
theorem ada_enrolled : ∃ l₁ c l₂, adasRun.world.log = l₁ ++ c :: l₂ ∧
    LoggedIn hosted adasDay l₁ c ada ∧ ada.actorId ≠ "USR_dev" ∧
    ∃ k d k' provider identity, l₁ = k ++ d :: k' ∧
      insertSession ((adasDay d.who).draws.session hosted.sha ada.actorId) d.before =
        .ok ((), d.after) ∧
      Vouched hosted (adasDay d.who) provider identity ∧
      Enrolled hosted adasDay k (provider.name, identity.sub) ada.actorId := by
  obtain ⟨l₁, c, l₂, hlog, hwho, -, -, hcaller⟩ := adasRun_created
  have htoken : (adasDay 1).token = some (drawsOf (uuidOf 'a' rfl) adaToken).token := by
    decide +kernel
  have hlogin : LoggedIn hosted adasDay l₁ c ada := by
    rw [← hwho] at htoken hcaller
    exact adasRun_runs.loggedIn hlog ⟨_, c.before, htoken, Or.inl rfl, hcaller⟩
  exact ⟨l₁, c, l₂, hlog, hlogin, release_callers_enrolled adasRun_runs rfl hlog hlogin⟩

end Server

end Numu
