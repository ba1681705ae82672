/-
Logins among each other.

A login looks its identity up and, when there is none, mints an actor and links it
in one transaction.  Two first logins of one identity can both find nothing.  The
key of the identities lets one of the transactions through and undoes the other,
actor and all, so an actor is never stored without the identity it was minted for
and an identity never changes its actor.
-/
import Numu.Proofs.Versions

namespace Numu

open Fallible Handler Contract

/-- A call of `upsertIdentity`. -/
structure Login where
  env : Ambient := {}
  provider : String
  sub : String
  email : Option String := none
  name : String := ""

namespace Login

def key (l : Login) : String × String := (l.provider, l.sub)

/-- The id of the actor it would mint. -/
def minted (l : Login) : String := "USR_" ++ l.env.uuid

def handle (l : Login) : Handler String :=
  upsertIdentity l.env l.provider l.sub l.email l.name

/-- Its transaction. -/
def tx (l : Login) : Stmt Unit := loginTx l.minted l.provider l.sub l.name l.email l.env.now

/-- The row it would link its actor with. -/
def identity (l : Login) : AuthIdentity := ⟨l.provider, l.sub, l.minted, l.email⟩

end Login

/-- The programs of some logins. -/
def loginCalls (ls : Nat → Login) (n : Nat) : Resumption Store (Except AppError String) :=
  ExceptT.run (ls n).handle

/-- The actor linked to an identity. -/
def Store.linkedActor (s : Store) (key : String × String) : Option String :=
  (s.authIdentities.find? key).map AuthIdentity.actorId

/-- The minted ids are new and distinct, in a store where every identity names an entity. -/
structure FreshLogins (s₀ : Store) (ls : Nat → Login) : Prop where
  referenced : ∀ a ∈ s₀.authIdentities, s₀.entities.has a.actorId = true
  unused : ∀ n, s₀.entities.has (ls n).minted = false
  distinct : ∀ m n, (ls m).minted = (ls n).minted → m = n

/-! ### One transaction -/

section Tx

variable {l : Login} {u : Unit} {s t : Store}

theorem Login.has_tx (h : l.tx s = .ok (u, t)) {x : String} :
    t.entities.has x = true ↔ s.entities.has x = true ∨ l.minted = x := by
  obtain ⟨ents, rows, ids, hents, -, -, -, rfl⟩ := loginTx_ok h
  exact Table.has_insert hents

theorem Login.mem_tx (h : l.tx s = .ok (u, t)) {a : AuthIdentity} :
    a ∈ t.authIdentities ↔ a ∈ s.authIdentities ∨ a = l.identity := by
  obtain ⟨ents, rows, ids, -, -, -, hids, rfl⟩ := loginTx_ok h
  exact Table.mem_insert hids

/-- It links its own identity, which had no actor, and leaves the others. -/
theorem Login.linkedActor_tx (h : l.tx s = .ok (u, t)) (key : String × String) :
    t.linkedActor key = if l.key = key then some l.minted else s.linkedActor key := by
  obtain ⟨ents, rows, ids, -, -, -, hids, rfl⟩ := loginTx_ok h
  have hfind : ids.find? key = if l.key = key then some l.identity
      else s.authIdentities.find? key := Table.find?_insert hids key
  show (ids.find? key).map AuthIdentity.actorId = _
  rw [hfind]
  by_cases hkey : l.key = key
  · rw [if_pos hkey, if_pos hkey]
    rfl
  · rw [if_neg hkey, if_neg hkey]
    rfl

theorem Login.unlinked_of_tx (h : l.tx s = .ok (u, t)) : s.linkedActor l.key = none := by
  obtain ⟨ents, rows, ids, -, -, -, hids, rfl⟩ := loginTx_ok h
  have hfree : s.authIdentities.find? l.key = none :=
    Table.has_eq_false.mp (Table.insert_eq_some hids).1
  unfold Store.linkedActor
  rw [hfree]
  rfl

end Tx

/-! ### What every moment keeps -/

/-- Identities name entities, and an actor that was minted is linked to the identity it was minted
for and to no other. -/
structure LoginsOk (s₀ : Store) (ls : Nat → Login) (s : Store) : Prop where
  referenced : ∀ a ∈ s.authIdentities, s.entities.has a.actorId = true
  linked : ∀ x, s.entities.has x = true →
    s₀.entities.has x = true ∨ ∃ a ∈ s.authIdentities, a.actorId = x
  own : ∀ a ∈ s.authIdentities, ∀ n, a.actorId = (ls n).minted → a.key = (ls n).key

section Ok

variable {s₀ s t : Store} {ls : Nat → Login} {i : Nat} {u : Unit}

theorem FreshLogins.ok (h : FreshLogins s₀ ls) : LoginsOk s₀ ls s₀ where
  referenced := h.referenced
  linked := fun _ hx => Or.inl hx
  own := by
    intro a ha n hn
    have hused := h.referenced a ha
    rw [hn, h.unused n] at hused
    simp at hused

theorem LoginsOk.tx (hfresh : FreshLogins s₀ ls) (h : LoginsOk s₀ ls s)
    (htx : (ls i).tx s = .ok (u, t)) : LoginsOk s₀ ls t where
  referenced := by
    intro a ha
    rcases (Login.mem_tx htx).mp ha with hold | rfl
    · exact (Login.has_tx htx).mpr (Or.inl (h.referenced a hold))
    · exact (Login.has_tx htx).mpr (Or.inr rfl)
  linked := by
    intro x hx
    rcases (Login.has_tx htx).mp hx with hold | hnew
    · rcases h.linked x hold with hstart | ⟨a, ha, hactor⟩
      · exact Or.inl hstart
      · exact Or.inr ⟨a, (Login.mem_tx htx).mpr (Or.inl ha), hactor⟩
    · exact Or.inr ⟨(ls i).identity, (Login.mem_tx htx).mpr (Or.inr rfl), hnew⟩
  own := by
    intro a ha n hn
    rcases (Login.mem_tx htx).mp ha with hold | rfl
    · exact h.own a hold n hn
    · rw [← hfresh.distinct i n hn]
      rfl

/-- A minted actor is the one linked to its identity. -/
theorem LoginsOk.linkedActor (hfresh : FreshLogins s₀ ls) (h : LoginsOk s₀ ls s) {n : Nat}
    (hn : s.entities.has (ls n).minted = true) :
    s.linkedActor (ls n).key = some (ls n).minted := by
  rcases h.linked _ hn with hstart | ⟨a, ha, hactor⟩
  · rw [hfresh.unused n] at hstart
    simp at hstart
  · have hrow : s.authIdentities.find? (ls n).key = some a :=
      Table.find?_eq_some.mpr ⟨ha, h.own a ha n hactor⟩
    unfold Store.linkedActor
    rw [hrow, Option.map_some, hactor]

/-- An actor that is linked to an identity was minted for no other. -/
theorem LoginsOk.key_eq (h : LoginsOk s₀ ls s) {n : Nat} {key : String × String}
    (hlinked : s.linkedActor key = some (ls n).minted) : key = (ls n).key := by
  obtain ⟨a, hfind, hactor⟩ := Option.map_eq_some_iff.mp hlinked
  obtain ⟨hmem, hkey⟩ := Table.find?_eq_some.mp hfind
  exact hkey.symm.trans (h.own a hmem n hactor)

end Ok

/-! ### The contract of a login -/

section Calls

variable {s₀ : Store} {ls : Nat → Login}

/-- A login commits nothing, or its transaction; the others keep identities and mint other ids. -/
def loginContract (hfresh : FreshLogins s₀ ls) : Contract Store where
  inv w := LoginsOk s₀ ls w.now ∧
    ∀ n, w.now.entities.has (ls n).minted = true → ∃ c ∈ w.log, c.who = n
  rely i w w' := (∀ key a, w.now.linkedActor key = some a → w'.now.linkedActor key = some a) ∧
    (w.now.entities.has (ls i).minted = false → w'.now.entities.has (ls i).minted = false)
  guar i w w' := w'.log = w.log ++ [⟨i, w.now, w'.now⟩] ∧
    (w'.now = w.now ∨ (ls i).tx w.now = .ok ((), w'.now))
  rely_refl _ _ := ⟨fun _ _ h => h, fun h => h⟩
  rely_trans h₁ h₂ := ⟨fun key a h => h₂.1 key a (h₁.1 key a h), fun h => h₂.2 (h₁.2 h)⟩
  inv_guar := by
    intro i w w' hinv hguar
    obtain ⟨hlog, hcommit⟩ := hguar
    have hkept : ∀ n, w.now.entities.has (ls n).minted = true → ∃ c ∈ w'.log, c.who = n := by
      intro n hn
      obtain ⟨c, hc, hwho⟩ := hinv.2 n hn
      exact ⟨c, hlog ▸ List.mem_append.mpr (Or.inl hc), hwho⟩
    rcases hcommit with hsame | htx
    · rw [hsame]
      exact ⟨hinv.1, hkept⟩
    · refine ⟨hinv.1.tx hfresh htx, fun n hn => ?_⟩
      rcases (Login.has_tx htx).mp hn with hold | hnew
      · exact hkept n hold
      · rw [hlog]
        exact ⟨_, List.mem_append.mpr (Or.inr List.mem_cons_self), hfresh.distinct i n hnew⟩
  rely_guar := by
    intro i j w w' hij hinv hguar
    rcases hguar.2 with hsame | htx
    · rw [hsame]
      exact ⟨fun _ _ h => h, fun h => h⟩
    · refine ⟨fun key a h => ?_, fun hnone => ?_⟩
      · have hkey : (ls j).key ≠ key := by
          intro hc
          rw [← hc, Login.unlinked_of_tx htx] at h
          simp at h
        rw [Login.linkedActor_tx htx, if_neg hkey]
        exact h
      · rw [← Bool.not_eq_true, Login.has_tx htx]
        rintro (hold | hnew)
        · rw [hnone] at hold
          simp at hold
        · exact hij (hfresh.distinct j i hnew).symm

/-- A login answers with the actor linked to its identity, or fails and has minted none. -/
def LoginAnswer (l : Login) (r : Except AppError String) (w : World Store) : Prop :=
  match r with
  | .ok actorId => w.now.linkedActor l.key = some actorId
  | .error _ => w.now.entities.has l.minted = false

theorem keepsF_login (hfresh : FreshLogins s₀ ls) {i : Nat} {w : World Store}
    (hnone : w.now.entities.has (ls i).minted = false) :
    (loginContract hfresh).KeepsF i (LoginAnswer (ls i)) (ls i).handle w := by
  unfold Login.handle upsertIdentity
  refine keepsF_query_bind ?_
  intro w₁ hr₁ hinv₁
  cases hfound : (w₁.now.authIdentities.find? ((ls i).provider, (ls i).sub)).map
      AuthIdentity.actorId with
  | some actorId =>
      refine keepsF_pure fun w₂ hr₂ _ => ?_
      exact hr₂.1 _ _ hfound
  | none =>
      refine keepsF_execute_bind ?_ ?_
      · intro w₂ u t hr₂ _ htx
        have htx : (ls i).tx w₂.now = .ok ((), t) := htx
        refine ⟨⟨rfl, Or.inr htx⟩, keepsF_pure fun w₃ hr₃ _ => ?_⟩
        refine hr₃.1 _ _ ?_
        exact (Login.linkedActor_tx htx _).trans (if_pos rfl)
      · intro w₂ e hr₂ _ _
        refine ⟨⟨rfl, Or.inl rfl⟩, fun w₃ hr₃ _ => ?_⟩
        exact hr₃.2 (hr₂.2 (hr₁.2 hnone))

end Calls

/-- What logins leave of identities and actors, and what they answer. -/
structure IdentitiesSound (s₀ : Store) (ls : Nat → Login) (p : Pool Store (Except AppError String)) :
    Prop where
  oneIdentity : ∀ a ∈ p.world.now.authIdentities, ∀ b ∈ p.world.now.authIdentities,
    a.key = b.key → a = b
  oneActor : ∀ m n, (ls m).key = (ls n).key → p.world.now.entities.has (ls m).minted = true →
    p.world.now.entities.has (ls n).minted = true → m = n
  stable : ∀ m n a b, (ls m).key = (ls n).key → p.Finished m (.ok a) → p.Finished n (.ok b) → a = b
  separate : ∀ m n b, (ls m).key ≠ (ls n).key → p.Finished n (.ok b) → b ≠ (ls m).minted
  failed : ∀ n e, p.Finished n (.error e) → p.world.now.entities.has (ls n).minted = false
  linked : ∀ x, p.world.now.entities.has x = true → s₀.entities.has x = true ∨
    ∃ a ∈ p.world.now.authIdentities, a.actorId = x

/--
**A login identity is stable and unique.**  In every interleaving of any logins with fresh ids,
there is one identity and at most one minted actor for each provider and subject, logins of one
identity answer alike, those of different ones never share a minted actor, and no actor is left
without an identity.
-/
theorem login_identity_unique (s₀ : Store) (ls : Nat → Login) (hfresh : FreshLogins s₀ ls)
    (p : Pool Store (Except AppError String))
    (hrun : Pool.Run (loginCalls ls) (fun _ _ => True) (Pool.start s₀) p) :
    IdentitiesSound s₀ ls p := by
  have hinit : (loginContract hfresh).inv ⟨s₀, []⟩ := by
    refine ⟨hfresh.ok, fun n hn => ?_⟩
    rw [hfresh.unused n] at hn
    simp at hn
  have hpool : PoolOk (loginContract hfresh) (fun n => LoginAnswer (ls n)) p := by
    refine Contract.run_ok hinit (fun q hq _ => ?_) hrun
    refine keepsF_login hfresh ?_
    rw [← Bool.not_eq_true]
    intro hused
    obtain ⟨c, hc, hwho⟩ := hq.inv.2 _ hused
    exact hq.fresh c hc hwho
  have hok : LoginsOk s₀ ls p.world.now := hpool.inv.1
  have hanswer : ∀ n a, p.Finished n (.ok a) → p.world.now.linkedActor (ls n).key = some a :=
    fun n a hn => hpool.finished hn
  refine ⟨?_, ?_, ?_, ?_, fun n e hn => hpool.finished hn, hok.linked⟩
  · intro a ha b hb hkey
    exact List.inj_on_of_nodup_map p.world.now.authIdentities.nodup ha hb hkey
  · intro m n hkey hm hn
    have hlinked := hok.linkedActor hfresh hm
    rw [hkey, hok.linkedActor hfresh hn, Option.some.injEq] at hlinked
    exact hfresh.distinct m n hlinked.symm
  · intro m n a b hkey hm hn
    have hlinked := hanswer m a hm
    rw [hkey, hanswer n b hn, Option.some.injEq] at hlinked
    exact hlinked.symm
  · intro m n b hkey hn hshared
    have hlinked := hanswer n b hn
    rw [hshared] at hlinked
    exact hkey (hok.key_eq hlinked).symm

/-- Two first logins of one person, under two names, and more of another. -/
def raceLogins (n : Nat) : Login where
  env := { uuid := String.ofList (List.replicate n '0') }
  provider := if n < 2 then "google" else "github"
  sub := "s1"
  email := if n = 0 then none else some "ann@example.com"

theorem raceLogins_fresh : FreshLogins seededStore raceLogins where
  referenced := by
    intro a ha
    simp [seededStore, Table.mem_def, EmptyCollection.emptyCollection, Table.empty] at ha
  unused := by
    intro n
    refine Table.has_eq_false.mpr (Table.find?_eq_none.mpr fun e he hc => ?_)
    obtain rfl := List.mem_singleton.mp he
    -- The seeded actor's id goes on with a letter.
    have hchars := congrArg (fun id => id.toList.drop 4) hc
    have hd : 'd' ∈ List.replicate n '0' := by
      simp [Login.minted, raceLogins] at hchars
      rw [← hchars]
      exact List.mem_cons_self
    simp at hd
  distinct := by
    intro m n h
    have hlength := congrArg String.length h
    simpa [Login.minted, raceLogins] using hlength

/-- All look their identity up before any of them stores one. -/
def raced : Pool Store (Except AppError String) :=
  Pool.play (loginCalls raceLogins) (Pool.start seededStore)
    [.spawn, .spawn, .spawn, .advance 0, .advance 1, .advance 2, .advance 0, .advance 1, .advance 2]

/-- The second first login is refused, and leaves no actor behind. -/
theorem second_first_login_refused :
    raced.Finished 0 (.ok "USR_") ∧ (∃ e, raced.Finished 1 (.error e) ∧ e.status = 409) ∧
      raced.Finished 2 (.ok "USR_00") ∧ IdentitiesSound seededStore raceLogins raced :=
  ⟨rfl, ⟨_, rfl, rfl⟩, rfl, login_identity_unique seededStore raceLogins raceLogins_fresh raced
    (Pool.play_run _ _ _)⟩

end Numu
