/-
How a recursive query is evaluated.

`with recursive t as (seed union recursive-term)` is not a fixpoint by decree but
a loop: the rows of the last round are the working table, the recursive term is
applied to them, and what it yields becomes the next working table, until a
round yields nothing.  With `union` a row already produced is discarded; with
`union all` every row is kept.

The recursive term joins the working table with ordinary tables, so it is given
here by what one working row yields.  `Turn` is one round of the loop, with the rows
in whatever order they come, and two things are wanted of it: that it cannot be taken
for ever, and that what it leaves is the closure of the seed.

The second holds of both kinds of query and for one reason, `Round`.  The first does
not.  With `union` the rows still missing from the result run out; with `union all`
nothing does, and the rows themselves must carry something that falls.

`union` and `unionAll` compute what the loop leaves, by a number of rounds that is
large enough.
-/
import Mathlib.Data.List.Dedup
import Mathlib.Logic.Relation

namespace WorkingTable

variable {α : Type}

/-- `b` is exactly `n` edges away from `a`. -/
def Hops (edge : α → α → Prop) : Nat → α → α → Prop
  | 0, a, b => a = b
  | n + 1, a, b => ∃ c, edge a c ∧ Hops edge n c b

theorem Hops.snoc {edge : α → α → Prop} {n : Nat} {a b c : α} (h : Hops edge n a b)
    (hbc : edge b c) : Hops edge (n + 1) a c := by
  induction n generalizing a with
  | zero =>
      obtain rfl : a = b := h
      exact ⟨c, hbc, rfl⟩
  | succ n ih =>
      obtain ⟨d, had, hdb⟩ := h
      exact ⟨d, had, ih hdb⟩

theorem Hops.reflTransGen {edge : α → α → Prop} {b : α} :
    ∀ {n : Nat} {a : α}, Hops edge n a b → Relation.ReflTransGen edge a b := by
  intro n
  induction n with
  | zero =>
      rintro a rfl
      exact .refl
  | succ n ih =>
      rintro a ⟨c, hac, hcb⟩
      exact .head hac (ih hcb)

/-- Reachable means some number of hops away. -/
theorem reflTransGen_iff_hops {edge : α → α → Prop} {a b : α} :
    Relation.ReflTransGen edge a b ↔ ∃ n, Hops edge n a b := by
  constructor
  · intro h
    induction h with
    | refl => exact ⟨0, rfl⟩
    | tail _ hbc ih =>
        obtain ⟨n, hn⟩ := ih
        exact ⟨n + 1, hn.snoc hbc⟩
  · rintro ⟨n, hn⟩
    exact hn.reflTransGen

/-- Walking the edges backwards takes the same number of hops. -/
theorem Hops.reverse {edge : α → α → Prop} {b : α} :
    ∀ {n : Nat} {a : α}, Hops edge n a b → Hops (fun x y => edge y x) n b a := by
  intro n
  induction n with
  | zero =>
      rintro a rfl
      exact rfl
  | succ n ih =>
      rintro a ⟨c, hac, hcb⟩
      have hrest : Hops (fun x y => edge y x) n b c := ih hcb
      exact hrest.snoc hac

/-! ### The loop -/

/-- The rows produced so far, and the working table. -/
structure Loop (α : Type) where
  result : List α
  work : List α

/-- One round: what the working table yields replaces it and is added to the result. -/
structure Turn (yields : Loop α → List α) (t t' : Loop α) : Prop where
  busy : t.work ≠ []
  work : t'.work.Perm (yields t)
  result : t'.result.Perm (t.result ++ t'.work)

/-- The rows a loop starts from: its result and its working table at once. -/
def Loop.Starts (seed : List α) (t : Loop α) : Prop :=
  t.result.Perm seed ∧ t.work.Perm seed

/-- A round yields rows of the recursive term, and all of those that are not there yet. -/
structure Applies (next : α → List α) (yields : Loop α → List α) : Prop where
  sound : ∀ t, ∀ y ∈ yields t, ∃ x ∈ t.work, y ∈ next x
  complete : ∀ t, ∀ x ∈ t.work, ∀ y ∈ next x, y ∈ t.result ∨ y ∈ yields t

/--
The loop ends however its rounds order their rows, and where it ends it has produced
the given rows.
-/
structure Computes (yields : Loop α → List α) (seed : List α) (rows : α → Prop) : Prop where
  /-- There is no endless run. -/
  stops : WellFounded fun t' t => Turn yields t t'
  /-- Only an empty working table stops a run. -/
  turns : ∀ t, t.work ≠ [] → ∃ t', Turn yields t t'
  /-- What a run from the seed leaves. -/
  exact : ∀ t₀ t, t₀.Starts seed → Relation.ReflTransGen (Turn yields) t₀ t → t.work = [] →
    ∀ x, x ∈ t.result ↔ rows x

/-- The list is what some run from the seed leaves. -/
def Leaves (yields : Loop α → List α) (seed rows : List α) : Prop :=
  ∃ t, Relation.ReflTransGen (Turn yields) ⟨seed, seed⟩ t ∧ t.work = [] ∧ t.result = rows

theorem Computes.mem_iff {yields : Loop α → List α} {seed rows : List α} {closure : α → Prop}
    (h : Computes yields seed closure) (hrows : Leaves yields seed rows) (x : α) :
    x ∈ rows ↔ closure x := by
  obtain ⟨t, hrun, hwork, rfl⟩ := hrows
  exact h.exact _ t ⟨.refl _, .refl _⟩ hrun hwork x

theorem Computes.congr {yields : Loop α → List α} {seed : List α} {rows rows' : α → Prop}
    (h : Computes yields seed rows) (hrows : ∀ x, rows x ↔ rows' x) :
    Computes yields seed rows' where
  stops := h.stops
  turns := h.turns
  exact t₀ t hstart hrun hwork x := (h.exact t₀ t hstart hrun hwork x).trans (hrows x)

/-- What holds between two rounds. -/
structure Round (next : α → List α) (seed result work : List α) : Prop where
  /-- The seed is in the result. -/
  seeded : ∀ x ∈ seed, x ∈ result
  /-- The working table is part of the result. -/
  worked : ∀ x ∈ work, x ∈ result
  /-- Rows no longer in the working table have been expanded. -/
  expanded : ∀ x ∈ result, x ∉ work → ∀ y ∈ next x, y ∈ result
  /-- Nothing but reachable rows is produced. -/
  sound : ∀ x ∈ result, ∃ a ∈ seed, Relation.ReflTransGen (fun y z => z ∈ next y) a x

variable {next : α → List α} {seed : List α}

/-- An empty working table means the result is closed under the recursive term. -/
theorem Round.complete {result : List α} (h : Round next seed result []) {a x : α}
    (ha : a ∈ seed) (hax : Relation.ReflTransGen (fun y z => z ∈ next y) a x) : x ∈ result := by
  induction hax with
  | refl => exact h.seeded a ha
  | tail _ hyz ih => exact h.expanded _ ih (by simp) _ hyz

/-- What a round does to the rows is all that the invariant asks about. -/
theorem Round.expand {result work result' work' : List α} (h : Round next seed result work)
    (hresult : ∀ x, x ∈ result' ↔ x ∈ result ∨ x ∈ work')
    (hsound : ∀ y ∈ work', ∃ x ∈ work, y ∈ next x)
    (hcomplete : ∀ x ∈ work, ∀ y ∈ next x, y ∈ result ∨ y ∈ work') :
    Round next seed result' work' where
  seeded x hx := (hresult x).mpr (Or.inl (h.seeded x hx))
  worked x hx := (hresult x).mpr (Or.inr hx)
  expanded x hx hnot y hy := by
    rcases (hresult x).mp hx with hold | hnew
    · by_cases hw : x ∈ work
      · exact (hresult y).mpr (hcomplete x hw y hy)
      · exact (hresult y).mpr (Or.inl (h.expanded x hold hw y hy))
    · exact absurd hnew hnot
  sound x hx := by
    rcases (hresult x).mp hx with hold | hnew
    · exact h.sound x hold
    · obtain ⟨y, hy, hyx⟩ := hsound x hnew
      obtain ⟨a, ha, hay⟩ := h.sound y (h.worked y hy)
      exact ⟨a, ha, hay.tail hyx⟩

theorem Round.start {result work : List α} (hresult : ∀ x, x ∈ result ↔ x ∈ seed)
    (hwork : ∀ x, x ∈ work ↔ x ∈ seed) : Round next seed result work where
  seeded x hx := (hresult x).mpr hx
  worked x hx := (hresult x).mpr ((hwork x).mp hx)
  expanded x hx hnot := absurd ((hwork x).mpr ((hresult x).mp hx)) hnot
  sound x hx := ⟨x, (hresult x).mp hx, .refl⟩

section Runs

variable {yields : Loop α → List α}

theorem Round.turn (hyields : Applies next yields) {t t' : Loop α}
    (h : Round next seed t.result t.work) (hturn : Turn yields t t') :
    Round next seed t'.result t'.work := by
  refine h.expand (fun x => ?_) (fun y hy => ?_) (fun x hx y hy => ?_)
  · rw [hturn.result.mem_iff, List.mem_append]
  · exact hyields.sound t y (hturn.work.mem_iff.mp hy)
  · rw [hturn.work.mem_iff]
    exact hyields.complete t x hx y hy

theorem Round.run (hyields : Applies next yields) {t t' : Loop α}
    (h : Round next seed t.result t.work) (hrun : Relation.ReflTransGen (Turn yields) t t') :
    Round next seed t'.result t'.work := by
  induction hrun with
  | refl => exact h
  | tail _ hturn ih => exact ih.turn hyields hturn

/-- **A loop that cannot run for ever computes the closure of its seed.** -/
theorem computes_closure (hyields : Applies next yields)
    (hstops : WellFounded fun t' t => Turn yields t t') :
    Computes yields seed fun x => ∃ a ∈ seed, Relation.ReflTransGen (fun y z => z ∈ next y) a x where
  stops := hstops
  turns t hwork := ⟨⟨t.result ++ yields t, yields t⟩, hwork, .refl _, .refl _⟩
  exact t₀ t hstart hrun hwork x := by
    have hinit : Round next seed t₀.result t₀.work :=
      Round.start (fun x => hstart.1.mem_iff) (fun x => hstart.2.mem_iff)
    have hend := hinit.run hyields hrun
    refine ⟨hend.sound x, fun h => ?_⟩
    obtain ⟨a, ha, hax⟩ := h
    rw [hwork] at hend
    exact hend.complete ha hax

end Runs

/-! ### `union all` -/

/-- `n` rounds that keep every row. -/
def unionAll (next : α → List α) : Nat → List α → List α
  | 0, work => work
  | n + 1, work => work ++ unionAll next n (work.flatMap next)

/-- What a round of `union all` yields. -/
def yieldAll (next : α → List α) (t : Loop α) : List α := t.work.flatMap next

theorem applies_yieldAll (next : α → List α) : Applies next (yieldAll next) where
  sound _ _ hy := List.mem_flatMap.mp hy
  complete _ x hx _ hy := Or.inr (List.mem_flatMap.mpr ⟨x, hx, hy⟩)

/-- A list has finitely many rows, so a bound on them all. -/
theorem exists_forall_lt (left : α → Nat) (rows : List α) : ∃ n, ∀ x ∈ rows, left x < n := by
  induction rows with
  | nil => exact ⟨0, by simp⟩
  | cons r rest ih =>
      obtain ⟨n, hn⟩ := ih
      refine ⟨n + left r + 1, fun x hx => ?_⟩
      rcases List.mem_cons.mp hx with rfl | hrest
      · omega
      · have hlt := hn x hrest
        omega

/-- **The loop stops** where every row leaves less to the rows it yields. -/
theorem stops_yieldAll {left : α → Nat} (hleft : ∀ x, ∀ y ∈ next x, left y < left x) :
    WellFounded fun t' t => Turn (yieldAll next) t t' := by
  have hacc : ∀ (n : Nat) (t : Loop α), (∀ x ∈ t.work, left x < n) →
      Acc (fun t' t => Turn (yieldAll next) t t') t := by
    intro n
    induction n with
    | zero =>
        intro t ht
        refine ⟨t, fun t' hturn => ?_⟩
        obtain ⟨x, hx⟩ := List.exists_mem_of_ne_nil _ hturn.busy
        exact absurd (ht x hx) (Nat.not_lt_zero _)
    | succ n ih =>
        intro t ht
        refine ⟨t, fun t' hturn => ih t' fun y hy => ?_⟩
        obtain ⟨x, hx, hyx⟩ := List.mem_flatMap.mp (hturn.work.mem_iff.mp hy)
        have hlt := hleft x y hyx
        have hle := ht x hx
        omega
  refine ⟨fun t => ?_⟩
  obtain ⟨n, hn⟩ := exists_forall_lt left t.work
  exact hacc n t hn

theorem unionAll_nil (next : α → List α) (n : Nat) : unionAll next n [] = [] := by
  induction n with
  | zero => rfl
  | succ n ih => exact ih

/-- As many rounds as the seed has left are enough. -/
theorem leaves_unionAll {left : α → Nat} (hleft : ∀ x, ∀ y ∈ next x, left y < left x) {n : Nat}
    (hn : ∀ x ∈ seed, left x < n) : Leaves (yieldAll next) seed (unionAll next n seed) := by
  have hrun : ∀ (n : Nat) (before work : List α), (∀ x ∈ work, left x < n) →
      ∃ t, Relation.ReflTransGen (Turn (yieldAll next)) ⟨before ++ work, work⟩ t ∧ t.work = [] ∧
        t.result = before ++ unionAll next n work := by
    intro n
    induction n with
    | zero =>
        intro before work hwork
        have hnil : work = [] := List.eq_nil_iff_forall_not_mem.mpr fun x hx =>
          Nat.not_lt_zero _ (hwork x hx)
        exact ⟨_, .refl, hnil, rfl⟩
    | succ n ih =>
        intro before work hwork
        by_cases hnil : work = []
        · subst hnil
          exact ⟨_, .refl, rfl, by rw [unionAll_nil]⟩
        · have hnext : ∀ y ∈ work.flatMap next, left y < n := by
            intro y hy
            obtain ⟨x, hx, hyx⟩ := List.mem_flatMap.mp hy
            have hlt := hleft x y hyx
            have hle := hwork x hx
            omega
          obtain ⟨t, hrest, hend, hresult⟩ := ih (before ++ work) (work.flatMap next) hnext
          refine ⟨t, .head ⟨hnil, .refl _, .refl _⟩ hrest, hend, ?_⟩
          rw [hresult, unionAll, List.append_assoc]
  exact hrun n [] seed hn

/-! ### `union` -/

variable [DecidableEq α]

/-- The rows of one round that were not there before. -/
def fresh (next : α → List α) (result work : List α) : List α :=
  ((work.flatMap next).filter fun x => x ∉ result).dedup

/-- `n` rounds: the result so far and the working table. -/
def rounds (next : α → List α) : Nat → List α → List α → List α × List α
  | 0, result, work => (result, work)
  | n + 1, result, work =>
    rounds next n (result ++ fresh next result work) (fresh next result work)

/-- The rows produced in `n` rounds from the seed. -/
def union (next : α → List α) (n : Nat) (seed : List α) : List α :=
  (rounds next n seed.dedup seed.dedup).1

theorem mem_fresh {result work : List α} {x : α} :
    x ∈ fresh next result work ↔ (∃ y ∈ work, x ∈ next y) ∧ x ∉ result := by
  unfold fresh
  rw [List.mem_dedup, List.mem_filter, List.mem_flatMap]
  simp

/-- What a round of `union` yields. -/
def yieldNew (next : α → List α) (t : Loop α) : List α := fresh next t.result t.work

theorem applies_yieldNew (next : α → List α) : Applies next (yieldNew next) where
  sound _ _ hy := (mem_fresh.mp hy).1
  complete t x hx y hy := by
    by_cases hold : y ∈ t.result
    · exact Or.inl hold
    · exact Or.inr (mem_fresh.mpr ⟨⟨x, hx, hy⟩, hold⟩)

/-- How many of the rows the term can yield are still missing from the result. -/
def missing (pool result : List α) : Nat := (pool.dedup.filter fun x => x ∉ result).length

/-- A round that yields something leaves fewer rows missing. -/
theorem missing_lt {pool result work : List α} (hU : ∀ x, ∀ y ∈ next x, y ∈ pool)
    (hne : fresh next result work ≠ []) :
    missing pool (result ++ fresh next result work) < missing pool result := by
  obtain ⟨x, hx⟩ := List.exists_mem_of_ne_nil _ hne
  obtain ⟨⟨y, -, hyx⟩, hnot⟩ := mem_fresh.mp hx
  unfold missing
  have hsub : (pool.dedup.filter fun z => z ∉ result ++ fresh next result work)
      = (pool.dedup.filter fun z => z ∉ result).filter
          fun z => z ∉ fresh next result work := by
    rw [List.filter_filter]
    refine List.filter_congr fun z _ => ?_
    by_cases h₁ : z ∈ result <;> by_cases h₂ : z ∈ fresh next result work <;> simp [h₁, h₂]
  rw [hsub]
  refine List.length_filter_lt_length_iff_exists.mpr ⟨x, ?_, by simpa using hx⟩
  exact List.mem_filter.mpr ⟨List.mem_dedup.mpr (hU y x hyx), by simpa using hnot⟩

theorem missing_congr {pool result result' : List α} (h : ∀ x, x ∈ result ↔ x ∈ result') :
    missing pool result = missing pool result' := by
  unfold missing
  exact congrArg List.length (List.filter_congr fun x _ => by simp [h x])

/-- **The loop stops**: a round yields a row that was missing, or nothing, and is the last. -/
theorem stops_yieldNew {pool : List α} (hU : ∀ x, ∀ y ∈ next x, y ∈ pool) :
    WellFounded fun t' t => Turn (yieldNew next) t t' := by
  refine Subrelation.wf (fun {t' t} hturn => ?_)
    (measure fun t : Loop α => missing pool t.result + min t.work.length 1).wf
  show missing pool t'.result + min t'.work.length 1 < missing pool t.result + min t.work.length 1
  have hbusy : 0 < t.work.length := List.length_pos_iff.mpr hturn.busy
  have hsame : missing pool t'.result = missing pool (t.result ++ fresh next t.result t.work) := by
    refine missing_congr fun x => ?_
    rw [hturn.result.mem_iff, List.mem_append, List.mem_append, hturn.work.mem_iff]
    rfl
  by_cases hne : fresh next t.result t.work = []
  · have hlast : t'.work.length = 0 := by
      rw [hturn.work.length_eq]
      exact List.length_eq_zero_iff.mpr hne
    rw [hsame, hne, List.append_nil]
    omega
  · have hlt := missing_lt hU hne
    omega

theorem rounds_nil (next : α → List α) (n : Nat) (result : List α) :
    rounds next n result [] = (result, []) := by
  induction n generalizing result with
  | zero => rfl
  | succ n ih =>
      have hnone : fresh next result [] = [] := rfl
      rw [rounds, hnone, List.append_nil, ih]

/-- The rounds are a run, which ends where the working table is empty. -/
theorem rounds_run (next : α → List α) (n : Nat) (result work : List α) :
    Relation.ReflTransGen (Turn (yieldNew next)) ⟨result, work⟩
      ⟨(rounds next n result work).1, (rounds next n result work).2⟩ := by
  induction n generalizing result work with
  | zero => exact .refl
  | succ n ih =>
      by_cases hnil : work = []
      · subst hnil
        rw [rounds_nil]
      · exact .head ⟨hnil, .refl _, .refl _⟩ (ih _ _)

/-- Once the rounds outnumber the missing rows the working table is empty. -/
theorem rounds_stop {pool : List α} (hU : ∀ x, ∀ y ∈ next x, y ∈ pool) :
    ∀ (n : Nat) (result work : List α), missing pool result < n →
      (rounds next n result work).2 = [] := by
  intro n
  induction n with
  | zero => intro result work h; omega
  | succ n ih =>
      intro result work h
      rw [rounds]
      by_cases hne : fresh next result work = []
      · rw [hne, rounds_nil]
      · exact ih _ _ (by have := missing_lt hU hne; omega)

/-- One round more than the term has rows to yield is enough. -/
theorem leaves_union {pool : List α} (hU : ∀ x, ∀ y ∈ next x, y ∈ pool) {n : Nat}
    (hn : pool.length < n) : Leaves (yieldNew next) seed.dedup (union next n seed) := by
  have hmissing : missing pool seed.dedup < n := by
    have h₁ : missing pool seed.dedup ≤ pool.dedup.length := List.length_filter_le _ _
    have h₂ : pool.dedup.length ≤ pool.length := pool.dedup_sublist.length_le
    omega
  exact ⟨_, rounds_run next n seed.dedup seed.dedup,
    rounds_stop hU n seed.dedup seed.dedup hmissing, rfl⟩

end WorkingTable
