/-
Optimistic concurrency: a cell with a version, watched over a whole run.

A cell holds a content under a version number.  Writers read it in one step and
replace it in another, and the replacement goes through only when the version is
still the one they expect.  The read and the write are apart, and the read does
not even say which version it saw.

What makes this sound is a fact about the whole run: as long as every write
leaves the cell alone, moves it to the next version, or removes it, the version
determines the content at every moment.  A writer that read at some version at
least the expected one, and finds the expected one when it writes, therefore read
exactly what it replaces (`History.base_eq`).

A cell that is filled once and never removed has a content for every version from
the first on.  When each write relates what it puts to what it replaces, the whole
sequence of contents is a chain of that relation (`Chronicle`).
-/
import Numu.Lib.Pool

/-- A content under a version. -/
@[ext] structure Versioned (δ : Type) where
  version : Int
  content : δ

namespace Versioned

variable {σ δ : Type}

/-- What one write may do to a cell: nothing, a content under the next version, or remove it. -/
inductive Move : Option (Versioned δ) → Option (Versioned δ) → Prop
  | same (a : Option (Versioned δ)) : Move a a
  | bump {a b : Versioned δ} (h : b.version = a.version + 1) : Move (some a) (some b)
  | gone (a : Option (Versioned δ)) : Move a none

variable (cell : σ → Option (Versioned δ))

/-- The present version is the latest one, and a version has one content. -/
structure History (w : World σ) : Prop where
  latest : ∀ t a b, w.Visited t → cell t = some a → cell w.now = some b → a.version ≤ b.version
  determined : ∀ t u a b, w.Visited t → w.Visited u → cell t = some a → cell u = some b →
    a.version = b.version → a = b

/-- The commit changed the cell. -/
def Changes (c : Commit σ) : Prop := cell c.after ≠ cell c.before

/-- A version that was replaced is behind, and only one program replaced it. -/
structure Serial (w : World σ) : Prop where
  spent : ∀ c ∈ w.log, ∀ a b, Changes cell c → cell c.before = some a → cell w.now = some b →
    a.version < b.version
  once : ∀ c ∈ w.log, ∀ d ∈ w.log, ∀ a b, Changes cell c → Changes cell d →
    cell c.before = some a → cell d.before = some b → a.version = b.version → c.who = d.who

variable {cell}

/-- A move either leaves the cell as it is or raises its version. -/
theorem Move.eq_or_lt {a : Option (Versioned δ)} {b : Versioned δ} (h : Move a (some b)) :
    ∃ a', a = some a' ∧ (a' = b ∨ a'.version < b.version) := by
  cases h with
  | same => exact ⟨b, rfl, Or.inl rfl⟩
  | @bump a' _ h => exact ⟨a', rfl, Or.inr (by omega)⟩

theorem History.start (s : σ) : History cell ⟨s, []⟩ := by
  have hnow : ∀ t, World.Visited ⟨s, []⟩ t → t = s := by
    intro t ht
    rcases ht with h | ⟨c, hc, -⟩
    · exact h
    · simp at hc
  refine ⟨?_, ?_⟩
  · intro t a b ht ha hb
    obtain rfl := hnow t ht
    obtain rfl := Option.some.inj (ha.symm.trans hb)
    exact Int.le_refl _
  · intro t u a b ht hu ha hb _
    obtain rfl := hnow t ht
    obtain rfl := hnow u hu
    exact Option.some.inj (ha.symm.trans hb)

/-- What is at least as new as everything, and new unless it is the present, extends a history. -/
private theorem History.extend {w : World σ} {i : Nat} {update : σ → σ} (h : History cell w)
    (hnew : ∀ b, cell (update w.now) = some b →
      ∀ t a, w.Visited t → cell t = some a → a = b ∨ a.version < b.version) :
    History cell (w.commit i update) := by
  refine ⟨?_, ?_⟩
  · intro t a b ht ha hb
    have hb' : cell (update w.now) = some b := hb
    rcases World.visited_commit.mp ht with rfl | ht
    · obtain rfl := Option.some.inj (ha.symm.trans hb')
      exact Int.le_refl _
    · rcases hnew b hb' t a ht ha with rfl | hlt
      · exact Int.le_refl _
      · exact Int.le_of_lt hlt
  · intro t u a b ht hu ha hb hver
    rcases World.visited_commit.mp ht with rfl | ht
    · rcases World.visited_commit.mp hu with rfl | hu
      · exact Option.some.inj (ha.symm.trans hb)
      · rcases hnew a ha u b hu hb with rfl | hlt
        · rfl
        · omega
    · rcases World.visited_commit.mp hu with rfl | hu
      · rcases hnew b hb t a ht ha with rfl | hlt
        · rfl
        · omega
      · exact h.determined t u a b ht hu ha hb hver

/-- A move keeps the history. -/
theorem History.commit {w : World σ} {i : Nat} {update : σ → σ} (h : History cell w)
    (hmove : Move (cell w.now) (cell (update w.now))) : History cell (w.commit i update) := by
  refine h.extend ?_
  intro b hb t a ht ha
  rw [hb] at hmove
  obtain ⟨a', ha', hrel⟩ := hmove.eq_or_lt
  have hle := h.latest t a a' ht ha ha'
  rcases hrel with rfl | hlt
  · rcases Int.lt_or_eq_of_le hle with hlt | heq
    · exact Or.inr hlt
    · exact Or.inl (h.determined t w.now a a' ht (Or.inl rfl) ha ha' heq)
  · exact Or.inr (by omega)

/-- A cell that was never filled may be filled. -/
theorem History.born {w : World σ} {i : Nat} {update : σ → σ} (h : History cell w)
    (hempty : ∀ t, w.Visited t → cell t = none) : History cell (w.commit i update) := by
  refine h.extend ?_
  intro b _ t a ht ha
  rw [hempty t ht] at ha
  simp at ha

/-- **Who read no older version than the one it replaces read what it replaces.** -/
theorem History.base_eq {w : World σ} (h : History cell w) {t : σ} {a b : Versioned δ}
    (ht : w.Visited t) (ha : cell t = some a) (hb : cell w.now = some b)
    (hle : b.version ≤ a.version) : a = b := by
  have hle' := h.latest t a b ht ha hb
  exact h.determined t w.now a b ht (Or.inl rfl) ha hb (by omega)

theorem Serial.start (s : σ) : Serial cell ⟨s, []⟩ := by
  refine ⟨?_, ?_⟩
  · intro c hc
    simp at hc
  · intro c hc
    simp at hc

/-- A move keeps the writes in series. -/
theorem Serial.commit {w : World σ} {i : Nat} {update : σ → σ} (h : Serial cell w)
    (hmove : Move (cell w.now) (cell (update w.now))) : Serial cell (w.commit i update) := by
  have hlog : ∀ c, c ∈ (w.commit i update).log ↔ c ∈ w.log ∨ c = ⟨i, w.now, update w.now⟩ := by
    intro c
    simp [World.commit]
  refine ⟨?_, ?_⟩
  · intro c hc a b hchange ha hb
    have hb' : cell (update w.now) = some b := hb
    rw [hb'] at hmove
    obtain ⟨a', ha', hrel⟩ := hmove.eq_or_lt
    rcases (hlog c).mp hc with hc | rfl
    · have hlt := h.spent c hc a a' hchange ha ha'
      rcases hrel with rfl | hlt'
      · exact hlt
      · omega
    · obtain rfl := Option.some.inj (ha.symm.trans ha')
      rcases hrel with rfl | hlt
      · exact absurd (hb'.trans ha.symm) hchange
      · exact hlt
  · intro c hc d hd a b hcc hcd ha hb hver
    rcases (hlog c).mp hc with hc | rfl
    · rcases (hlog d).mp hd with hd | rfl
      · exact h.once c hc d hd a b hcc hcd ha hb hver
      · have hlt := h.spent c hc a b hcc ha hb
        omega
    · rcases (hlog d).mp hd with hd | rfl
      · have hlt := h.spent d hd b a hcd hb ha
        omega
      · rfl

/-! ### The contract of optimistic writers -/

variable (cell)

/-- Every write is a move of the cell; nobody forgets a moment or a commit. -/
def contract : Contract σ where
  inv w := History cell w ∧ Serial cell w ∧ ∀ c ∈ w.log, Move (cell c.before) (cell c.after)
  rely _ w w' := (∀ t, w.Visited t → w'.Visited t) ∧ ∀ c ∈ w.log, c ∈ w'.log
  guar i w w' := ∃ t, w' = (w.commit i fun _ => t) ∧ Move (cell w.now) (cell t)
  rely_refl _ _ := ⟨fun _ h => h, fun _ h => h⟩
  rely_trans h₁ h₂ := ⟨fun t h => h₂.1 t (h₁.1 t h), fun c h => h₂.2 c (h₁.2 c h)⟩
  inv_guar := by
    intro i w w' hinv hguar
    obtain ⟨t, rfl, hmove⟩ := hguar
    refine ⟨hinv.1.commit hmove, hinv.2.1.commit hmove, ?_⟩
    intro c hc
    rcases List.mem_append.mp hc with hc | hc
    · exact hinv.2.2 c hc
    · obtain rfl : c = ⟨i, w.now, t⟩ := by simpa using hc
      exact hmove
  rely_guar := by
    intro i j w w' _ _ hguar
    obtain ⟨t, rfl, -⟩ := hguar
    refine ⟨fun u hu => World.visited_commit.mpr (Or.inr hu), ?_⟩
    intro c hc
    exact List.mem_append.mpr (Or.inl hc)

/-! ### A cell that is filled once and never removed -/

section Chronicle

variable {First : δ → Prop} {Next : δ → δ → Prop}

/-- What one write may do to such a cell: nothing, fill it under version one, or put the next
version in a given relation to the one before. -/
inductive Grow (First : δ → Prop) (Next : δ → δ → Prop) :
    Option (Versioned δ) → Option (Versioned δ) → Prop
  | same (a : Option (Versioned δ)) : Grow First Next a a
  | born {b : Versioned δ} (hver : b.version = 1) (h : First b.content) :
      Grow First Next none (some b)
  | next {a b : Versioned δ} (hver : b.version = a.version + 1) (h : Next a.content b.content) :
      Grow First Next (some a) (some b)

/-- The contents of the cell in the order of their versions: a first one, and then each from the
one before it. -/
structure Chronicle (First : δ → Prop) (Next : δ → δ → Prop) (cell : σ → Option (Versioned δ))
    (w : World σ) : Prop where
  /-- The cell is not emptied, and the present version is the latest. -/
  latest : ∀ t a, w.Visited t → cell t = some a →
    ∃ b, cell w.now = some b ∧ a.version ≤ b.version
  /-- A version has one content. -/
  determined : ∀ t u a b, w.Visited t → w.Visited u → cell t = some a → cell u = some b →
    a.version = b.version → a = b
  first : ∀ t a, w.Visited t → cell t = some a →
    1 ≤ a.version ∧ (a.version = 1 → First a.content)
  /-- No version was left out. -/
  complete : ∀ t a, w.Visited t → cell t = some a → 1 < a.version →
    ∃ u b, w.Visited u ∧ cell u = some b ∧ a.version = b.version + 1
  step : ∀ t u a b, w.Visited t → w.Visited u → cell t = some a → cell u = some b →
    b.version = a.version + 1 → Next a.content b.content

namespace Chronicle

variable {cell} {w : World σ} {i : Nat} {update : σ → σ}

theorem start {s : σ} (hs : cell s = none) : Chronicle First Next cell ⟨s, []⟩ := by
  have hempty : ∀ t a, World.Visited ⟨s, []⟩ t → cell t ≠ some a := by
    intro t a ht
    rcases ht with rfl | ⟨c, hc, -⟩
    · rw [hs]
      simp
    · simp at hc
  exact ⟨fun t a ht ha => absurd ha (hempty t a ht), fun t _ a _ ht _ ha => absurd ha (hempty t a ht),
    fun t a ht ha => absurd ha (hempty t a ht), fun t a ht ha => absurd ha (hempty t a ht),
    fun t _ a _ ht _ ha => absurd ha (hempty t a ht)⟩

theorem history (h : Chronicle First Next cell w) : History cell w where
  latest := by
    intro t a b ht ha hb
    obtain ⟨b', hb', hle⟩ := h.latest t a ht ha
    exact Option.some.inj (hb.symm.trans hb') ▸ hle
  determined := h.determined

/-- A write that leaves the cell keeps the chronicle. -/
private theorem commit_same (h : Chronicle First Next cell w)
    (hsame : cell (update w.now) = cell w.now) :
    Chronicle First Next cell (w.commit i update) := by
  have hold : ∀ t, (w.commit i update).Visited t → ∃ u, w.Visited u ∧ cell t = cell u := by
    intro t ht
    rcases World.visited_commit.mp ht with rfl | ht
    · exact ⟨w.now, Or.inl rfl, hsame⟩
    · exact ⟨t, ht, rfl⟩
  refine ⟨fun t a ht ha => ?_, fun t u a b ht hu ha hb => ?_, fun t a ht ha => ?_,
    fun t a ht ha hlt => ?_, fun t u a b ht hu ha hb => ?_⟩
  · obtain ⟨t', ht', heq⟩ := hold t ht
    obtain ⟨b, hb, hle⟩ := h.latest t' a ht' (heq ▸ ha)
    exact ⟨b, hsame.trans hb, hle⟩
  · obtain ⟨t', ht', heq⟩ := hold t ht
    obtain ⟨u', hu', heq'⟩ := hold u hu
    exact h.determined t' u' a b ht' hu' (heq ▸ ha) (heq' ▸ hb)
  · obtain ⟨t', ht', heq⟩ := hold t ht
    exact h.first t' a ht' (heq ▸ ha)
  · obtain ⟨t', ht', heq⟩ := hold t ht
    obtain ⟨u, b, hu, hb, hver⟩ := h.complete t' a ht' (heq ▸ ha) hlt
    exact ⟨u, b, World.visited_commit.mpr (Or.inr hu), hb, hver⟩
  · obtain ⟨t', ht', heq⟩ := hold t ht
    obtain ⟨u', hu', heq'⟩ := hold u hu
    exact h.step t' u' a b ht' hu' (heq ▸ ha) (heq' ▸ hb)

/-- A write that puts a version above all others extends the chronicle. -/
private theorem commit_new (h : Chronicle First Next cell w) {b : Versioned δ}
    (hb : cell (update w.now) = some b)
    (habove : ∀ t a, w.Visited t → cell t = some a → a.version < b.version)
    (hfirst : 1 ≤ b.version ∧ (b.version = 1 → First b.content))
    (hprev : 1 < b.version → ∃ u a, w.Visited u ∧ cell u = some a ∧ b.version = a.version + 1)
    (hnext : ∀ t a, w.Visited t → cell t = some a → b.version = a.version + 1 →
      Next a.content b.content) :
    Chronicle First Next cell (w.commit i update) := by
  have hold : ∀ t a, (w.commit i update).Visited t → cell t = some a →
      a = b ∨ (w.Visited t ∧ a.version < b.version) := by
    intro t a ht ha
    rcases World.visited_commit.mp ht with rfl | ht
    · exact Or.inl (Option.some.inj (ha.symm.trans hb))
    · exact Or.inr ⟨ht, habove t a ht ha⟩
  refine ⟨fun t a ht ha => ?_, fun t u a a' ht hu ha ha' hver => ?_, fun t a ht ha => ?_,
    fun t a ht ha hlt => ?_, fun t u a a' ht hu ha ha' hver => ?_⟩
  · rcases hold t a ht ha with rfl | ⟨-, hlt⟩
    · exact ⟨a, hb, Int.le_refl _⟩
    · exact ⟨b, hb, Int.le_of_lt hlt⟩
  · rcases hold t a ht ha with rfl | ⟨ht, hlt⟩
    · rcases hold u a' hu ha' with rfl | ⟨-, hlt⟩
      · rfl
      · omega
    · rcases hold u a' hu ha' with rfl | ⟨hu, -⟩
      · omega
      · exact h.determined t u a a' ht hu ha ha' hver
  · rcases hold t a ht ha with rfl | ⟨ht, -⟩
    · exact hfirst
    · exact h.first t a ht ha
  · have hlift : ∀ {v : Int}, (∃ u b, w.Visited u ∧ cell u = some b ∧ v = b.version + 1) →
        ∃ u b, (w.commit i update).Visited u ∧ cell u = some b ∧ v = b.version + 1 := by
      rintro v ⟨u, b', hu, hb', hver⟩
      exact ⟨u, b', World.visited_commit.mpr (Or.inr hu), hb', hver⟩
    rcases hold t a ht ha with rfl | ⟨ht, -⟩
    · exact hlift (hprev hlt)
    · exact hlift (h.complete t a ht ha hlt)
  · rcases hold t a ht ha with rfl | ⟨ht, hlt⟩
    · rcases hold u a' hu ha' with rfl | ⟨-, hlt⟩
      · omega
      · omega
    · rcases hold u a' hu ha' with rfl | ⟨hu, -⟩
      · exact hnext t a ht ha hver
      · exact h.step t u a a' ht hu ha ha' hver

/-- Growth keeps the chronicle. -/
theorem commit (h : Chronicle First Next cell w)
    (hgrow : Grow First Next (cell w.now) (cell (update w.now))) :
    Chronicle First Next cell (w.commit i update) := by
  generalize hnow : cell w.now = old at hgrow
  generalize hafter : cell (update w.now) = new at hgrow
  cases hgrow with
  | same => exact h.commit_same (hafter.trans hnow.symm)
  | @born b hver hfirst =>
      have hempty : ∀ t a, w.Visited t → cell t ≠ some a := by
        intro t a ht ha
        obtain ⟨b', hb', -⟩ := h.latest t a ht ha
        rw [hnow] at hb'
        simp at hb'
      exact h.commit_new hafter (fun t a ht ha => absurd ha (hempty t a ht))
        ⟨by omega, fun _ => hfirst⟩ (fun hlt => by omega)
        fun t a ht ha => absurd ha (hempty t a ht)
  | @next a b hver hnext =>
      have hle : ∀ t c, w.Visited t → cell t = some c → c.version ≤ a.version := by
        intro t c ht hc
        obtain ⟨a', ha', hle⟩ := h.latest t c ht hc
        obtain rfl := Option.some.inj (hnow.symm.trans ha')
        exact hle
      have hone := (h.first w.now a (Or.inl rfl) hnow).1
      refine h.commit_new hafter (fun t c ht hc => ?_) ⟨by omega, fun heq => by omega⟩
        (fun _ => ⟨w.now, a, Or.inl rfl, hnow, hver⟩) fun t c ht hc hsucc => ?_
      · have := hle t c ht hc
        omega
      · obtain rfl := h.determined t w.now c a ht (Or.inl rfl) hc hnow (by omega)
        exact hnext

/-- What holds of every first content and passes on to the next one holds of all. -/
theorem forall_content (h : Chronicle First Next cell w) {P : δ → Prop}
    (hfirst : ∀ c, First c → P c) (hnext : ∀ c d, P c → Next c d → P d) :
    ∀ t a, w.Visited t → cell t = some a → P a.content := by
  -- By induction on the version: the one before it was there too.
  have hall : ∀ (n : Nat) t a, w.Visited t → cell t = some a → a.version = n + 1 →
      P a.content := by
    intro n
    induction n with
    | zero => intro t a ht ha hver; exact hfirst _ ((h.first t a ht ha).2 (by omega))
    | succ n ih =>
        intro t a ht ha hver
        obtain ⟨u, b, hu, hb, hprev⟩ := h.complete t a ht ha (by omega)
        exact hnext _ _ (ih u b hu hb (by omega)) (h.step u t b a hu ht hb ha hprev)
  intro t a ht ha
  have hone := (h.first t a ht ha).1
  exact hall (a.version.toNat - 1) t a ht ha (by omega)

end Chronicle

variable (First Next)

/-- Every write lets the cell grow; nobody forgets a moment. -/
def growContract : Contract σ where
  inv w := Chronicle First Next cell w
  rely _ w w' := ∀ t, w.Visited t → w'.Visited t
  guar i w w' := ∃ t, w' = (w.commit i fun _ => t) ∧ Grow First Next (cell w.now) (cell t)
  rely_refl _ _ := fun _ h => h
  rely_trans h₁ h₂ := fun t h => h₂ t (h₁ t h)
  inv_guar := by
    intro i w w' hinv hguar
    obtain ⟨t, rfl, hgrow⟩ := hguar
    exact Chronicle.commit hinv hgrow
  rely_guar := by
    intro i j w w' _ _ hguar
    obtain ⟨t, rfl, -⟩ := hguar
    exact fun u hu => World.visited_commit.mpr (Or.inr hu)

end Chronicle

end Versioned
