/-
Tables with a primary key.

A table is a list of rows no two of which have the same key, and the list carries
the proof of that.  The operations are the ones SQL has: insert, which refuses a
key already taken; upsert, which replaces the row in its place; an update that
keeps every key; and a delete.  What is needed of them afterwards is only what a
lookup by key returns, so there is one such lemma per operation.
-/
import Mathlib.Data.List.Nodup

/-- Rows with distinct keys. -/
structure Table {ρ κ : Type} (key : ρ → κ) where
  rows : List ρ
  nodup : (rows.map key).Nodup

namespace Table

variable {ρ κ : Type} {key : ρ → κ}

@[ext] theorem ext {t u : Table key} (h : t.rows = u.rows) : t = u := by
  cases t
  cases u
  simpa using h

instance [DecidableEq ρ] : DecidableEq (Table key) := fun t u =>
  decidable_of_iff (t.rows = u.rows) ⟨ext, fun h => by rw [h]⟩

/-- The table without rows. -/
def empty : Table key := ⟨[], by simp⟩

instance : EmptyCollection (Table key) := ⟨empty⟩

instance : Membership ρ (Table key) := ⟨fun t r => r ∈ t.rows⟩

theorem mem_def {t : Table key} {r : ρ} : r ∈ t ↔ r ∈ t.rows := Iff.rfl

instance [DecidableEq ρ] (t : Table key) (r : ρ) : Decidable (r ∈ t) :=
  inferInstanceAs (Decidable (r ∈ t.rows))

instance (t : Table key) (p : ρ → Prop) [DecidablePred p] : Decidable (∀ r ∈ t, p r) :=
  inferInstanceAs (Decidable (∀ r ∈ t.rows, p r))

/-- Change rows without changing their keys. -/
def modify (t : Table key) (f : ρ → ρ) (hf : ∀ r, key (f r) = key r) : Table key where
  rows := t.rows.map f
  nodup := by
    have hcomp : key ∘ f = key := funext hf
    rw [List.map_map, hcomp]
    exact t.nodup

/-- Keep the rows that satisfy `p`. -/
def filter (t : Table key) (p : ρ → Bool) : Table key where
  rows := t.rows.filter p
  nodup := t.nodup.sublist (List.filter_sublist.map key)

theorem mem_filter {t : Table key} {p : ρ → Bool} {r : ρ} :
    r ∈ t.filter p ↔ r ∈ t ∧ p r = true := List.mem_filter

theorem mem_modify {t : Table key} {f : ρ → ρ} {hf : ∀ r, key (f r) = key r} {r : ρ} :
    r ∈ t.modify f hf ↔ ∃ q ∈ t, f q = r := List.mem_map

variable [DecidableEq κ]

/-- The row with the given key. -/
def find? (t : Table key) (k : κ) : Option ρ := t.rows.find? fun r => key r = k

/-- Is the key taken? -/
def has (t : Table key) (k : κ) : Bool := (t.find? k).isSome

/-- A lookup finds exactly the row with that key. -/
theorem find?_eq_some {t : Table key} {k : κ} {r : ρ} :
    t.find? k = some r ↔ r ∈ t ∧ key r = k := by
  constructor
  · intro h
    exact ⟨List.mem_of_find?_eq_some h, by simpa using List.find?_some h⟩
  · rintro ⟨hr, hk⟩
    unfold find?
    cases hfind : t.rows.find? fun r => key r = k with
    | none =>
        rw [List.find?_eq_none] at hfind
        exact absurd hk (by simpa using hfind r hr)
    | some r' =>
        have hr' : r' ∈ t.rows := List.mem_of_find?_eq_some hfind
        have hk' : key r' = k := by simpa using List.find?_some hfind
        rw [List.inj_on_of_nodup_map t.nodup hr' hr (hk'.trans hk.symm)]

theorem find?_eq_none {t : Table key} {k : κ} : t.find? k = none ↔ ∀ r ∈ t, key r ≠ k := by
  unfold find?
  rw [List.find?_eq_none]
  simp only [decide_eq_true_eq]
  rfl

theorem find?_key {t : Table key} {k : κ} {r : ρ} (h : t.find? k = some r) : key r = k :=
  (find?_eq_some.mp h).2

theorem mem_of_find? {t : Table key} {k : κ} {r : ρ} (h : t.find? k = some r) : r ∈ t :=
  (find?_eq_some.mp h).1

theorem has_iff {t : Table key} {k : κ} : t.has k = true ↔ ∃ r ∈ t, key r = k := by
  unfold has
  rw [Option.isSome_iff_exists]
  simp only [find?_eq_some]

theorem has_eq_false {t : Table key} {k : κ} : t.has k = false ↔ t.find? k = none := by
  unfold has
  cases t.find? k <;> simp

@[simp] theorem find?_modify (t : Table key) (f : ρ → ρ) (hf : ∀ r, key (f r) = key r) (k : κ) :
    (t.modify f hf).find? k = (t.find? k).map f := by
  show (t.rows.map f).find? (fun r => decide (key r = k)) = _
  rw [List.find?_map]
  have hcomp : (fun r => decide (key r = k)) ∘ f = fun r => decide (key r = k) := by
    funext r
    simp [hf r]
  rw [hcomp]
  rfl

/-- Filtering keeps a row when it satisfies the predicate. -/
theorem find?_filter (t : Table key) (p : ρ → Bool) (k : κ) :
    (t.filter p).find? k = (t.find? k).filter p := by
  cases h : t.find? k with
  | none =>
      rw [find?_eq_none] at h
      simp only [Option.filter_none, find?_eq_none]
      intro r hr
      exact h r (List.mem_filter.mp hr).1
  | some r =>
      obtain ⟨hr, hk⟩ := find?_eq_some.mp h
      by_cases hp : p r = true
      · rw [Option.filter_some_pos hp, find?_eq_some]
        exact ⟨List.mem_filter.mpr ⟨hr, hp⟩, hk⟩
      · rw [Option.filter_some_neg (by simpa using hp), find?_eq_none]
        intro r' hr' hk'
        obtain ⟨hmem, hpr'⟩ := List.mem_filter.mp hr'
        have : r' = r := List.inj_on_of_nodup_map t.nodup hmem hr (hk'.trans hk.symm)
        exact hp (this ▸ hpr')

/-- Add a row; a key already taken is refused. -/
def insert (t : Table key) (r : ρ) : Option (Table key) :=
  if h : t.has (key r) = true then none
  else some
    { rows := t.rows ++ [r]
      nodup := by
        rw [List.map_append]
        refine List.nodup_append.mpr ⟨t.nodup, List.nodup_singleton _, ?_⟩
        intro a ha b hb hab
        obtain ⟨r', hr', rfl⟩ := List.mem_map.mp ha
        have hbk : b = key r := by simpa using hb
        exact h (has_iff.mpr ⟨r', hr', hab.trans hbk⟩) }

theorem insert_eq_none {t : Table key} {r : ρ} : t.insert r = none ↔ t.has (key r) = true := by
  unfold insert
  split <;> simp_all

/-- An insert that went through found its key free and added exactly the one row. -/
theorem insert_eq_some {t u : Table key} {r : ρ} (h : t.insert r = some u) :
    t.has (key r) = false ∧ u.rows = t.rows ++ [r] := by
  unfold insert at h
  split at h
  · simp at h
  · rename_i hfree
    simp only [Option.some.injEq] at h
    exact ⟨by simpa using hfree, by rw [← h]⟩

theorem mem_insert {t u : Table key} {r r' : ρ} (h : t.insert r = some u) :
    r' ∈ u ↔ r' ∈ t ∨ r' = r := by
  rw [mem_def, (insert_eq_some h).2, List.mem_append, List.mem_singleton, mem_def]

theorem has_insert {t u : Table key} {r : ρ} (h : t.insert r = some u) {k : κ} :
    u.has k = true ↔ t.has k = true ∨ key r = k := by
  rw [has_iff, has_iff]
  simp only [mem_insert h, or_and_right, exists_or, exists_eq_left]

/-- After an insert every row was there before or is as good as the new one. -/
theorem insert_or {t u : Table key} {r : ρ} {P : ρ → Prop} (h : t.insert r = some u) (hr : P r) :
    ∀ q ∈ u, q ∈ t ∨ P q := by
  intro q hq
  rcases (mem_insert h).mp hq with hold | rfl
  · exact Or.inl hold
  · exact Or.inr hr

theorem find?_insert {t u : Table key} {r : ρ} (h : t.insert r = some u) (k : κ) :
    u.find? k = if key r = k then some r else t.find? k := by
  obtain ⟨hfree, hrows⟩ := insert_eq_some h
  unfold find?
  rw [hrows, List.find?_append]
  by_cases hk : key r = k
  · rw [if_pos hk]
    have hnone : t.rows.find? (fun r => decide (key r = k)) = none := by
      rw [← hk]
      exact has_eq_false.mp hfree
    rw [hnone]
    simp [hk]
  · rw [if_neg hk]
    cases t.rows.find? (fun r => decide (key r = k)) <;> simp [hk]

/-- Put a row in the place of the one with its key, or at the end. -/
def upsert (t : Table key) (r : ρ) : Table key :=
  (t.insert r).getD (t.modify (fun r' => if key r' = key r then r else r') fun r' => by
    by_cases h : key r' = key r
    · rw [if_pos h, h]
    · rw [if_neg h])

theorem find?_upsert (t : Table key) (r : ρ) (k : κ) :
    (t.upsert r).find? k = if key r = k then some r else t.find? k := by
  unfold upsert
  cases h : t.insert r with
  | some u => exact find?_insert h k
  | none =>
      obtain ⟨r₀, hr₀⟩ := Option.isSome_iff_exists.mp (insert_eq_none.mp h)
      rw [Option.getD_none, find?_modify]
      by_cases hk : key r = k
      · subst hk
        rw [if_pos rfl, hr₀, Option.map_some, if_pos (find?_key hr₀)]
      · rw [if_neg hk]
        cases hf : t.find? k with
        | none => rfl
        | some r' =>
            have hne : key r' ≠ key r := fun hc => hk (hc.symm.trans (find?_key hf))
            rw [Option.map_some, if_neg hne]

/-- A row in the place of another leaves the number of rows. -/
theorem length_upsert (t : Table key) (r : ρ) :
    (t.upsert r).rows.length = t.rows.length + if t.has (key r) = true then 0 else 1 := by
  unfold upsert
  cases h : t.insert r with
  | some u =>
      obtain ⟨hfree, hrows⟩ := insert_eq_some h
      rw [Option.getD_some, hrows, if_neg (by simp [hfree]), List.length_append]
      rfl
  | none =>
      rw [Option.getD_none, if_pos (insert_eq_none.mp h), Nat.add_zero]
      exact List.length_map _

theorem has_upsert {t : Table key} {r : ρ} {k : κ} :
    (t.upsert r).has k = true ↔ t.has k = true ∨ key r = k := by
  unfold has
  rw [find?_upsert]
  by_cases hk : key r = k
  · rw [if_pos hk]
    simp [hk]
  · rw [if_neg hk]
    simp [hk]

theorem mem_upsert {t : Table key} {r r' : ρ} :
    r' ∈ t.upsert r ↔ r' = r ∨ (r' ∈ t ∧ key r' ≠ key r) := by
  have hiff : ∀ (u : Table key) (x : ρ), x ∈ u ↔ u.find? (key x) = some x := by
    intro u x
    rw [find?_eq_some]
    exact ⟨fun h => ⟨h, rfl⟩, fun h => h.1⟩
  rw [hiff, find?_upsert, hiff t]
  by_cases hk : key r = key r'
  · rw [if_pos hk]
    simp [hk, eq_comm]
  · rw [if_neg hk]
    constructor
    · intro h
      exact Or.inr ⟨h, fun hc => hk hc.symm⟩
    · rintro (rfl | ⟨h, -⟩)
      · exact absurd rfl hk
      · exact h

/-- So is every row after an upsert. -/
theorem upsert_or {t : Table key} {r : ρ} {P : ρ → Prop} (hr : P r) :
    ∀ q ∈ t.upsert r, q ∈ t ∨ P q := by
  intro q hq
  rcases mem_upsert.mp hq with rfl | ⟨hold, -⟩
  · exact Or.inr hr
  · exact Or.inl hold

end Table
