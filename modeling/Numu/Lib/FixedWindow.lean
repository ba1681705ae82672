/-
Counting in fixed windows.

The first hit opens a window and later ones count into it while no more than its
width has passed; the next one after that opens another.  A hit is within the
limit when the count that includes it is.  A window that is over has no bearing on
any later hit.

Windows that follow one another start more than a width apart, so an interval of
one width meets two of them at most, and each lets the limit through once.  That
is the bound below: twice the limit, for any interval.  It holds of a counter that
wraps around as long as no window sees as many hits as the counter has values.
-/
import Mathlib.Data.List.Count
import Mathlib.Tactic.Common

namespace FixedWindow

/-- A window: when it was opened and how many hits it has seen. -/
structure Bucket where
  start : Nat
  count : Nat
deriving DecidableEq

/-- A hit, with a counter modulo `M`; zero is a counter that never wraps around. -/
def hit (w M now : Nat) (b : Option Bucket) : Bucket :=
  let e := b.getD ⟨now, 0⟩
  let e := if w < now - e.start then ⟨now, 0⟩ else e
  { e with count := (e.count + 1) % M }

/-- The window that is still open. -/
def current (w now : Nat) (b : Option Bucket) : Option Bucket :=
  b.filter fun e => decide (now - e.start ≤ w)

/-- The hits at some times, each with whether it was within the limit. -/
def trace (w M max : Nat) : Option Bucket → List Nat → List (Nat × Bool)
  | _, [] => []
  | b, t :: ts =>
    (t, decide ((hit w M t b).count ≤ max)) :: trace w M max (some (hit w M t b)) ts

/-- When the window was opened that a hit falls into, by when the last one was. -/
def opening (w : Nat) (last : Option Nat) (now : Nat) : Nat :=
  match last with
  | none => now
  | some s => if w < now - s then now else s

/-- When the window was opened that the last of some hits fell into. -/
def openedAt (w : Nat) (ts : List Nat) : Option Nat :=
  ts.foldl (fun last t => some (opening w last t)) none

section Hit

variable {w M now : Nat} {e : Bucket}

theorem hit_none : hit w M now none = ⟨now, 1 % M⟩ := by
  unfold hit
  simp

/-- Within its width the window counts. -/
theorem hit_kept (h : now - e.start ≤ w) : hit w M now (some e) = ⟨e.start, (e.count + 1) % M⟩ := by
  unfold hit
  simp only [Option.getD_some, if_neg (Nat.not_lt.mpr h)]

/-- After it another one is opened. -/
theorem hit_reset (h : w < now - e.start) : hit w M now (some e) = ⟨now, 1 % M⟩ := by
  unfold hit
  simp only [Option.getD_some, if_pos h, Nat.zero_add]

/-- A hit opens the window that it should. -/
theorem hit_start (b : Option Bucket) :
    (hit w M now b).start = opening w (b.map Bucket.start) now := by
  cases b with
  | none => rw [hit_none]; rfl
  | some e =>
      show _ = if w < now - e.start then now else e.start
      by_cases hover : w < now - e.start
      · rw [hit_reset hover, if_pos hover]
      · rw [hit_kept (Nat.le_of_not_lt hover), if_neg hover]

theorem current_some (e : Bucket) :
    current w now (some e) = if now - e.start ≤ w then some e else none := by
  unfold current
  simp [Option.filter]

/-- A window that is over might as well be none. -/
theorem hit_current (b : Option Bucket) : hit w M now (current w now b) = hit w M now b := by
  cases b with
  | none => rfl
  | some e =>
      rw [current_some]
      by_cases hopen : now - e.start ≤ w
      · rw [if_pos hopen]
      · rw [if_neg hopen, hit_none, hit_reset (Nat.lt_of_not_le hopen)]

/-- What is open later is open now. -/
theorem current_current {later : Nat} (hle : now ≤ later) (b : Option Bucket) :
    current w later (current w now b) = current w later b := by
  unfold current
  rw [Option.filter_filter]
  congr 1
  funext e
  by_cases hopen : later - e.start ≤ w
  · rw [decide_eq_true hopen, decide_eq_true (show now - e.start ≤ w by omega)]
    rfl
  · rw [decide_eq_false hopen, Bool.and_false]

theorem openedAt_append (ts : List Nat) :
    openedAt w (ts ++ [now]) = some (opening w (openedAt w ts) now) := by
  unfold openedAt
  rw [List.foldl_append, List.foldl_cons, List.foldl_nil]

end Hit

/-! ### The bound -/

/-- The hits of a trace between `a` and `a + w` that were within the limit. -/
def allowedIn (a w : Nat) (tr : List (Nat × Bool)) : Nat :=
  tr.countP fun x => x.2 && decide (a ≤ x.1 ∧ x.1 ≤ a + w)

section Bound

variable {a w M max : Nat}

/-- The first hit of a trace counts when it was let through in the interval. -/
theorem allowedIn_trace (b : Option Bucket) (t : Nat) (ts : List Nat) :
    allowedIn a w (trace w M max b (t :: ts)) =
      allowedIn a w (trace w M max (some (hit w M t b)) ts) +
        if (hit w M t b).count ≤ max ∧ a ≤ t ∧ t ≤ a + w then 1 else 0 := by
  unfold allowedIn
  rw [trace, List.countP_cons]
  simp

/-- Nothing is counted after the interval. -/
theorem allowedIn_after (ts : List Nat) :
    ∀ b, (∀ t ∈ ts, a + w < t) → allowedIn a w (trace w M max b ts) = 0 := by
  induction ts with
  | nil => intro b _; rfl
  | cons t rest ih =>
      intro b hafter
      have ht := hafter t List.mem_cons_self
      rw [allowedIn_trace, ih _ fun u hu => hafter u (List.mem_cons_of_mem _ hu), if_neg]
      intro hc
      omega

/-- A window that was opened in the interval is the last one that meets it. -/
theorem allowedIn_opened (ts : List Nat) :
    ∀ e : Bucket, a ≤ e.start → ts.Pairwise (· ≤ ·) →
      allowedIn a w (trace w 0 max (some e) ts) ≤ max - e.count := by
  induction ts with
  | nil => intro e _ _; exact Nat.zero_le _
  | cons t rest ih =>
      intro e hstart hsorted
      obtain ⟨hle, hrest⟩ := List.pairwise_cons.mp hsorted
      rw [allowedIn_trace]
      by_cases hwindow : t - e.start ≤ w
      · have hlater := ih ⟨e.start, e.count + 1⟩ hstart hrest
        rw [hit_kept hwindow, Nat.mod_zero]
        dsimp only at hlater ⊢
        split
        · omega
        · omega
      · -- The next window starts after the interval has ended.
        have hafter : ∀ u ∈ rest, a + w < u := by
          intro u hu
          have hu := hle u hu
          omega
        rw [allowedIn_after rest _ hafter, if_neg]
        · exact Nat.zero_le _
        · intro hc
          omega

/-- A hit in the interval that opens a window: what is left lets the limit through once. -/
theorem allowedIn_opens {b : Option Bucket} {t : Nat} {ts : List Nat}
    (hopens : hit w 0 t b = ⟨t, 1 % 0⟩) (hat : a ≤ t) (hsorted : (t :: ts).Pairwise (· ≤ ·)) :
    allowedIn a w (trace w 0 max b (t :: ts)) ≤ max := by
  obtain ⟨-, hrest⟩ := List.pairwise_cons.mp hsorted
  have hlater : allowedIn a w (trace w 0 max (some ⟨t, 1⟩) ts) ≤ max - 1 :=
    allowedIn_opened ts ⟨t, 1⟩ hat hrest
  rw [allowedIn_trace, hopens, Nat.mod_zero]
  dsimp only
  split
  · omega
  · omega

/-- From within the interval on there are the rest of this window and one more. -/
theorem allowedIn_entered (ts : List Nat) :
    ∀ e : Bucket, (∀ t ∈ ts, a ≤ t) → ts.Pairwise (· ≤ ·) →
      allowedIn a w (trace w 0 max (some e) ts) ≤ max - e.count + max := by
  induction ts with
  | nil => intro e _ _; exact Nat.zero_le _
  | cons t rest ih =>
      intro e hfrom hsorted
      obtain ⟨-, hrest⟩ := List.pairwise_cons.mp hsorted
      have hat := hfrom t List.mem_cons_self
      by_cases hwindow : t - e.start ≤ w
      · have hlater := ih ⟨e.start, e.count + 1⟩
          (fun u hu => hfrom u (List.mem_cons_of_mem _ hu)) hrest
        rw [allowedIn_trace, hit_kept hwindow, Nat.mod_zero]
        dsimp only at hlater ⊢
        split
        · omega
        · omega
      · have hone : allowedIn a w (trace w 0 max (some e) (t :: rest)) ≤ max :=
          allowedIn_opens (hit_reset (Nat.lt_of_not_le hwindow)) hat hsorted
        omega

/-- **An interval of one width lets twice the limit through at most.** -/
theorem allowedIn_le (ts : List Nat) :
    ∀ b, ts.Pairwise (· ≤ ·) → allowedIn a w (trace w 0 max b ts) ≤ 2 * max := by
  induction ts with
  | nil => intro b _; exact Nat.zero_le _
  | cons t rest ih =>
      intro b hsorted
      obtain ⟨hle, hrest⟩ := List.pairwise_cons.mp hsorted
      by_cases hbefore : t < a
      · rw [allowedIn_trace, if_neg (by omega)]
        exact ih _ hrest
      · have hfrom : ∀ u ∈ t :: rest, a ≤ u := by
          intro u hu
          rcases List.mem_cons.mp hu with rfl | hu
          · omega
          · have hu := hle u hu
            omega
        cases b with
        | some e =>
            have hentered : allowedIn a w (trace w 0 max (some e) (t :: rest)) ≤
                max - e.count + max := allowedIn_entered _ e hfrom hsorted
            omega
        | none =>
            have hone : allowedIn a w (trace w 0 max none (t :: rest)) ≤ max :=
              allowedIn_opens hit_none (hfrom t List.mem_cons_self) hsorted
            omega

/-- How many of some times are between `a` and `a + w`. -/
def during (a w : Nat) (ts : List Nat) : Nat :=
  ts.countP fun t => decide (a ≤ t ∧ t ≤ a + w)

theorem during_snoc (past : List Nat) (t : Nat) :
    during a w (past ++ [t]) = during a w past + if a ≤ t ∧ t ≤ a + w then 1 else 0 := by
  unfold during
  rw [List.countP_append, List.countP_singleton]
  simp

/-- The window was opened by a past hit and has counted past hits only. -/
def Counted (w : Nat) (past : List Nat) (b : Option Bucket) : Prop :=
  ∀ e ∈ b, e.start ∈ past ∧ e.count ≤ during e.start w past

/-- The next hit keeps to that, with itself as one more of the past. -/
theorem Counted.hit {past : List Nat} {t : Nat} {b : Option Bucket} (hcounted : Counted w past b)
    (hpast : ∀ u ∈ past, u ≤ t) : Counted w (past ++ [t]) (some (hit w 0 t b)) := by
  intro e' he'
  obtain rfl := Option.mem_some.mp he'
  have hopened : t ∈ past ++ [t] ∧ 1 ≤ during t w (past ++ [t]) := by
    refine ⟨List.mem_append_right _ List.mem_cons_self, ?_⟩
    rw [during_snoc, if_pos ⟨Nat.le_refl t, Nat.le_add_right t w⟩]
    omega
  cases b with
  | none =>
      rw [hit_none]
      exact hopened
  | some e =>
      obtain ⟨hstart, hcount⟩ := hcounted e rfl
      have hle := hpast _ hstart
      by_cases hwindow : t - e.start ≤ w
      · rw [hit_kept hwindow, Nat.mod_zero]
        refine ⟨List.mem_append_left _ hstart, ?_⟩
        dsimp only
        rw [during_snoc, if_pos ⟨hle, by omega⟩]
        omega
      · rw [hit_reset (Nat.lt_of_not_le hwindow)]
        exact hopened

/-- A counter modulo more than it counts up to counts as one that never wraps around. -/
theorem hit_eq_of_lt {t : Nat} {b : Option Bucket} (h : (hit w 0 t b).count < M) :
    hit w M t b = hit w 0 t b := by
  unfold hit at h ⊢
  simp only [Nat.mod_zero] at h ⊢
  rw [Nat.mod_eq_of_lt h]

theorem trace_eq_of_counted (ts : List Nat) :
    ∀ (past : List Nat) (b : Option Bucket), Counted w past b → (past ++ ts).Pairwise (· ≤ ·) →
      (∀ a, during a w (past ++ ts) < M) → trace w M max b ts = trace w 0 max b ts := by
  induction ts with
  | nil => intro past b _ _ _; rfl
  | cons t rest ih =>
      intro past b hcounted hsorted hfew
      have hjoined : past ++ t :: rest = past ++ [t] ++ rest := by simp
      have hpast : ∀ u ∈ past, u ≤ t := by
        intro u hu
        exact (List.pairwise_append.mp hsorted).2.2 u hu t List.mem_cons_self
      rw [hjoined] at hsorted hfew
      have hnext := hcounted.hit hpast
      have hlt : (hit w 0 t b).count < M := by
        have hseen := (hnext _ rfl).2
        have hall := hfew (hit w 0 t b).start
        have hmono : during (hit w 0 t b).start w (past ++ [t]) ≤
            during (hit w 0 t b).start w (past ++ [t] ++ rest) :=
          (List.sublist_append_left _ rest).countP_le
        omega
      rw [trace, trace, hit_eq_of_lt hlt, ih _ _ hnext hsorted hfew]

/-- A counter with more values than any window has hits never wraps around. -/
theorem trace_eq_of_few {ts : List Nat} (hsorted : ts.Pairwise (· ≤ ·))
    (hfew : ∀ a, during a w ts < M) : trace w M max none ts = trace w 0 max none ts := by
  apply trace_eq_of_counted ts [] none
  · intro e he
    cases he
  · exact hsorted
  · exact hfew

end Bound

end FixedWindow
