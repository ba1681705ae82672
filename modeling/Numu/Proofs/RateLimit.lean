/-
The limiter answers as one that forgets nothing.

Eviction takes away only buckets whose window is over, and a bucket whose window is
over is reset before it counts: so it makes no difference to the answer whether it
is still there.  The relation between the two maps is that every key has the same
bucket as long as that bucket is open.

Without eviction the calls of one key are hits in fixed windows, whatever the calls
of other keys, so the bound on an interval is the one of `FixedWindow`.

What eviction does not do is bound the map.  It takes away no bucket that is open,
so the map holds at most 100001 as long as no key comes in that finds more than
100000 others with theirs open, and not a moment longer.
-/
import Mathlib.Data.Finset.Card
import Numu.Api.RateLimit

namespace Numu

open FixedWindow

/-! ### One key -/

/-- The bucket of a key. -/
def bucketOf (map : Buckets) (key : String) : Option Bucket := (map.find? key).map Prod.snd

/-- When a key was called. -/
def timesOf (key : String) (calls : List Call) : List Nat :=
  (calls.filter fun c => decide (c.key = key)).map Call.now

/-- The answers to the calls of a key. -/
def answersOf (key : String) (hist : List (Call × Bool)) : List (Nat × Bool) :=
  (hist.filter fun x => decide (x.1.key = key)).map fun x => (x.1.now, x.2)

section Step

variable {l : RateLimiter} {now : Nat} {map : Buckets}

theorem bucketOf_upsert (key : String) (e : Bucket) (key' : String) :
    bucketOf (map.upsert (key, e)) key' = if key = key' then some e else bucketOf map key' := by
  unfold bucketOf
  rw [Table.find?_upsert]
  by_cases hkey : key = key'
  · rw [if_pos hkey, if_pos hkey]
    rfl
  · rw [if_neg hkey, if_neg hkey]

/-- A record is a hit in the bucket of the key. -/
theorem RateLimiter.record_eq (key : String) :
    l.record key now map =
      (decide ((hit l.window 4294967296 now (bucketOf map key)).count ≤ l.max),
        map.upsert (key, hit l.window 4294967296 now (bucketOf map key))) := rfl

/-- Eviction takes away no bucket that is open. -/
theorem RateLimiter.current_evict (key : String) :
    current l.window now (bucketOf (l.evict now map) key) =
      current l.window now (bucketOf map key) := by
  unfold evict
  split
  · have hfilter : bucketOf (map.filter fun row => decide (now - row.2.start ≤ l.window)) key =
        current l.window now (bucketOf map key) := by
      unfold bucketOf current
      rw [Table.find?_filter, Option.filter_map]
      rfl
    rw [hfilter, current_current (Nat.le_refl now)]
  · rfl

end Step

/-! ### Two maps with the same open buckets -/

/-- Every key has the same bucket, as far as it is open. -/
def Alike (w now : Nat) (map map' : Buckets) : Prop :=
  ∀ key, current w now (bucketOf map key) = current w now (bucketOf map' key)

section Alike

variable {l : RateLimiter} {now : Nat} {map map' : Buckets}

theorem Alike.later {w later : Nat} (h : Alike w now map map') (hle : now ≤ later) :
    Alike w later map map' := by
  intro key
  rw [← current_current hle, h key, current_current hle]

theorem Alike.evict (h : Alike l.window now map map') :
    Alike l.window now (l.evict now map) map' := by
  intro key
  rw [RateLimiter.current_evict, h key]

/-- A record answers the same and leaves the maps alike. -/
theorem Alike.record (h : Alike l.window now map map') (key : String) :
    (l.record key now map).1 = (l.record key now map').1 ∧
      Alike l.window now (l.record key now map).2 (l.record key now map').2 := by
  have hhit : hit l.window 4294967296 now (bucketOf map key) =
      hit l.window 4294967296 now (bucketOf map' key) := by
    rw [← hit_current, h key, hit_current]
  rw [RateLimiter.record_eq, RateLimiter.record_eq, hhit]
  refine ⟨rfl, ?_⟩
  intro key'
  rw [bucketOf_upsert, bucketOf_upsert]
  by_cases hkey : key = key'
  · rw [if_pos hkey, if_pos hkey]
  · rw [if_neg hkey, if_neg hkey]
    exact h key'

/-- A run with eviction answers as the one without and leaves the maps alike. -/
theorem Alike.run (calls : List Call) :
    ∀ {now : Nat} {map map' : Buckets}, Alike l.window now map map' →
      (calls.Pairwise fun c d => c.now ≤ d.now) → (∀ c ∈ calls, now ≤ c.now) →
      answers l.allow map calls = answers l.record map' calls ∧
        ∀ later, now ≤ later → (∀ c ∈ calls, c.now ≤ later) →
          Alike l.window later (bucketsAfter l.allow map calls)
            (bucketsAfter l.record map' calls) := by
  induction calls with
  | nil =>
      intro now map map' halike _ _
      exact ⟨rfl, fun later hle _ => halike.later hle⟩
  | cons c rest ih =>
      intro now map map' halike hsorted hfrom
      obtain ⟨hle, hrest⟩ := List.pairwise_cons.mp hsorted
      have hnow := halike.later (hfrom c List.mem_cons_self)
      obtain ⟨hanswer, hnext⟩ := hnow.evict.record c.key
      obtain ⟨hanswers, hafter⟩ := ih hnext hrest hle
      constructor
      · show (c, (l.allow c.key c.now map).1) :: _ = _
        rw [answers, ← hanswers, ← hanswer]
        rfl
      · intro later _ hto
        exact hafter later (hto c List.mem_cons_self)
          fun d hd => hto d (List.mem_cons_of_mem _ hd)

end Alike

/-! ### The answers to one key -/

section Answers

variable {l : RateLimiter}

/-- Without eviction the calls of a key are hits in windows of its own. -/
theorem answersOf_record (key : String) (calls : List Call) :
    ∀ map, answersOf key (answers l.record map calls) =
      trace l.window 4294967296 l.max (bucketOf map key) (timesOf key calls) := by
  induction calls with
  | nil => intro map; rfl
  | cons c rest ih =>
      intro map
      have hnext := ih (l.record c.key c.now map).2
      unfold answersOf timesOf at hnext ⊢
      rw [answers]
      rw [RateLimiter.record_eq] at hnext ⊢
      dsimp only at hnext ⊢
      rw [bucketOf_upsert] at hnext
      by_cases hkey : c.key = key
      · subst hkey
        rw [if_pos rfl] at hnext
        rw [List.filter_cons_of_pos (by simp), List.filter_cons_of_pos (by simp), List.map_cons,
          List.map_cons, hnext, trace]
      · rw [if_neg hkey] at hnext
        rw [List.filter_cons_of_neg (by simpa using hkey),
          List.filter_cons_of_neg (by simpa using hkey), hnext]

theorem timesOf_sorted {calls : List Call} (hsorted : calls.Pairwise fun c d => c.now ≤ d.now)
    (key : String) : (timesOf key calls).Pairwise (· ≤ ·) :=
  List.pairwise_map.mpr (hsorted.filter _)

theorem during_timesOf (key : String) (calls : List Call) (a w : Nat) :
    during a w (timesOf key calls) =
      calls.countP fun c => decide (c.key = key ∧ a ≤ c.now ∧ c.now ≤ a + w) := by
  unfold during timesOf
  rw [List.countP_map, List.countP_filter]
  congr 1
  funext c
  simp [Bool.and_comm]

theorem allowedIn_answersOf (key : String) (hist : List (Call × Bool)) (a w : Nat) :
    allowedIn a w (answersOf key hist) = hist.countP fun x =>
      x.2 && decide (x.1.key = key ∧ a ≤ x.1.now ∧ x.1.now ≤ a + w) := by
  unfold allowedIn answersOf
  rw [List.countP_map, List.countP_filter]
  congr 1
  funext x
  by_cases hkey : x.1.key = key
  · simp [hkey]
  · simp [hkey]

end Answers

/-- **The limiter answers as the one without eviction, and no interval of one window lets
through more than twice the limit.** -/
theorem rate_limiter_correct (l : RateLimiter) (calls : List Call)
    (hsorted : calls.Pairwise fun c d => c.now ≤ d.now)
    (hfew : ∀ key a, (calls.countP fun c =>
      decide (c.key = key ∧ a ≤ c.now ∧ c.now ≤ a + l.window)) < 4294967296) :
    answers l.allow ∅ calls = answers l.record ∅ calls ∧
      ∀ key a, ((answers l.allow ∅ calls).countP fun x =>
        x.2 && decide (x.1.key = key ∧ a ≤ x.1.now ∧ x.1.now ≤ a + l.window)) ≤ 2 * l.max := by
  have halike : Alike l.window 0 ∅ ∅ := fun _ => rfl
  obtain ⟨hanswers, -⟩ := halike.run calls hsorted fun _ _ => Nat.zero_le _
  refine ⟨hanswers, ?_⟩
  intro key a
  have htimes := timesOf_sorted hsorted key
  have hcounts : ∀ a, during a l.window (timesOf key calls) < 4294967296 := by
    intro a
    rw [during_timesOf]
    exact hfew key a
  rw [hanswers, ← allowedIn_answersOf, answersOf_record]
  have hempty : bucketOf ∅ key = none := rfl
  rw [hempty, trace_eq_of_few htimes hcounts]
  exact allowedIn_le _ none htimes

/-- Two of three calls within a window, and one more when it is over. -/
theorem third_call_refused :
    (answers (RateLimiter.mk 2 60).allow ∅
        [⟨"a", 0⟩, ⟨"a", 20⟩, ⟨"a", 60⟩, ⟨"a", 61⟩]).map Prod.snd = [true, true, false, true] ∧
      ∀ key a, ((answers (RateLimiter.mk 2 60).allow ∅
        [⟨"a", 0⟩, ⟨"a", 20⟩, ⟨"a", 60⟩, ⟨"a", 61⟩]).countP fun x =>
          x.2 && decide (x.1.key = key ∧ a ≤ x.1.now ∧ x.1.now ≤ a + 60)) ≤ 4 := by
  have hbound := rate_limiter_correct ⟨2, 60⟩ [⟨"a", 0⟩, ⟨"a", 20⟩, ⟨"a", 60⟩, ⟨"a", 61⟩]
    (by decide) fun key a => Nat.lt_of_le_of_lt List.countP_le_length (by decide)
  exact ⟨by decide, hbound.2⟩

/-! ### The size of the map -/

/-- Is the window open that the last call of a key fell into? -/
def windowOpen (w : Nat) (key : String) (now : Nat) (calls : List Call) : Bool :=
  (openedAt w (timesOf key calls)).any fun s => decide (now - s ≤ w)

/-- The keys with their windows open. -/
def openKeys (w now : Nat) (calls : List Call) : Finset String :=
  (calls.map Call.key).toFinset.filter fun key => windowOpen w key now calls = true

section Size

variable {l : RateLimiter} {now : Nat}

theorem bucketsAfter_append (step : String → Nat → Buckets → Bool × Buckets) (map : Buckets)
    (calls : List Call) (c : Call) :
    bucketsAfter step map (calls ++ [c]) = (step c.key c.now (bucketsAfter step map calls)).2 := by
  unfold bucketsAfter
  rw [List.foldl_append, List.foldl_cons, List.foldl_nil]

theorem timesOf_append (key : String) (calls : List Call) (c : Call) :
    timesOf key (calls ++ [c]) = timesOf key calls ++ if c.key = key then [c.now] else [] := by
  unfold timesOf
  rw [List.filter_append, List.map_append]
  by_cases hkey : c.key = key
  · rw [if_pos hkey, List.filter_cons_of_pos (by simpa using hkey)]
    rfl
  · rw [if_neg hkey, List.filter_cons_of_neg (by simpa using hkey)]
    rfl

/-- Without eviction a key keeps the window that its last call fell into. -/
theorem start_after_record (key : String) (calls : List Call) :
    (bucketOf (bucketsAfter l.record ∅ calls) key).map Bucket.start =
      openedAt l.window (timesOf key calls) := by
  induction calls using List.reverseRecOn with
  | nil => rfl
  | append_singleton calls c ih =>
      rw [bucketsAfter_append, timesOf_append, RateLimiter.record_eq]
      dsimp only
      rw [bucketOf_upsert]
      by_cases hkey : c.key = key
      · subst hkey
        rw [if_pos rfl, if_pos rfl, openedAt_append, ← ih, Option.map_some, hit_start]
      · rw [if_neg hkey, if_neg hkey, ih, List.append_nil]

/-- What is open in the map is what the calls have open. -/
theorem isSome_current_after {calls : List Call}
    (hsorted : calls.Pairwise fun c d => c.now ≤ d.now) (hto : ∀ c ∈ calls, c.now ≤ now)
    (key : String) :
    (current l.window now (bucketOf (bucketsAfter l.allow ∅ calls) key)).isSome =
      windowOpen l.window key now calls := by
  have hempty : Alike l.window 0 ∅ ∅ := fun _ => rfl
  obtain ⟨-, hafter⟩ := hempty.run calls hsorted fun _ _ => Nat.zero_le _
  unfold windowOpen
  rw [hafter now (Nat.zero_le _) hto key, ← start_after_record]
  cases bucketOf (bucketsAfter l.record ∅ calls) key with
  | none => rfl
  | some e =>
      rw [current_some, Option.map_some, Option.any_some]
      by_cases hopen : now - e.start ≤ l.window
      · rw [if_pos hopen, decide_eq_true hopen]
        rfl
      · rw [if_neg hopen, decide_eq_false hopen]
        rfl

/-- The rows that an eviction keeps. -/
def openRows (w now : Nat) (map : Buckets) : Buckets :=
  map.filter fun row => decide (now - row.2.start ≤ w)

theorem has_openRows (map : Buckets) (key : String) :
    (openRows l.window now map).has key = (current l.window now (bucketOf map key)).isSome := by
  unfold openRows Table.has bucketOf current
  rw [Table.find?_filter, Option.filter_map, Option.isSome_map]
  rfl

theorem mem_openKeys {calls : List Call} {key : String} :
    key ∈ openKeys l.window now calls ↔ windowOpen l.window key now calls = true := by
  unfold openKeys
  rw [Finset.mem_filter, List.mem_toFinset]
  constructor
  · rintro ⟨-, hopen⟩
    exact hopen
  · intro hopen
    refine ⟨?_, hopen⟩
    by_contra habsent
    have hnone : timesOf key calls = [] := by
      unfold timesOf
      rw [List.filter_eq_nil_iff.mpr, List.map_nil]
      intro c hc hkey
      exact habsent (List.mem_map.mpr ⟨c, hc, by simpa using hkey⟩)
    unfold windowOpen at hopen
    rw [hnone] at hopen
    cases hopen

/-- An eviction keeps a row for every key with its window open. -/
theorem length_openRows {calls : List Call}
    (hsorted : calls.Pairwise fun c d => c.now ≤ d.now) (hto : ∀ c ∈ calls, c.now ≤ now) :
    (openRows l.window now (bucketsAfter l.allow ∅ calls)).rows.length =
      (openKeys l.window now calls).card := by
  have hkeys : openKeys l.window now calls =
      ((openRows l.window now (bucketsAfter l.allow ∅ calls)).rows.map Prod.fst).toFinset := by
    ext key
    rw [mem_openKeys, ← isSome_current_after hsorted hto, ← has_openRows, Table.has_iff,
      List.mem_toFinset, List.mem_map]
    rfl
  rw [hkeys, List.toFinset_card_of_nodup (Table.nodup _), List.length_map]

/-- A call adds a row unless its key has one that is not taken away first. -/
theorem length_allow (key : String) (map : Buckets) :
    (l.allow key now map).2.rows.length =
      (l.evict now map).rows.length + if (l.evict now map).has key = true then 0 else 1 := by
  show ((l.evict now map).upsert _).rows.length = _
  rw [Table.length_upsert]

/-- From a map of the size that is promised, a call leads to another such one unless it
brings a key that finds too many others open. -/
theorem length_after_call {calls : List Call} {c : Call}
    (hsorted : (calls ++ [c]).Pairwise fun c d => c.now ≤ d.now)
    (hsize : (bucketsAfter l.allow ∅ calls).rows.length ≤ 100001) :
    (bucketsAfter l.allow ∅ (calls ++ [c])).rows.length ≤ 100001 ↔
      windowOpen l.window c.key c.now calls = true ∨
        (openKeys l.window c.now calls).card ≤ 100000 := by
  obtain ⟨hcalls, -, hto⟩ := List.pairwise_append.mp hsorted
  have hto : ∀ d ∈ calls, d.now ≤ c.now := fun d hd => hto d hd c List.mem_cons_self
  have hopen := length_openRows (l := l) hcalls hto
  have hhas := (has_openRows _ c.key).trans (isSome_current_after (l := l) hcalls hto c.key)
  have hkept : (openKeys l.window c.now calls).card ≤
      (bucketsAfter l.allow ∅ calls).rows.length := by
    rw [← hopen]
    exact List.length_filter_le _ _
  rw [bucketsAfter_append, length_allow]
  by_cases hfull : 100000 < (bucketsAfter l.allow ∅ calls).rows.length
  · have hevict : l.evict c.now (bucketsAfter l.allow ∅ calls) =
        openRows l.window c.now (bucketsAfter l.allow ∅ calls) := if_pos hfull
    rw [hevict, hopen, hhas]
    by_cases hkey : windowOpen l.window c.key c.now calls = true
    · rw [if_pos hkey]
      exact ⟨fun _ => Or.inl hkey, fun _ => by omega⟩
    · rw [if_neg hkey]
      constructor
      · intro hle
        exact Or.inr (by omega)
      · rintro (hc | hle)
        · exact absurd hc hkey
        · omega
  · have hevict : l.evict c.now (bucketsAfter l.allow ∅ calls) =
        bucketsAfter l.allow ∅ calls := if_neg hfull
    rw [hevict]
    refine ⟨fun _ => Or.inr (by omega), fun _ => ?_⟩
    split
    · omega
    · omega

end Size

/-- **The map keeps to 100001 buckets as long as no call brings a key that finds more than
100000 others open, and no longer.** -/
theorem rate_limiter_bounded_iff (l : RateLimiter) (calls : List Call)
    (hsorted : calls.Pairwise fun c d => c.now ≤ d.now) :
    (∀ pre, pre <+: calls → (bucketsAfter l.allow ∅ pre).rows.length ≤ 100001) ↔
      ∀ pre c, pre ++ [c] <+: calls →
        windowOpen l.window c.key c.now pre = true ∨
          (openKeys l.window c.now pre).card ≤ 100000 := by
  constructor
  · intro hsize pre c hpre
    have hbefore := hsize pre ((List.prefix_append pre [c]).trans hpre)
    exact (length_after_call (hsorted.sublist hpre.sublist) hbefore).mp (hsize _ hpre)
  · intro hcall pre
    induction pre using List.reverseRecOn with
    | nil => intro _; exact Nat.zero_le _
    | append_singleton pre c ih =>
        intro hpre
        have hbefore := ih ((List.prefix_append pre [c]).trans hpre)
        exact (length_after_call (hsorted.sublist hpre.sublist) hbefore).mpr (hcall pre c hpre)

/-- Two keys, one of them once more when its window is over. -/
theorem two_clients_bounded :
    (bucketsAfter (RateLimiter.mk 2 60).allow ∅ [⟨"a", 0⟩, ⟨"b", 20⟩, ⟨"a", 61⟩]).rows.length = 2 ∧
      ∀ pre, pre <+: [⟨"a", 0⟩, ⟨"b", 20⟩, ⟨"a", 61⟩] →
        (bucketsAfter (RateLimiter.mk 2 60).allow ∅ pre).rows.length ≤ 100001 := by
  refine ⟨by decide, ?_⟩
  refine (rate_limiter_bounded_iff ⟨2, 60⟩ _ (by decide)).mpr fun pre c hpre => Or.inr ?_
  have hlength := hpre.length_le
  have hfilter : (openKeys 60 c.now pre).card ≤ (pre.map Call.key).toFinset.card :=
    Finset.card_filter_le _ _
  have hkeys := List.toFinset_card_le (pre.map Call.key)
  rw [List.length_map] at hkeys
  rw [List.length_append] at hlength
  simp only [List.length_cons, List.length_nil] at hlength
  show (openKeys 60 c.now pre).card ≤ 100000
  omega

/-! ### A flood -/

/-- Calls for so many keys, all at once. -/
def flood (n : Nat) : List Call :=
  (List.range n).map fun i => ⟨String.ofList (List.replicate i 'a'), 0⟩

/-- No window is over at the origin. -/
theorem RateLimiter.evict_zero (l : RateLimiter) (map : Buckets) : l.evict 0 map = map := by
  unfold evict
  split
  · apply Table.ext
    refine List.filter_eq_self.mpr fun row _ => ?_
    rw [Nat.zero_sub]
    exact decide_eq_true (Nat.zero_le _)
  · rfl

/-- Calls at one instant for different keys leave a bucket each. -/
theorem after_distinct (l : RateLimiter) (keys : List String) (hkeys : keys.Nodup) :
    (∀ key, (bucketsAfter l.allow ∅ (keys.map fun key => ⟨key, 0⟩)).has key = true ↔ key ∈ keys) ∧
      (bucketsAfter l.allow ∅ (keys.map fun key => ⟨key, 0⟩)).rows.length = keys.length := by
  induction keys using List.reverseRecOn with
  | nil =>
      refine ⟨fun key => ?_, rfl⟩
      rw [Table.has_iff]
      constructor
      · rintro ⟨row, hrow, -⟩
        exact absurd hrow List.not_mem_nil
      · intro hc
        exact absurd hc List.not_mem_nil
  | append_singleton keys key ih =>
      obtain ⟨hnodup, -, hfresh⟩ := List.nodup_append.mp hkeys
      obtain ⟨hhas, hlength⟩ := ih hnodup
      have hfree : ¬ (bucketsAfter l.allow ∅ (keys.map fun key => ⟨key, 0⟩)).has key = true :=
        fun hc => hfresh key ((hhas key).mp hc) key List.mem_cons_self rfl
      rw [List.map_append, List.map_singleton, bucketsAfter_append]
      constructor
      · intro key'
        show (Table.upsert (l.evict 0 _) _).has key' = true ↔ _
        rw [RateLimiter.evict_zero, Table.has_upsert, hhas, List.mem_append, List.mem_singleton,
          eq_comm]
      · rw [length_allow, RateLimiter.evict_zero, if_neg hfree, hlength, List.length_append,
          List.length_singleton]

/-- A flood is as large in the map as it is. -/
theorem length_after_flood (l : RateLimiter) (n : Nat) :
    (bucketsAfter l.allow ∅ (flood n)).rows.length = n := by
  have hkeys : ((List.range n).map fun i => String.ofList (List.replicate i 'a')).Nodup := by
    refine List.nodup_range.map fun i j hij => ?_
    have hlength := congrArg List.length (String.ofList_injective hij)
    rwa [List.length_replicate, List.length_replicate] at hlength
  obtain ⟨-, hlength⟩ := after_distinct l _ hkeys
  rw [List.map_map, List.length_map, List.length_range] at hlength
  exact hlength

/-- The buckets of 100002 clients that call at one instant are all kept. -/
theorem flood_overflows :
    ((flood 100002).Pairwise fun c d => c.now ≤ d.now) ∧
      (bucketsAfter (RateLimiter.mk 30 60).allow ∅ (flood 100002)).rows.length = 100002 ∧
      ¬ ∀ pre, pre <+: flood 100002 →
        (bucketsAfter (RateLimiter.mk 30 60).allow ∅ pre).rows.length ≤ 100001 := by
  have hlength := length_after_flood ⟨30, 60⟩ 100002
  refine ⟨?_, hlength, ?_⟩
  · exact List.pairwise_map.mpr (List.pairwise_of_forall fun _ _ => Nat.le_refl 0)
  · intro hbounded
    have hle := hbounded _ (List.prefix_refl _)
    omega

end Numu
