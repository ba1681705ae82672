/-
JSON values in canonical form.

A map type keeps its keys in order, each of them once, at every depth of a value.
Such a value is determined by what its lookups answer, so two maps that agree on
every key are the same map, and a map that is built up in another order is still
the same.  Setting and removing a key keep the form.
-/
import Numu.Lib.Json

namespace JsonMap

/-- The keys are in order, each of them once. -/
def Sorted (m : JsonMap) : Prop := (keys m).Pairwise (· < ·)

instance (m : JsonMap) : Decidable (Sorted m) :=
  inferInstanceAs (Decidable ((keys m).Pairwise (· < ·)))

theorem sorted_cons {f : String × Json} {m : JsonMap} :
    Sorted (f :: m) ↔ (∀ k ∈ keys m, f.1 < k) ∧ Sorted m := List.pairwise_cons

theorem Sorted.nodup {m : JsonMap} (h : Sorted m) : (keys m).Nodup := by
  refine List.Pairwise.imp ?_ h
  intro a b hlt hc
  subst hc
  exact String.lt_irrefl a hlt

theorem get?_eq_none {m : JsonMap} {k : String} : get? m k = none ↔ k ∉ keys m := by
  rw [mem_keys, ← Option.isSome_iff_exists, Bool.not_eq_true, Option.isSome_eq_false_iff,
    Option.isNone_iff_eq_none]

theorem mem_of_get? {m : JsonMap} {k : String} {v : Json} (h : get? m k = some v) :
    (k, v) ∈ m := by
  obtain ⟨f, hf, rfl⟩ := Option.map_eq_some_iff.mp h
  have hkey : f.1 = k := by simpa using List.find?_some hf
  rw [← hkey]
  exact List.mem_of_find?_eq_some hf

theorem get?_of_mem {m : JsonMap} (h : (keys m).Nodup) {f : String × Json} (hf : f ∈ m) :
    get? m f.1 = some f.2 := by
  obtain ⟨v, hv⟩ := mem_keys.mp (List.mem_map.mpr ⟨f, hf, rfl⟩)
  have hsame : (f.1, v) = f := List.inj_on_of_nodup_map h (mem_of_get? hv) hf rfl
  rw [hv, ← hsame]

/-- Maps in order that answer alike are the same. -/
theorem Sorted.ext : ∀ {a b : JsonMap}, Sorted a → Sorted b → (∀ k, get? a k = get? b k) → a = b := by
  intro a
  induction a with
  | nil =>
      intro b _ _ h
      cases b with
      | nil => rfl
      | cons g n =>
          have hg := h g.1
          rw [get?_nil, get?_cons, if_pos rfl] at hg
          simp at hg
  | cons f m ih =>
      intro b ha hb h
      obtain ⟨k, v⟩ := f
      obtain ⟨hfirst, hm⟩ := sorted_cons.mp ha
      cases b with
      | nil =>
          have hk := h k
          rw [get?_nil, get?_cons, if_pos rfl] at hk
          simp at hk
      | cons g n =>
          obtain ⟨l, w⟩ := g
          obtain ⟨hfirst', hn⟩ := sorted_cons.mp hb
          -- Each head is among the keys of the other map, and none of these is below its head.
          have hmem : ∀ c, c ∈ keys ((k, v) :: m) ↔ c ∈ keys ((l, w) :: n) := by
            intro c
            rw [mem_keys, mem_keys, h c]
          have hkl : k = l := by
            rcases List.mem_cons.mp ((hmem k).mp List.mem_cons_self) with hk | hk
            · exact hk
            rcases List.mem_cons.mp ((hmem l).mpr List.mem_cons_self) with hl | hl
            · exact hl.symm
            · exact absurd (String.lt_trans (hfirst l hl) (hfirst' k hk)) (String.lt_irrefl k)
          subst hkl
          have hv := h k
          rw [get?_cons, get?_cons, if_pos rfl, if_pos rfl, Option.some.injEq] at hv
          subst hv
          have hrest : ∀ c, get? m c = get? n c := by
            intro c
            by_cases hc : k = c
            · subst hc
              rw [get?_eq_none.mpr fun hk => String.lt_irrefl k (hfirst k hk),
                get?_eq_none.mpr fun hk => String.lt_irrefl k (hfirst' k hk)]
            · have hget := h c
              rw [get?_cons, get?_cons, if_neg hc, if_neg hc] at hget
              exact hget
          rw [ih hm hn hrest]

theorem mem_keys_insert {m : JsonMap} {k c : String} {v : Json} :
    c ∈ keys (m.insert k v) ↔ c = k ∨ c ∈ keys m := by
  rw [mem_keys, mem_keys, get?_insert]
  by_cases hc : k = c
  · simp [hc]
  · have hne : c ≠ k := fun h => hc h.symm
    rw [if_neg hc, or_iff_right hne]

theorem Sorted.insert {m : JsonMap} (h : Sorted m) (k : String) (v : Json) :
    Sorted (m.insert k v) := by
  induction m with
  | nil => exact List.pairwise_singleton _ _
  | cons f rest ih =>
      obtain ⟨l, w⟩ := f
      obtain ⟨hfirst, hrest⟩ := sorted_cons.mp h
      rw [JsonMap.insert]
      by_cases hkl : k = l
      · subst hkl
        rw [if_pos rfl]
        exact sorted_cons.mpr ⟨hfirst, hrest⟩
      rw [if_neg hkl]
      by_cases hlt : k < l ∧ k ∉ keys rest
      · rw [if_pos hlt]
        refine sorted_cons.mpr ⟨fun c hc => ?_, h⟩
        rcases List.mem_cons.mp hc with rfl | hc
        · exact hlt.1
        · exact String.lt_trans hlt.1 (hfirst c hc)
      · rw [if_neg hlt]
        have habove : l < k := by
          by_contra hnot
          have hle : k ≤ l := String.not_lt.mp hnot
          have hbelow : k < l := by
            by_contra hc
            exact hkl (String.le_antisymm hle (String.not_lt.mp hc))
          refine hlt ⟨hbelow, fun hmem => ?_⟩
          exact String.lt_irrefl k (String.lt_trans hbelow (hfirst k hmem))
        refine sorted_cons.mpr ⟨fun c hc => ?_, ih hrest⟩
        rcases mem_keys_insert.mp hc with rfl | hc
        · exact habove
        · exact hfirst c hc

theorem Sorted.filter {m : JsonMap} (h : Sorted m) (p : String × Json → Bool) :
    Sorted (m.filter p) := List.Pairwise.sublist (List.filter_sublist.map Prod.fst) h

theorem Sorted.remove {m : JsonMap} (h : Sorted m) (k : String) : Sorted (m.remove k) :=
  h.filter _

/-- What is left of a map when a key decides whether its field stays. -/
theorem get?_filter_key (m : JsonMap) (p : String → Bool) (k : String) :
    get? (m.filter fun f => p f.1) k = if p k = true then get? m k else none := by
  induction m with
  | nil => simp
  | cons f rest ih =>
      obtain ⟨l, w⟩ := f
      by_cases hl : p l = true
      · rw [List.filter_cons_of_pos (by simpa using hl), get?_cons, get?_cons, ih]
        by_cases hk : l = k
        · rw [if_pos hk, if_pos hk, ← hk, if_pos hl]
        · rw [if_neg hk, if_neg hk]
      · rw [List.filter_cons_of_neg (by simpa using hl), ih, get?_cons]
        by_cases hk : l = k
        · rw [← hk, if_neg hl, if_neg hl]
        · rw [if_neg hk]

end JsonMap

namespace Json

/-! ### Values -/

mutual

/-- Every object in the value has its keys in order. -/
def Canonical : Json → Prop
  | .arr items => CanonicalItems items
  | .obj m => JsonMap.Sorted m ∧ CanonicalFields m
  | .null | .bool _ | .num _ | .str _ => True

def CanonicalItems : List Json → Prop
  | [] => True
  | v :: rest => v.Canonical ∧ CanonicalItems rest

def CanonicalFields : List (String × Json) → Prop
  | [] => True
  | (_, v) :: rest => v.Canonical ∧ CanonicalFields rest

end

theorem canonicalFields_iff {m : List (String × Json)} :
    CanonicalFields m ↔ ∀ f ∈ m, f.2.Canonical := by
  induction m with
  | nil => simp [CanonicalFields]
  | cons f rest ih =>
      obtain ⟨k, v⟩ := f
      rw [CanonicalFields, ih, List.forall_mem_cons]

theorem canonical_obj {m : JsonMap} :
    (Json.obj m).Canonical ↔ m.Sorted ∧ ∀ f ∈ m, f.2.Canonical := by
  rw [Canonical, canonicalFields_iff]

/-- The fields of a canonical value are in order. -/
theorem Canonical.sorted {v : Json} (h : v.Canonical) : v.asMap.Sorted := by
  cases v with
  | obj m => exact (canonical_obj.mp h).1
  | null | bool _ | num _ | str _ | arr _ => exact List.Pairwise.nil

theorem Canonical.get? {v w : Json} {k : String} (h : v.Canonical) (hk : v.get? k = some w) :
    w.Canonical := by
  cases v with
  | obj m => exact (canonical_obj.mp h).2 _ (JsonMap.mem_of_get? hk)
  | null | bool _ | num _ | str _ | arr _ => simp [Json.get?, asMap] at hk

theorem Canonical.getD_null {v : Json} (h : v.Canonical) (k : String) :
    ((v.get? k).getD .null).Canonical := by
  cases hget : v.get? k with
  | none => exact trivial
  | some w => exact h.get? hget

/-- The fields of a canonical value form a canonical object. -/
theorem Canonical.asObject {v : Json} (h : v.Canonical) : (Json.obj v.asMap).Canonical := by
  cases v with
  | obj m => exact h
  | null | bool _ | num _ | str _ | arr _ => exact canonical_obj.mpr ⟨List.Pairwise.nil, by simp [asMap]⟩

theorem Canonical.insert {m : JsonMap} {v : Json} (h : (Json.obj m).Canonical)
    (hv : v.Canonical) (k : String) : (Json.obj (m.insert k v)).Canonical := by
  obtain ⟨hsorted, hfields⟩ := canonical_obj.mp h
  have hset := hsorted.insert k v
  refine canonical_obj.mpr ⟨hset, fun f hf => ?_⟩
  have hget := JsonMap.get?_insert m k v f.1
  rw [JsonMap.get?_of_mem hset.nodup hf] at hget
  by_cases hk : k = f.1
  · rw [if_pos hk, Option.some.injEq] at hget
    rw [hget]
    exact hv
  · rw [if_neg hk] at hget
    exact hfields _ (JsonMap.mem_of_get? hget.symm)

theorem Canonical.remove {m : JsonMap} (h : (Json.obj m).Canonical) (k : String) :
    (Json.obj (m.remove k)).Canonical := by
  obtain ⟨hsorted, hfields⟩ := canonical_obj.mp h
  refine canonical_obj.mpr ⟨hsorted.remove k, fun f hf => ?_⟩
  exact hfields f (List.mem_of_mem_filter hf)

theorem eq_obj {v : Json} (h : v.isObject = true) : ∃ m, v = .obj m := by
  cases v with
  | obj m => exact ⟨m, rfl⟩
  | null | bool _ | num _ | str _ | arr _ => simp [isObject] at h

/-- A canonical object is determined by its members. -/
theorem Canonical.ext {v w : Json} (hv : v.Canonical) (hw : w.Canonical)
    (hvo : v.isObject = true) (hwo : w.isObject = true) (h : ∀ k, v.get? k = w.get? k) : v = w := by
  obtain ⟨m, rfl⟩ := eq_obj hvo
  obtain ⟨n, rfl⟩ := eq_obj hwo
  have hsame : m = n := JsonMap.Sorted.ext hv.sorted hw.sorted h
  rw [hsame]

/-- A value is smaller than the object it is a member of. -/
theorem sizeOf_member {v w : Json} {k : String} (h : v.get? k = some w) : sizeOf w < sizeOf v := by
  cases v with
  | obj m =>
      have hmem : sizeOf (k, w) < sizeOf m := List.sizeOf_lt_of_mem (JsonMap.mem_of_get? h)
      have hpair : sizeOf (k, w) = 1 + sizeOf k + sizeOf w := Prod.mk.sizeOf_spec k w
      have hobj : sizeOf (Json.obj m) = 1 + sizeOf m := Json.obj.sizeOf_spec m
      omega
  | null | bool _ | num _ | str _ | arr _ => simp [Json.get?, asMap] at h

/-- What holds of a value when it holds of its members holds of every value. -/
theorem members_induction {P : Json → Prop}
    (h : ∀ v, (∀ k w, v.get? k = some w → P w) → P v) (v : Json) : P v := by
  induction hn : sizeOf v using Nat.strongRecOn generalizing v with
  | ind n ih =>
      subst hn
      exact h v fun k w hw => ih (sizeOf w) (sizeOf_member hw) w rfl

end Json
