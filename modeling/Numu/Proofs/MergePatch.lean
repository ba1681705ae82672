/-
JSON Merge Patch.

The RFC says what a patch makes of each key: a null removes it, another value is
merged into what was there, and a key the patch leaves out stays.  The code walks
the patch and edits one map, removing and inserting as it goes.  On canonical
values there is exactly one function that does what the RFC says, and the code is
it.  Applying a patch a second time changes nothing.
-/
import Numu.Lib.Canonical
import Numu.Proofs.FieldPlane

namespace Numu

/-! ### What the RFC says -/

/-- What a merge makes of the value of a key, given what the patch has there. -/
def mergedValue (F : Json → Json → Json) (old : Option Json) : Option Json → Option Json
  | none => old
  | some .null => none
  | some v => some (F (old.getD .null) v)

/--
`MergePatch` of RFC 7386.  A patch that is no object replaces the target; an object is merged into
the target's fields, of which a target that is no object has none.
-/
structure Rfc7386 (F : Json → Json → Json) : Prop where
  replaces : ∀ t p : Json, p.isObject = false → F t p = p
  merges : ∀ t : Json, t.Canonical → ∀ pm : JsonMap, (Json.obj pm).Canonical →
    (F t (.obj pm)).isObject = true ∧ (F t (.obj pm)).Canonical ∧
      ∀ k, (F t (.obj pm)).get? k = mergedValue F (t.get? k) (JsonMap.get? pm k)

theorem mergedValue_some {F : Json → Json → Json} {old : Option Json} {v : Json} :
    mergedValue F old (some v) = if v = .null then none else some (F (old.getD .null) v) := by
  cases v with
  | null => rfl
  | bool _ | num _ | str _ | arr _ | obj _ => simp [mergedValue]

/-! ### What the code does -/

theorem mergePatch_replaces (t : Json) {p : Json} (h : p.isObject = false) :
    mergePatch t p = p := by
  cases p with
  | obj m => simp [Json.isObject] at h
  | null | bool _ | num _ | str _ | arr _ => simp [mergePatch]

/-- The value under a key after a merge. -/
theorem get?_mergePatch (t : Json) {pm : JsonMap} (hnodup : (JsonMap.keys pm).Nodup) (k : String) :
    (mergePatch t (.obj pm)).get? k = mergedValue mergePatch (t.get? k) (JsonMap.get? pm k) := by
  rw [mergePatch, Json.get?_obj]
  cases hk : JsonMap.get? pm k with
  | none => exact get?_mergeFields_other k pm t.asMap (JsonMap.get?_eq_none.mp hk)
  | some w =>
      rw [get?_mergeFields_named pm t.asMap hnodup hk, mergedValue_some]
      rfl

/-- Merging canonical values into canonical fields leaves canonical fields. -/
theorem canonical_mergeFields (pm : List (String × Json))
    (hpm : ∀ f ∈ pm, ∀ t : Json, t.Canonical → (mergePatch t f.2).Canonical) :
    ∀ m : JsonMap, (Json.obj m).Canonical → (Json.obj (mergeFields m pm)).Canonical := by
  induction pm with
  | nil =>
      intro m hm
      rw [mergeFields]
      exact hm
  | cons f rest ih =>
      intro m hm
      obtain ⟨k, v⟩ := f
      have hrest := ih fun g hg => hpm g (List.mem_cons_of_mem _ hg)
      by_cases hv : v = .null
      · rw [hv, mergeFields_null]
        exact hrest _ (hm.remove k)
      · rw [mergeFields_value m k rest hv]
        refine hrest _ ((hm.remove k).insert ?_ k)
        exact hpm (k, v) List.mem_cons_self _ (hm.getD_null k)

/-- A merge of canonical values is canonical. -/
theorem canonical_mergePatch (p : Json) :
    ∀ t : Json, t.Canonical → p.Canonical → (mergePatch t p).Canonical := by
  induction p using Json.members_induction with
  | h p ih =>
      intro t ht hp
      by_cases hobj : p.isObject = true
      · obtain ⟨pm, rfl⟩ := Json.eq_obj hobj
        obtain ⟨hsorted, hfields⟩ := Json.canonical_obj.mp hp
        rw [mergePatch]
        refine canonical_mergeFields pm (fun f hf u hu => ?_) t.asMap ht.asObject
        exact ih f.1 f.2 (JsonMap.get?_of_mem hsorted.nodup hf) u hu (hfields f hf)
      · rw [mergePatch_replaces t (by simpa using hobj)]
        exact hp

theorem mergePatch_rfc7386 : Rfc7386 mergePatch where
  replaces := fun t _ h => mergePatch_replaces t h
  merges := fun t ht pm hpm => by
    refine ⟨by rw [mergePatch]; rfl, canonical_mergePatch _ t ht hpm, fun k => ?_⟩
    exact get?_mergePatch t hpm.sorted.nodup k

/-- There is only one such function. -/
theorem Rfc7386.unique {F G : Json → Json → Json} (hF : Rfc7386 F) (hG : Rfc7386 G) (p : Json) :
    ∀ t : Json, t.Canonical → p.Canonical → F t p = G t p := by
  induction p using Json.members_induction with
  | h p ih =>
      intro t ht hp
      by_cases hobj : p.isObject = true
      · obtain ⟨pm, rfl⟩ := Json.eq_obj hobj
        obtain ⟨hFobj, hFcanon, hFget⟩ := hF.merges t ht pm hp
        obtain ⟨hGobj, hGcanon, hGget⟩ := hG.merges t ht pm hp
        refine hFcanon.ext hGcanon hFobj hGobj fun k => ?_
        rw [hFget, hGget]
        cases hk : JsonMap.get? pm k with
        | none => rfl
        | some v =>
            rw [mergedValue_some, mergedValue_some, ih k v hk _ (ht.getD_null k) (hp.get? hk)]
      · rw [hF.replaces t p (by simpa using hobj), hG.replaces t p (by simpa using hobj)]

/-- A patch applied again changes nothing. -/
theorem mergePatch_again (p : Json) :
    ∀ t : Json, t.Canonical → p.Canonical → mergePatch (mergePatch t p) p = mergePatch t p := by
  induction p using Json.members_induction with
  | h p ih =>
      intro t ht hp
      by_cases hobj : p.isObject = true
      · obtain ⟨pm, rfl⟩ := Json.eq_obj hobj
        have hnodup : (JsonMap.keys pm).Nodup := hp.sorted.nodup
        have honce := canonical_mergePatch _ t ht hp
        have hobject : ∀ u, (mergePatch u (.obj pm)).isObject = true := by
          intro u
          rw [mergePatch]
          rfl
        refine (canonical_mergePatch _ _ honce hp).ext honce (hobject _) (hobject _) fun k => ?_
        rw [get?_mergePatch _ hnodup, get?_mergePatch _ hnodup]
        cases hk : JsonMap.get? pm k with
        | none => rfl
        | some v =>
            rw [mergedValue_some, mergedValue_some]
            by_cases hv : v = .null
            · rw [if_pos hv, if_pos hv]
            · rw [if_neg hv, if_neg hv, Option.getD_some,
                ih k v hk _ (ht.getD_null k) (hp.get? hk)]
      · rw [mergePatch_replaces _ (by simpa using hobj), mergePatch_replaces _ (by simpa using hobj)]

/--
**The code's merge is the RFC's.**  It does what the RFC says, every function that does agrees with
it on canonical values, and it is idempotent in the patch.
-/
theorem mergePatch_implements_rfc7386 :
    Rfc7386 mergePatch ∧
      ∀ t p : Json, t.Canonical → p.Canonical →
        (∀ F, Rfc7386 F → mergePatch t p = F t p) ∧
        mergePatch (mergePatch t p) p = mergePatch t p := by
  refine ⟨mergePatch_rfc7386, fun t p ht hp => ⟨fun F hF => ?_, mergePatch_again p t ht hp⟩⟩
  exact mergePatch_rfc7386.unique hF p t ht hp

/-- A document, and a patch that edits it at two depths. -/
def patchTarget : Json :=
  .obj [("owner", .obj [("email", .str "a@example.com"), ("name", .str "Ann")]),
    ("title", .str "Crash")]

def nestedPatch : Json :=
  .obj [("labels", .arr [.str "bug"]),
    ("owner", .obj [("email", .null), ("team", .obj [("id", .str "T1"), ("lead", .null)])]),
    ("title", .null)]

theorem patchTarget_canonical : patchTarget.Canonical :=
  ⟨by decide, ⟨by decide, trivial, trivial, trivial⟩, trivial, trivial⟩

theorem nestedPatch_canonical : nestedPatch.Canonical :=
  ⟨by decide, ⟨trivial, trivial⟩,
    ⟨by decide, trivial, ⟨by decide, trivial, trivial, trivial⟩, trivial⟩, trivial, trivial⟩

/-- Nulls at depth remove, a new object loses its nulls, and the patch is idempotent. -/
theorem nested_patch_applied :
    mergePatch patchTarget nestedPatch =
        .obj [("labels", .arr [.str "bug"]),
          ("owner", .obj [("name", .str "Ann"), ("team", .obj [("id", .str "T1")])])] ∧
      mergePatch (mergePatch patchTarget nestedPatch) nestedPatch =
        mergePatch patchTarget nestedPatch :=
  ⟨by decide, (mergePatch_implements_rfc7386.2 patchTarget nestedPatch patchTarget_canonical
    nestedPatch_canonical).2⟩

end Numu
