/-
What a row of `field_permissions` overrides.

A row is said to override the permission of one role on one field.  The gates do
not look at the caller's role: they compare the caller's rank with the lowest rank
that any row of the field permits, and with the class's floor when no row permits
any.  A row that permits is always obeyed.  A row that withholds is obeyed only
where every row that permits names a higher role, and, if there is none, where
the class withholds the field anyway.
-/
import Numu.Proofs.Options

namespace Numu

open Fallible Handler

/-! ### The floor of a field -/

/-- Some row of the field permits a role of this rank. -/
def Store.Permits (s : Store) (typeId field : String) (permits : FieldPermission → Bool)
    (r : I32) : Prop :=
  ∃ q ∈ s.fieldPermissions, q.typeId = typeId ∧ q.field = field ∧ permits q = true ∧
    s.rankOf q.role = some r

theorem mem_overrideRanks {s : Store} {typeId field : String} {permits : FieldPermission → Bool}
    {r : I32} : r ∈ s.overrideRanks typeId field permits ↔ s.Permits typeId field permits r := by
  unfold Store.overrideRanks
  rw [List.mem_filterMap]
  refine ⟨fun h => ?_, fun h => ?_⟩
  · obtain ⟨q, hq, hrank⟩ := h
    obtain ⟨hmem, hcond⟩ := List.mem_filter.mp hq
    simp only [Bool.and_eq_true, decide_eq_true_eq] at hcond
    exact ⟨q, hmem, hcond.1.1, hcond.1.2, hcond.2, hrank⟩
  · obtain ⟨q, hmem, htype, hfield, hpermits, hrank⟩ := h
    refine ⟨q, List.mem_filter.mpr ⟨hmem, ?_⟩, hrank⟩
    simp only [Bool.and_eq_true, decide_eq_true_eq]
    exact ⟨⟨htype, hfield⟩, hpermits⟩

/--
Every role that the rows of the field permit ranks above `r`, and where they permit none the floor
of the class does.
-/
structure Store.Withheld (s : Store) (typeId field : String) (permits : FieldPermission → Bool)
    (floor r : I32) : Prop where
  rows : ∀ q, s.Permits typeId field permits q → r < q
  byClass : (∀ q, ¬ s.Permits typeId field permits q) → r < floor

/-- A rank is below the lowest of a list, or the default when it is empty. -/
theorem lt_min?_getD {l : List I32} {floor r : I32} :
    r < l.min?.getD floor ↔ (∀ q ∈ l, r < q) ∧ (l = [] → r < floor) := by
  cases hmin : l.min? with
  | none =>
      obtain rfl := List.min?_eq_none_iff.mp hmin
      simp
  | some m =>
      obtain ⟨hm, hle⟩ := List.min?_eq_some_iff.mp hmin
      have hne : l ≠ [] := List.ne_nil_of_mem hm
      rw [Option.getD_some]
      exact ⟨fun hlt => ⟨fun q hq => lt_of_lt_of_le hlt (hle q hq), fun hc => absurd hc hne⟩,
        fun h => h.1 m hm⟩

theorem lt_floor_iff {s : Store} {typeId field : String} {permits : FieldPermission → Bool}
    {floor r : I32} :
    r < (s.overrideRanks typeId field permits).min?.getD floor ↔
      s.Withheld typeId field permits floor r := by
  rw [lt_min?_getD, List.eq_nil_iff_forall_not_mem]
  simp only [mem_overrideRanks]
  exact ⟨fun h => ⟨h.1, h.2⟩, fun h => ⟨h.rows, h.byClass⟩⟩

/-- A row that permits a role brings the floor down to it. -/
theorem floor_le_of_permits {s : Store} {typeId field : String}
    {permits : FieldPermission → Bool} {floor r : I32} (h : s.Permits typeId field permits r) :
    (s.overrideRanks typeId field permits).min?.getD floor ≤ r := by
  by_contra hlt
  exact lt_irrefl r ((lt_floor_iff.mp (not_le.mp hlt)).rows r h)

/-! ### One row -/

/-- The gates treat the field as the row says: for this caller, on this object. -/
structure RowObeyed (s : Store) (caller : Caller) (td : TypeDef) (x : String) (f : FieldDef)
    (p : FieldPermission) : Prop where
  read : ∀ data : Json, (data.get? f.field).isSome = true →
    ((∃ shown, exec (filterReadable caller td x data) s = (.ok shown, s) ∧
      shown.get? f.field = data.get? f.field) ↔ p.canRead = true)
  write : ∀ ctx : RequestCtx,
    exec (requireWrite caller td x [f.field] ctx) s = (.ok (), s) ↔ p.canWrite = true

section Row

variable {s : Store} {caller : Caller} {td : TypeDef} {x : String} {f : FieldDef}
  {p : FieldPermission} {r : I32}

theorem callerRank_of_effective (hplain : caller.isPlatformAdmin = false)
    (hrank : s.effectiveRank caller.actorId x = some r) : s.callerRank caller x = r := by
  unfold Store.callerRank
  rw [hplain, hrank]
  rfl

/-- The read filter keeps a present field exactly at or above its floor. -/
theorem kept_iff (hf : f ∈ td.fields) {data : Json} (hpresent : (data.get? f.field).isSome = true) :
    (∃ shown, exec (filterReadable caller td x data) s = (.ok shown, s) ∧
        shown.get? f.field = data.get? f.field) ↔
      (s.fieldFloors td.typeId f.field f.permClass).1 ≤ s.callerRank caller x := by
  obtain ⟨shown, hshown, hkept⟩ := exec_filterReadable caller td x s data
  refine ⟨fun h => ?_, fun h => ⟨shown, hshown, (hkept f hf hpresent).mp h⟩⟩
  obtain ⟨shown', hshown', hsame⟩ := h
  rw [hshown] at hshown'
  obtain rfl := Except.ok.inj (congrArg Prod.fst hshown')
  exact (hkept f hf hpresent).mpr hsame

/-- A permission of the row is the gate's answer exactly when it is given or withheld by all. -/
theorem permission_iff {permits : FieldPermission → Bool} {floor : I32}
    (hp : p ∈ s.fieldPermissions) (htype : p.typeId = td.typeId) (hfield : p.field = f.field)
    (hrole : s.rankOf p.role = some r) :
    ((s.overrideRanks td.typeId f.field permits).min?.getD floor ≤ r ↔ permits p = true) ↔
      (permits p = true ∨ s.Withheld td.typeId f.field permits floor r) := by
  by_cases hpermits : permits p = true
  · have hle : (s.overrideRanks td.typeId f.field permits).min?.getD floor ≤ r :=
      floor_le_of_permits ⟨p, hp, htype, hfield, hpermits, hrole⟩
    exact ⟨fun _ => Or.inl hpermits, fun _ => ⟨fun _ => hpermits, fun _ => hle⟩⟩
  · rw [← lt_floor_iff, ← not_le]
    refine ⟨fun h => Or.inr fun hle => hpermits (h.mp hle), fun h => ?_⟩
    rcases h with hc | hlt
    · exact absurd hc hpermits
    · exact ⟨fun hle => absurd hle hlt, fun hc => absurd hc hpermits⟩

/--
**A row is obeyed exactly when what it withholds is withheld by all.**  For a caller whose rank is
that of the row's role, each half of the row is obeyed when it permits, and otherwise only where
every permitting row names a higher role and, without one, the class withholds the field.
-/
theorem row_obeyed_iff (hf : f ∈ td.fields) (hp : p ∈ s.fieldPermissions)
    (htype : p.typeId = td.typeId) (hfield : p.field = f.field)
    (hplain : caller.isPlatformAdmin = false) (hrole : s.rankOf p.role = some r)
    (hrank : s.effectiveRank caller.actorId x = some r) :
    RowObeyed s caller td x f p ↔
      (p.canRead = true ∨ s.Withheld td.typeId f.field FieldPermission.canRead
        (classRanks f.permClass).1 r) ∧
      (p.canWrite = true ∨ s.Withheld td.typeId f.field FieldPermission.canWrite
        (classRanks f.permClass).2 r) := by
  have hcaller := callerRank_of_effective hplain hrank
  have hread : ∀ data : Json, (data.get? f.field).isSome = true →
      ((∃ shown, exec (filterReadable caller td x data) s = (.ok shown, s) ∧
        shown.get? f.field = data.get? f.field) ↔
        (s.overrideRanks td.typeId f.field FieldPermission.canRead).min?.getD
          (classRanks f.permClass).1 ≤ r) := by
    intro data hpresent
    rw [kept_iff hf hpresent, hcaller]
    rfl
  have hwrite : ∀ ctx : RequestCtx,
      exec (requireWrite caller td x [f.field] ctx) s = (.ok (), s) ↔
        (s.overrideRanks td.typeId f.field FieldPermission.canWrite).min?.getD
          (classRanks f.permClass).2 ≤ r := by
    intro ctx
    rw [requireWrite_one hf, hcaller]
    rfl
  rw [← permission_iff hp htype hfield hrole, ← permission_iff hp htype hfield hrole]
  refine ⟨fun h => ⟨?_, ?_⟩, fun h => ⟨fun data hpresent => ?_, fun ctx => ?_⟩⟩
  · have hpresent : ((Json.obj [(f.field, .null)]).get? f.field).isSome = true := by
      rw [Json.get?_obj, JsonMap.get?_cons, if_pos rfl]
      rfl
    rw [← hread _ hpresent]
    exact h.read _ hpresent
  · rw [← hwrite plainCtx]
    exact h.write plainCtx
  · rw [hread data hpresent]
    exact h.1
  · rw [hwrite ctx]
    exact h.2

end Row

/-! #### Rows for members -/

/-- Alice is a member of an actor's object, and one row speaks of members. -/
def overriddenStore (field : String) (canRead canWrite : Bool) : Store :=
  { sharedActorStore with
    fieldPermissions := ⟨[⟨"actor", field, "member", canRead, canWrite⟩], by simp⟩ }

def emailField : FieldDef := typeField "email" "Email" "text" false true 3 "owner_grade" (.obj [])

def displayNameField : FieldDef :=
  typeField "display_name" "Name" "text" true true 1 "standard" (.obj [])

/-- The row that lets members read the addresses is obeyed. -/
theorem granting_row_obeyed :
    RowObeyed (overriddenStore "email" true false) alice actorType "USR_x" emailField
      ⟨"actor", "email", "member", true, false⟩ := by
  refine (row_obeyed_iff (r := 2) (by decide) (by decide) rfl rfl rfl (by decide)
    (by decide)).mpr ⟨Or.inl rfl, Or.inr ⟨?_, fun _ => by decide⟩⟩
  rintro q ⟨p, hp, -, -, hpermits, -⟩
  obtain rfl := List.mem_singleton.mp hp
  simp at hpermits

/-- The row that denies members the display name changes nothing: they read and write it. -/
theorem denying_row_ignored :
    displayNameField ∈ actorType.fields ∧ alice.isPlatformAdmin = false ∧
      ⟨"actor", "display_name", "member", false, false⟩ ∈
        (overriddenStore "display_name" false false).fieldPermissions ∧
      (overriddenStore "display_name" false false).effectiveRank alice.actorId "USR_x" =
        (overriddenStore "display_name" false false).rankOf "member" ∧
      ¬ RowObeyed (overriddenStore "display_name" false false) alice actorType "USR_x"
        displayNameField ⟨"actor", "display_name", "member", false, false⟩ := by
  refine ⟨by decide, rfl, by decide, by decide, fun h => ?_⟩
  have hwritten : exec (requireWrite alice actorType "USR_x" ["display_name"] plainCtx)
      (overriddenStore "display_name" false false) =
      (.ok (), overriddenStore "display_name" false false) :=
    (requireWrite_one (f := displayNameField) (by decide)).mpr (by decide)
  exact absurd ((h.write plainCtx).mp hwritten) (by decide)

end Numu
