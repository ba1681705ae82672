/-
What a search tells about a field its caller may not read.

The index of a row holds every string of its data, and the title is picked from
its naming fields.  Neither asks the field gate, which every other read passes.  So
two stores that differ in one field of one entity answer alike only where that
entity cannot be among the results, or where the field leaves its texts as they
are.

Whatever the database makes of texts, a search that sees the same texts answers the
same; and where the texts differ there is a way to match and to rank that shows it
(`spotlight`).
-/
import Numu.Api.Search
import Numu.Proofs.FieldPlane

namespace Numu

open Fallible Handler

/-! ### One field changed -/

/-- The fields with one set, or taken out. -/
def setField (m : JsonMap) (field : String) : Option Json → JsonMap
  | some v => JsonMap.insert m field v
  | none => JsonMap.remove m field

/-- The data of the entity `x` with one field set or taken out; other rows as they are. -/
def EntityData.withField (d : EntityData) (x field : String) (v : Option Json) : EntityData :=
  if d.entityId = x then { d with data := .obj (setField d.data.asMap field v) } else d

theorem EntityData.withField_entityId (d : EntityData) (x field : String) (v : Option Json) :
    (d.withField x field v).entityId = d.entityId := by
  unfold EntityData.withField
  split <;> rfl

theorem EntityData.withField_typeId (d : EntityData) (x field : String) (v : Option Json) :
    (d.withField x field v).typeId = d.typeId := by
  unfold EntityData.withField
  split <;> rfl

theorem EntityData.withField_scopeParentId (d : EntityData) (x field : String) (v : Option Json) :
    (d.withField x field v).scopeParentId = d.scopeParentId := by
  unfold EntityData.withField
  split <;> rfl

/-- The store that differs in one field of one entity. -/
def Store.withField (s : Store) (x field : String) (v : Option Json) : Store :=
  { s with
    entityData := s.entityData.modify (fun d => d.withField x field v)
      fun d => d.withField_entityId x field v }

section OneField

variable {s : Store} {x field : String} {v : Option Json}

theorem Store.rows_withField :
    (s.withField x field v).entityData.rows =
      s.entityData.rows.map fun d => d.withField x field v := rfl

/-- Who reaches what does not depend on any field. -/
theorem Store.reach_withField (a : String) : (s.withField x field v).reach a = s.reach a := by
  have hchildren : (s.withField x field v).childrenOf = s.childrenOf := by
    funext p
    unfold Store.childrenOf
    rw [Store.rows_withField, List.filter_map, List.map_map]
    have hids : (EntityData.entityId ∘ fun d : EntityData => d.withField x field v) =
        EntityData.entityId := funext fun d => d.withField_entityId x field v
    have hparents : ((fun d : EntityData => decide (d.scopeParentId = some p)) ∘
        fun d : EntityData => d.withField x field v) =
          fun d => decide (d.scopeParentId = some p) := by
      funext d
      simp only [Function.comp, EntityData.withField_scopeParentId]
    rw [hids, hparents]
  unfold Store.reach
  rw [hchildren, Store.rows_withField, List.length_map]
  rfl

end OneField

/-! ### A search that sees the same texts -/

section Search

variable {ρ : Type} [LinearOrder ρ] {E : FullText ρ} {ctx : RequestCtx} {caller : Caller}
  {qp : SearchQ} {s : Store} {x field : String} {v : Option Json}

/-- The results of a search of the rows among `ids`. -/
def FullText.results (E : FullText ρ) (s : Store) (qp : SearchQ) (ids : List String) : List Json :=
  (E.rows s (qp.q.getD "") qp.typeId (some ids) (searchLimit qp)).map (E.resultJson (qp.q.getD ""))

/-- A search of a caller that is no admin: refused when blank, else the results within reach. -/
theorem exec_search (hadmin : caller.isPlatformAdmin = false) :
    (exec (search E ctx caller qp) s).1 =
      if blankQuery qp = true then
        .error ((AppError.badRequest "the `q` query param is required").withRequestId
          ctx.requestId)
      else .ok { status := 200, body := some (.mkObj [("query", .str (qp.q.getD "")),
        ("results", .arr (E.results s qp (s.reachableEntityIdsAny caller.actorId)))]) } := by
  unfold search
  cases hblank : blankQuery qp with
  | true => rfl
  | false =>
      simp only [Bool.not_false, ensure, if_true, hadmin, exec_bind, exec_pure]
      rfl

/-- Where every row is selected as before, and a selected one has the texts it had, the results
are the same. -/
theorem FullText.results_congr {ids : List String} (E : FullText ρ)
    (h : ∀ d ∈ s.entityData.rows,
      E.selects (qp.q.getD "") qp.typeId (some ids) (d.withField x field v) =
          E.selects (qp.q.getD "") qp.typeId (some ids) d ∧
        (E.selects (qp.q.getD "") qp.typeId (some ids) d = true →
          (d.withField x field v).data.strings = d.data.strings ∧
            E.titleOf (d.withField x field v) = E.titleOf d)) :
    E.results (s.withField x field v) qp ids = E.results s qp ids := by
  have hfilter : (s.withField x field v).entityData.rows.filter
      (E.selects (qp.q.getD "") qp.typeId (some ids)) =
        (s.entityData.rows.filter (E.selects (qp.q.getD "") qp.typeId (some ids))).map
          fun d => d.withField x field v := by
    rw [Store.rows_withField, List.filter_map]
    refine congrArg (List.map _) (List.filter_congr fun d hd => ?_)
    exact (h d hd).1
  have hsame : ∀ d ∈ s.entityData.rows.filter (E.selects (qp.q.getD "") qp.typeId (some ids)),
      (d.withField x field v).data.strings = d.data.strings ∧
        E.titleOf (d.withField x field v) = E.titleOf d := by
    intro d hd
    obtain ⟨hmem, hsel⟩ := List.mem_filter.mp hd
    exact (h d hmem).2 hsel
  unfold FullText.results FullText.rows
  rw [hfilter, ← List.map_insertionSort (E.Before (qp.q.getD "")) (E.Before (qp.q.getD "")),
    ← List.map_take, List.map_map]
  · refine List.map_congr_left fun d hd => ?_
    have hmem := (List.mem_insertionSort _).mp (List.mem_of_mem_take hd)
    obtain ⟨hstrings, htitle⟩ := hsame d hmem
    simp only [Function.comp, FullText.resultJson, EntityData.withField_entityId,
      EntityData.withField_typeId, hstrings, htitle]
  · intro a ha b hb
    unfold FullText.Before
    rw [(hsame a ha).1, (hsame b hb).1, EntityData.withField_entityId,
      EntityData.withField_entityId]

end Search

/-! ### A search that shows the difference -/

/-- A way to match and to read texts that puts one entity in front of all others. -/
def spotlight (x : String) (hits : List String → Bool) (textOf : Json → String)
    (title : Option String → Option String → Option String → String) : FullText Nat where
  hits := fun _ => hits
  rank := fun _ _ => 0
  place := fun id => if id = x then 0 else 1
  shown := fun _ => .null
  textOf := textOf
  title := fun a b c _ => title a b c

section Spotlight

variable {x : String} {hits : List String → Bool} {textOf : Json → String}
  {title : Option String → Option String → Option String → String} {s : Store} {qp : SearchQ}
  {ids : List String}

theorem searchLimit_pos (qp : SearchQ) : 1 ≤ (searchLimit qp).toNat := by
  unfold searchLimit
  omega

instance before_total {ρ : Type} [LinearOrder ρ] (E : FullText ρ) (q : String) :
    Std.Total (E.Before q) where
  total a b := by
    unfold FullText.Before
    rcases lt_trichotomy (E.rank q a.data.strings) (E.rank q b.data.strings) with hlt | heq | hgt
    · exact Or.inr (Or.inl hlt)
    · rcases Nat.le_total (E.place a.entityId) (E.place b.entityId) with hle | hle
      · exact Or.inl (Or.inr ⟨heq, hle⟩)
      · exact Or.inr (Or.inr ⟨heq.symm, hle⟩)
    · exact Or.inl (Or.inl hgt)

instance before_trans {ρ : Type} [LinearOrder ρ] (E : FullText ρ) (q : String) :
    IsTrans EntityData (E.Before q) where
  trans a b c hab hbc := by
    unfold FullText.Before at hab hbc ⊢
    rcases hab with hab | ⟨hab, hle⟩
    · rcases hbc with hbc | ⟨hbc, -⟩
      · exact Or.inl (hbc.trans hab)
      · exact Or.inl (hbc ▸ hab)
    · rcases hbc with hbc | ⟨hbc, hle'⟩
      · exact Or.inl (hab ▸ hbc)
      · exact Or.inr ⟨hab.trans hbc, hle.trans hle'⟩

/-- A selected row of the entity comes first. -/
theorem spotlight_head {d : EntityData} (hd : s.entityData.find? x = some d)
    (hsel : (spotlight x hits textOf title).selects (qp.q.getD "") qp.typeId (some ids) d = true) :
    ∃ rest, (spotlight x hits textOf title).rows s (qp.q.getD "") qp.typeId (some ids)
      (searchLimit qp) = d :: rest := by
  have hid : d.entityId = x := Table.find?_key hd
  have hmem : d ∈ (s.entityData.rows.filter ((spotlight x hits textOf title).selects
      (qp.q.getD "") qp.typeId (some ids))).insertionSort
        ((spotlight x hits textOf title).Before (qp.q.getD "")) :=
    (List.mem_insertionSort _).mpr (List.mem_filter.mpr ⟨Table.mem_of_find? hd, hsel⟩)
  have hsorted := List.pairwise_insertionSort
    ((spotlight x hits textOf title).Before (qp.q.getD ""))
    (s.entityData.rows.filter ((spotlight x hits textOf title).selects
      (qp.q.getD "") qp.typeId (some ids)))
  unfold FullText.rows
  cases hlist : (s.entityData.rows.filter ((spotlight x hits textOf title).selects
      (qp.q.getD "") qp.typeId (some ids))).insertionSort
        ((spotlight x hits textOf title).Before (qp.q.getD "")) with
  | nil =>
      rw [hlist] at hmem
      simp at hmem
  | cons h rest =>
      rw [hlist] at hmem hsorted
      -- Whatever stands first stands where the entity does, so it is the entity.
      have hfirst : h = d := by
        rcases List.mem_cons.mp hmem with heq | hrest
        · exact heq.symm
        · have hbefore := (List.pairwise_cons.mp hsorted).1 d hrest
          have hplace : (if h.entityId = x then 0 else 1) ≤ 0 := by
            rcases hbefore with hlt | ⟨-, hle⟩
            · exact absurd hlt (by simp [spotlight])
            · have hzero : (spotlight x hits textOf title).place d.entityId = 0 := if_pos hid
              rw [hzero] at hle
              exact hle
          have hx : h.entityId = x := by
            by_contra hne
            rw [if_neg hne] at hplace
            omega
          have hin : h ∈ s.entityData := by
            have hmem' : h ∈ h :: rest := List.mem_cons_self
            rw [← hlist, List.mem_insertionSort] at hmem'
            exact (List.mem_filter.mp hmem').1
          exact Option.some.inj ((Table.find?_eq_some.mpr ⟨hin, hx⟩).symm.trans hd)
      obtain ⟨n, hn⟩ : ∃ n, (searchLimit qp).toNat = n + 1 :=
        ⟨(searchLimit qp).toNat - 1, by have := searchLimit_pos qp; omega⟩
      exact ⟨rest.take n, by rw [hn, List.take_succ_cons, hfirst]⟩

theorem resultJson_entityId {ρ : Type} (E : FullText ρ) (q : String) (d : EntityData) :
    (E.resultJson q d).str? "entity_id" = some d.entityId := by
  simp [FullText.resultJson, Json.mkObj, Json.str?, JsonMap.get?_insert, Json.asStr?]

theorem resultJson_title {ρ : Type} (E : FullText ρ) (q : String) (d : EntityData) :
    (E.resultJson q d).str? "title" = some (E.titleOf d) := by
  simp [FullText.resultJson, Json.mkObj, Json.str?, JsonMap.get?_insert, Json.asStr?]

end Spotlight

theorem append_ne_self (s : String) : s ++ "+" ≠ s := by
  intro h
  have hlength := congrArg String.length h
  simp at hlength

theorem readAs_of_ne_str {textOf : Json → String} {v : Json} (h : ∀ s, v ≠ .str s) :
    readAs textOf v = textOf v := by
  unfold readAs
  split
  · rename_i s
    exact absurd rfl (h s)
  · rfl

/-- A string and another value are different texts in some reading. -/
theorem exists_readAs_ne_str {s : String} {v : Json} (h : Json.str s ≠ v) :
    ∃ textOf : Json → String, readAs textOf v ≠ s := by
  by_cases hstr : ∃ t, v = .str t
  · obtain ⟨t, rfl⟩ := hstr
    exact ⟨fun _ => "", fun hc => h (congrArg Json.str (Eq.symm hc))⟩
  · refine ⟨fun _ => s ++ "+", ?_⟩
    rw [readAs_of_ne_str fun t ht => hstr ⟨t, ht⟩]
    exact append_ne_self s

/-- Two different values are different texts in some reading. -/
theorem exists_readAs_ne {a b : Option Json} (h : a ≠ b) :
    ∃ textOf : Json → String, a.map (readAs textOf) ≠ b.map (readAs textOf) := by
  cases a with
  | none =>
      cases b with
      | none => exact absurd rfl h
      | some w => exact ⟨fun _ => "", by simp⟩
  | some v =>
      cases b with
      | none => exact ⟨fun _ => "", by simp⟩
      | some w =>
          have hne : v ≠ w := fun hc => h (congrArg some hc)
          by_cases hv : ∃ s, v = .str s
          · obtain ⟨s, rfl⟩ := hv
            obtain ⟨textOf, htext⟩ := exists_readAs_ne_str hne
            exact ⟨textOf, fun hc => htext (Option.some.inj hc).symm⟩
          by_cases hw : ∃ s, w = .str s
          · obtain ⟨s, rfl⟩ := hw
            obtain ⟨textOf, htext⟩ := exists_readAs_ne_str hne.symm
            exact ⟨textOf, fun hc => htext (Option.some.inj hc)⟩
          · refine ⟨fun u => if u = v then "this" else "other", ?_⟩
            rw [Option.map_some, Option.map_some, readAs_of_ne_str fun s hs => hv ⟨s, hs⟩,
              readAs_of_ne_str fun s hs => hw ⟨s, hs⟩, if_pos rfl, if_neg hne.symm]
            decide

/-! ### What a search tells -/

/-- The fields a title is picked from. -/
def namingFields : List String := ["title", "name", "display_name"]

/-- The texts a search is handed are the same of both data. -/
def SameTexts (data data' : Json) : Prop :=
  data.strings = data'.strings ∧ ∀ k ∈ namingFields, named data k = named data' k

/-- The row of an entity is not looked at: nothing is asked, it is out of reach, or of a type
that was not asked for. -/
def PassedOver (s : Store) (caller : Caller) (qp : SearchQ) (d : EntityData) : Prop :=
  blankQuery qp = true ∨ d.entityId ∉ s.reachableEntityIdsAny caller.actorId ∨
    ∃ t, qp.typeId = some t ∧ t ≠ d.typeId

section Tells

variable {caller : Caller} {qp : SearchQ} {s : Store} {x field : String} {v : Option Json}
  {d : EntityData}

/-- A row that is looked at and matches is selected. -/
theorem selects_iff {ρ : Type} (E : FullText ρ) (hlooked : ¬ PassedOver s caller qp d)
    {data : Json} :
    E.selects (qp.q.getD "") qp.typeId (some (s.reachableEntityIdsAny caller.actorId))
        { d with data := data } = E.hits (qp.q.getD "") data.strings := by
  unfold PassedOver at hlooked
  push Not at hlooked
  obtain ⟨-, hreach, htype⟩ := hlooked
  have htyped : qp.typeId.all (fun t => decide (d.typeId = t)) = true := by
    cases ht : qp.typeId with
    | none => rfl
    | some t => simpa using (htype t ht).symm
  unfold FullText.selects
  simp [htyped, hreach]

theorem titleOf_same {ρ : Type} (E : FullText ρ) {d d' : EntityData}
    (hid : d'.entityId = d.entityId) (h : ∀ k ∈ namingFields, named d.data k = named d'.data k) :
    E.titleOf d' = E.titleOf d := by
  unfold FullText.titleOf FullText.text
  rw [hid, h "title" (by decide), h "name" (by decide), h "display_name" (by decide)]

/-- A change that is passed over, or that leaves the texts as they are, changes no result. -/
theorem results_same (hd : s.entityData.find? x = some d) (hasked : blankQuery qp = false)
    (h : PassedOver s caller qp d ∨ SameTexts d.data (d.withField x field v).data) {ρ : Type}
    [LinearOrder ρ] (E : FullText ρ) :
    E.results (s.withField x field v) qp (s.reachableEntityIdsAny caller.actorId) =
      E.results s qp (s.reachableEntityIdsAny caller.actorId) := by
  refine E.results_congr fun r hr => ?_
  by_cases hx : r.entityId = x
  rotate_left
  · have hsame : r.withField x field v = r := if_neg hx
    rw [hsame]
    exact ⟨rfl, fun _ => ⟨rfl, rfl⟩⟩
  obtain rfl : r = d :=
    Option.some.inj ((Table.find?_eq_some.mpr ⟨hr, hx⟩).symm.trans hd)
  rcases h with hpassed | ⟨hstrings, hnames⟩
  · have hout : ∀ e : EntityData, e.entityId = r.entityId → e.typeId = r.typeId →
        E.selects (qp.q.getD "") qp.typeId (some (s.reachableEntityIdsAny caller.actorId)) e =
          false := by
      intro e hid htype
      unfold FullText.selects
      rcases hpassed with hblank | hreach | ⟨t, ht, hne⟩
      · rw [hasked] at hblank
        simp at hblank
      · simp [hid, hreach]
      · simp [ht, htype, hne.symm]
    have hbefore := hout r rfl rfl
    have hafter := hout (r.withField x field v) (r.withField_entityId x field v)
      (r.withField_typeId x field v)
    exact ⟨hafter.trans hbefore.symm, fun hsel => absurd hsel (by simp [hbefore])⟩
  · refine ⟨?_, fun _ => ⟨hstrings.symm, titleOf_same E (r.withField_entityId x field v) hnames⟩⟩
    unfold FullText.selects
    rw [← hstrings, r.withField_entityId, r.withField_typeId]

theorem get?_results (q results : Json) :
    (Json.mkObj [("query", q), ("results", results)]).get? "results" = some results := by
  simp [Json.mkObj, JsonMap.get?_insert]

/-- A result is of a row that was selected. -/
theorem mem_results {ρ : Type} [LinearOrder ρ] {E : FullText ρ} {s : Store} {ids : List String}
    {j : Json} (h : j ∈ E.results s qp ids) :
    ∃ r ∈ s.entityData.rows, E.selects (qp.q.getD "") qp.typeId (some ids) r = true ∧
      j = E.resultJson (qp.q.getD "") r := by
  unfold FullText.results FullText.rows at h
  obtain ⟨r, hr, hj⟩ := List.mem_map.mp h
  have hsel := (List.mem_insertionSort _).mp (List.mem_of_mem_take hr)
  obtain ⟨hmem, hselects⟩ := List.mem_filter.mp hsel
  exact ⟨r, hmem, hselects, hj.symm⟩

/-- One of three texts, by the field it is of. -/
def pick (k : String) (title name displayName : Option String) : Option String :=
  if k = "title" then title else if k = "name" then name else displayName

theorem pick_text {ρ : Type} (E : FullText ρ) (data : Json) {k : String} (hk : k ∈ namingFields) :
    pick k (E.text data "title") (E.text data "name") (E.text data "display_name") =
      E.text data k := by
  have hcases : k = "title" ∨ k = "name" ∨ k = "display_name" := by
    simpa [namingFields] using hk
  rcases hcases with rfl | rfl | rfl
  · rfl
  · rfl
  · rfl

/-- A change of the texts of a row that is looked at shows in some search. -/
theorem exists_results_ne (hd : s.entityData.find? x = some d)
    (hlooked : ¬ PassedOver s caller qp d)
    (htexts : ¬ SameTexts d.data (d.withField x field v).data) :
    ∃ E : FullText Nat,
      E.results (s.withField x field v) qp (s.reachableEntityIdsAny caller.actorId) ≠
        E.results s qp (s.reachableEntityIdsAny caller.actorId) := by
  have hid : d.entityId = x := Table.find?_key hd
  have hd' : (s.withField x field v).entityData.find? x = some (d.withField x field v) := by
    unfold Store.withField
    rw [Table.find?_modify, hd]
    rfl
  have hwith : d.withField x field v = { d with data := (d.withField x field v).data } := by
    unfold EntityData.withField
    rw [if_pos hid]
  by_cases hstrings : d.data.strings = (d.withField x field v).data.strings
  · -- The index is the same, so a naming field is not; a title made of it tells.
    have hname : ∃ k ∈ namingFields, named d.data k ≠ named (d.withField x field v).data k := by
      by_contra hall
      push Not at hall
      exact htexts ⟨hstrings, hall⟩
    obtain ⟨k, hk, hne⟩ := hname
    obtain ⟨textOf, htext⟩ := exists_readAs_ne hne
    let E : FullText Nat := spotlight x (fun _ => true) textOf fun a b c =>
      if pick k a b c = (named d.data k).map (readAs textOf) then "same" else "changed"
    refine ⟨E, ?_⟩
    obtain ⟨rest, hrest⟩ : ∃ rest, E.rows s (qp.q.getD "") qp.typeId
        (some (s.reachableEntityIdsAny caller.actorId)) (searchLimit qp) = d :: rest :=
      spotlight_head hd (selects_iff E hlooked)
    obtain ⟨rest', hrest'⟩ : ∃ rest, E.rows (s.withField x field v) (qp.q.getD "") qp.typeId
        (some (s.reachableEntityIdsAny caller.actorId)) (searchLimit qp) =
          d.withField x field v :: rest := by
      refine spotlight_head hd' ?_
      rw [hwith]
      exact selects_iff E hlooked
    have hbefore : E.titleOf d = "same" := by
      have hpick := pick_text E d.data hk
      show (if pick k _ _ _ = _ then "same" else "changed") = "same"
      rw [hpick]
      exact if_pos rfl
    have hafter : E.titleOf (d.withField x field v) = "changed" := by
      have hpick := pick_text E (d.withField x field v).data hk
      show (if pick k _ _ _ = _ then "same" else "changed") = "changed"
      rw [hpick]
      exact if_neg (Ne.symm htext)
    intro hresults
    unfold FullText.results at hresults
    rw [hrest, hrest', List.map_cons, List.map_cons] at hresults
    have hhead := congrArg (fun j => j.str? "title") (List.cons.inj hresults).1
    beta_reduce at hhead
    rw [resultJson_title, resultJson_title, hbefore, hafter] at hhead
    exact absurd (Option.some.inj hhead) (by decide)
  · -- A search for the old strings finds the row before and not after.
    let E : FullText Nat := spotlight x (fun l => decide (l = d.data.strings)) (fun _ => "")
      fun _ _ _ => ""
    refine ⟨E, ?_⟩
    have hselected : E.selects (qp.q.getD "") qp.typeId
        (some (s.reachableEntityIdsAny caller.actorId)) d = true :=
      (selects_iff E hlooked).trans (decide_eq_true rfl)
    obtain ⟨rest, hrest⟩ : ∃ rest, E.rows s (qp.q.getD "") qp.typeId
        (some (s.reachableEntityIdsAny caller.actorId)) (searchLimit qp) = d :: rest :=
      spotlight_head hd hselected
    intro hresults
    have hmem : E.resultJson (qp.q.getD "") d ∈
        E.results (s.withField x field v) qp (s.reachableEntityIdsAny caller.actorId) := by
      rw [hresults]
      unfold FullText.results
      rw [hrest]
      exact List.mem_cons_self
    obtain ⟨r, hr, hsel, hjson⟩ := mem_results hmem
    have hentity : r.entityId = x := by
      have hids := congrArg (fun j => j.str? "entity_id") hjson
      beta_reduce at hids
      rw [resultJson_entityId, resultJson_entityId] at hids
      exact (Option.some.inj hids).symm.trans hid
    obtain rfl : r = d.withField x field v :=
      Option.some.inj ((Table.find?_eq_some.mpr ⟨hr, hentity⟩).symm.trans hd')
    have hhit : decide ((d.withField x field v).data.strings = d.data.strings) = true := by
      rw [hwith] at hsel
      exact (selects_iff E hlooked).symm.trans hsel
    exact hstrings (of_decide_eq_true hhit).symm

end Tells

/--
**A search by a caller who may not read a field answers alike whatever the field
holds, exactly when the row is passed over or its texts stay the same.**
-/
theorem search_confidential_iff (ctx : RequestCtx) (caller : Caller)
    (hadmin : caller.isPlatformAdmin = false) (s : Store) (td : TypeDef) (f : FieldDef)
    (_hf : f ∈ td.fields) (x : String) (d : EntityData) (hd : s.row? x td.typeId = some d)
    (_hlow : s.callerRank caller x < (s.fieldFloors td.typeId f.field f.permClass).1)
    (v : Option Json) (qp : SearchQ) :
    (∀ (ρ : Type) [LinearOrder ρ] (E : FullText ρ),
      (exec (search E ctx caller qp) s).1 =
        (exec (search E ctx caller qp) (s.withField x f.field v)).1) ↔
      PassedOver s caller qp d ∨ SameTexts d.data (d.withField x f.field v).data := by
  have hfind : s.entityData.find? x = some d := (Store.row?_eq_some.mp hd).1
  have hreach : (s.withField x f.field v).reachableEntityIdsAny caller.actorId =
      s.reachableEntityIdsAny caller.actorId := Store.reach_withField caller.actorId
  cases hblank : blankQuery qp with
  | true =>
      refine ⟨fun _ => Or.inl (Or.inl hblank), fun _ ρ _ E => ?_⟩
      rw [exec_search hadmin, exec_search hadmin, if_pos hblank, if_pos hblank]
  | false =>
      have hasked : ¬ blankQuery qp = true := by simp [hblank]
      refine ⟨fun hall => ?_, fun h ρ _ E => ?_⟩
      · by_contra hnot
        push Not at hnot
        obtain ⟨E, hne⟩ := exists_results_ne hfind hnot.1 hnot.2
        have hsame := hall Nat E
        rw [exec_search hadmin, exec_search hadmin, if_neg hasked, if_neg hasked, hreach] at hsame
        have hbody := congrArg (fun r => r.body.bind fun j => j.get? "results") (Except.ok.inj hsame)
        simp only [Option.bind_some, get?_results, Option.some.injEq, Json.arr.injEq] at hbody
        exact hne hbody.symm
      · rw [exec_search hadmin, exec_search hadmin, if_neg hasked, if_neg hasked, hreach,
          results_same hfind hblank h E]

/-- Alice is a member of a secret, whose reference only an admin of it reads. -/
def secretStore : Store where
  typeDefinitions := ⟨[actorType, secretType], by decide⟩
  entities := ⟨[⟨"USR_alice", "actor", none⟩, ⟨"SEC_1", "secret", none⟩], by decide⟩
  entityData := ⟨[{ entityId := "SEC_1", typeId := "secret", data := .obj [
    ("external_ref", .str "vault/db"), ("name", .str "Database"), ("provider", .str "vault"),
    ("status", .str "active")] }], by decide⟩
  memberships := ⟨[⟨"SEC_1", "USR_alice", "member", ""⟩], by decide⟩
  roles := seededRoles

/-- A row matches when one of its strings is the query; its title is its name. -/
def exactMatch : FullText Nat where
  hits := fun q strings => strings.contains q
  rank := fun _ _ => 0
  place := fun _ => 0
  shown := fun n => .num (.int n)
  textOf := fun _ => ""
  title := fun title name displayName id => ((title.or name).or displayName).getD id

/-- The reference of a secret, which only its admins read. -/
def externalRef : FieldDef :=
  typeField "external_ref" "External ref" "text" true true 4 "owner_grade" (.obj [])

/-- Searching for the reference finds the secret, and only with that reference. -/
theorem searching_finds_unreadable_reference :
    alice.isPlatformAdmin = false ∧ externalRef ∈ secretType.fields ∧
      secretStore.callerRank alice "SEC_1" <
        (secretStore.fieldFloors "secret" "external_ref" "owner_grade").1 ∧
      (exec (search exactMatch plainCtx alice { q := some "vault/db" }) secretStore).1 ≠
        (exec (search exactMatch plainCtx alice { q := some "vault/db" })
          (secretStore.withField "SEC_1" "external_ref" (some (.str "vault/old")))).1 := by
  refine ⟨rfl, by decide, by decide, by decide⟩

/-- Where another type is asked for, the secret is passed over. -/
theorem searching_actors_tells_nothing :
    (exec (search exactMatch plainCtx alice { q := some "vault/db", typeId := some "actor" })
        secretStore).1 =
      (exec (search exactMatch plainCtx alice { q := some "vault/db", typeId := some "actor" })
        (secretStore.withField "SEC_1" "external_ref" (some (.str "vault/old")))).1 :=
  (search_confidential_iff plainCtx alice rfl secretStore secretType externalRef (by decide)
    "SEC_1" _ rfl (by decide) (some (.str "vault/old"))
    { q := some "vault/db", typeId := some "actor" }).mpr
      (Or.inl (Or.inr (Or.inr ⟨"actor", rfl, by decide⟩))) Nat exactMatch

end Numu
