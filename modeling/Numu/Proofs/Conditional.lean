/-
Version tags, and the two ways to read an item.

GET and HEAD answer with the version of the item as an `ETag`.  A client that has
seen a version names it in If-None-Match, alone or in a list, and wants to be told
304 where that version is still the current one.

Two questions are settled here.

  * The tags themselves.  Every version is read back from its tag, so a list of
    tags is hit by the versions in it and by no other, however the list is spaced,
    and a `*` anywhere in it is hit by every version.
  * The handlers.  They make the same decisions in the same order, up to the last:
    GET looks at If-None-Match, and HEAD is not given the headers.  So the two agree
    on the `ETag` always, and on the status unless GET answers 304.

`shownVersion` is what both handlers have in common.
-/
import Numu.Proofs.Options

namespace Numu

open Fallible Handler

/-! ### A version and its tag -/

theorem etag_toList (v : I32) :
    (etag v).toList = 'W' :: '/' :: '"' :: (Text.showInt v.val).toList ++ ['"'] := by
  unfold etag
  rw [String.toList_append, String.toList_append]
  rfl

/-- Both ends of a tag, and of what is left without its prefix, are no white space. -/
theorem quoted_ends {start : Char} (hstart : Text.isWhitespace start = false) (cs : List Char) :
    (∀ c ∈ (start :: cs ++ ['"']).head?, Text.isWhitespace c = false) ∧
      ∀ c ∈ (start :: cs ++ ['"']).getLast?, Text.isWhitespace c = false := by
  constructor
  · intro c hc
    obtain rfl : start = c := Option.some.inj hc
    exact hstart
  · intro c hc
    rw [List.getLast?_concat] at hc
    obtain rfl : '"' = c := Option.some.inj hc
    decide

/-- The number in a tag has no quote in it. -/
theorem showInt_no_quote {n : Int} {c : Char} (hc : c ∈ (Text.showInt n).toList) :
    decide (c = '"') = false := by
  rw [decide_eq_false_iff_not]
  rintro rfl
  rcases Text.mem_showInt hc with hdigit | hminus
  · exact absurd hdigit (by decide)
  · exact absurd hminus (by decide)

/-- Trimming takes the white space around a tag and nothing of the tag. -/
theorem trim_etag {before after : List Char} (v : I32)
    (hbefore : ∀ c ∈ before, Text.isWhitespace c = true)
    (hafter : ∀ c ∈ after, Text.isWhitespace c = true) :
    Text.trim (before ++ (etag v).toList ++ after) = (etag v).toList := by
  rw [etag_toList]
  obtain ⟨hhead, hlast⟩ := quoted_ends (by decide : Text.isWhitespace 'W' = false)
    ('/' :: '"' :: (Text.showInt v.val).toList)
  exact Text.trimWhere_around hbefore hafter hhead hlast

/-- **The tag of a version is read as that version**, whatever white space surrounds it. -/
theorem parseVersionTag_around {before after : List Char} (v : I32)
    (hbefore : ∀ c ∈ before, Text.isWhitespace c = true)
    (hafter : ∀ c ∈ after, Text.isWhitespace c = true) :
    parseVersionTag (String.ofList (before ++ (etag v).toList ++ after)) = some v := by
  have hstrip : Text.dropStart? "W/".toList (etag v).toList
      = some ('"' :: (Text.showInt v.val).toList ++ ['"']) := by
    rw [etag_toList]
    rfl
  have hinner : Text.trim ('"' :: (Text.showInt v.val).toList ++ ['"'])
      = ['"'] ++ (Text.showInt v.val).toList ++ ['"'] := by
    obtain ⟨hhead, hlast⟩ := quoted_ends (by decide : Text.isWhitespace '"' = false)
      (Text.showInt v.val).toList
    exact Text.trimWhere_self hhead hlast
  have hquotes : Text.trimWhere (· = '"') (['"'] ++ (Text.showInt v.val).toList ++ ['"'])
      = (Text.showInt v.val).toList :=
    Text.trimWhere_around (by simp) (by simp)
      (fun c hc => showInt_no_quote (List.mem_of_mem_head? hc))
      (fun c hc => showInt_no_quote (List.mem_of_mem_getLast? hc))
  unfold parseVersionTag
  simp only [String.toList_ofList, trim_etag v hbefore hafter, hstrip, Option.getD_some]
  rw [hinner, hquotes]
  exact Text.parseI32_showInt v

theorem parseVersionTag_etag (v : I32) : parseVersionTag (etag v) = some v := by
  have hbare : parseVersionTag (String.ofList ([] ++ (etag v).toList ++ [])) = some v :=
    parseVersionTag_around v (by simp) (by simp)
  rwa [List.nil_append, List.append_nil, String.ofList_toList] at hbare

/-- No two versions have the same tag. -/
theorem etag_inj {v w : I32} (h : etag v = etag w) : v = w := by
  have hread := parseVersionTag_etag v
  rw [h, parseVersionTag_etag] at hread
  exact (Option.some.inj hread).symm

/-! ### A list of tags -/

/-- What If-None-Match lists: versions, or `*` for any of them. -/
inductive Tag where
  | version (v : I32)
  | any

def Tag.text : Tag → String
  | .version v => etag v
  | .any => "*"

/-- An element of a list, with the number of spaces before and after it. -/
structure Spaced (α : Type) where
  before : Nat
  item : α
  after : Nat

def Spaced.map {α β : Type} (f : α → β) (e : Spaced α) : Spaced β := ⟨e.before, f e.item, e.after⟩

def Spaced.text (e : Spaced Tag) : String :=
  String.ofList (List.replicate e.before ' ' ++ e.item.text.toList ++ List.replicate e.after ' ')

/-- The elements with commas between them. -/
def joinTags (elements : List (Spaced Tag)) : String :=
  ",".intercalate (elements.map Spaced.text)

/-- The characters a header's value may have to be read as a text. -/
def isVisibleAscii (c : Char) : Bool := 32 ≤ c.toNat && c.toNat < 127 || c = '\t'

/-- A header's value, as the handlers read it. -/
def toStr (text : String) : HeaderValue :=
  if text.toList.all isVisibleAscii then some text else none

/-- The request with If-None-Match replaced by the list. -/
def HeaderMap.listing (headers : HeaderMap) (elements : List (Spaced Tag)) : HeaderMap :=
  { headers with ifNoneMatch := some (toStr (joinTags elements)) }

theorem splitCommas_eq_splitOn (cs : List Char) : splitCommas cs = cs.splitOn ',' := by
  induction cs with
  | nil => rfl
  | cons c rest ih =>
      obtain ⟨part, parts, hparts⟩ := List.exists_cons_of_ne_nil (List.splitOn_ne_nil ',' rest)
      rw [List.splitOn_cons_eq_if_modifyHead, splitCommas, ih, hparts]
      by_cases hc : c = ','
      · simp [hc]
      · simp [hc]

/-- A character that a list can hold between its commas. -/
def Listed (c : Char) : Prop := c ≠ ',' ∧ isVisibleAscii c = true

instance (c : Char) : Decidable (Listed c) := inferInstanceAs (Decidable (_ ∧ _))

theorem listed_showInt {n : Int} {c : Char} (hc : c ∈ (Text.showInt n).toList) : Listed c := by
  rcases Text.mem_showInt hc with hdigit | rfl
  · refine ⟨?_, ?_⟩
    · rintro rfl
      exact absurd hdigit (by decide)
    · obtain ⟨hlo, hhi⟩ : 48 ≤ c.toNat ∧ c.toNat ≤ 57 := by
        simpa [Char.isDigit, UInt32.le_iff_toNat_le] using hdigit
      have hrange : 32 ≤ c.toNat ∧ c.toNat < 127 := by omega
      simp [isVisibleAscii, hrange]
  · decide

theorem listed_tag {t : Tag} {c : Char} (hc : c ∈ t.text.toList) : Listed c := by
  cases t with
  | any =>
      obtain rfl : c = '*' := by simpa [Tag.text] using hc
      decide
  | version v =>
      rw [Tag.text, etag_toList] at hc
      simp only [List.cons_append, List.mem_cons, List.mem_append, List.not_mem_nil, or_false] at hc
      rcases hc with rfl | rfl | rfl | hnumber | rfl
      · decide
      · decide
      · decide
      · exact listed_showInt hnumber
      · decide

theorem listed_text {e : Spaced Tag} {c : Char} (hc : c ∈ e.text.toList) : Listed c := by
  have hspace : ∀ n, c ∈ List.replicate n ' ' → Listed c := by
    intro n hn
    obtain rfl := List.eq_of_mem_replicate hn
    decide
  unfold Spaced.text at hc
  rw [String.toList_ofList, List.mem_append, List.mem_append] at hc
  rcases hc with (hbefore | hitem) | hafter
  · exact hspace _ hbefore
  · exact listed_tag hitem
  · exact hspace _ hafter

/-- What stands in a joined list stands in one of its parts, or separates them. -/
theorem mem_intercalate {α : Type} {sep x : α} {parts : List (List α)}
    (h : x ∈ [sep].intercalate parts) : x = sep ∨ ∃ part ∈ parts, x ∈ part := by
  induction parts with
  | nil => simp at h
  | cons part rest ih =>
      cases rest with
      | nil => exact Or.inr ⟨part, by simp, by simpa using h⟩
      | cons next rest =>
          rw [List.intercalate_cons_cons, List.mem_append, List.mem_append] at h
          rcases h with (hpart | hsep) | hrest
          · exact Or.inr ⟨part, by simp, hpart⟩
          · exact Or.inl (by simpa using hsep)
          · rcases ih hrest with hsep | ⟨found, hfound, hx⟩
            · exact Or.inl hsep
            · exact Or.inr ⟨found, List.mem_cons_of_mem _ hfound, hx⟩

theorem joinTags_toList (elements : List (Spaced Tag)) :
    (joinTags elements).toList = [','].intercalate (elements.map fun e => e.text.toList) := by
  unfold joinTags
  rw [String.toList_intercalate, List.map_map]
  rfl

/-- A list of tags can always be read. -/
theorem toStr_joinTags (elements : List (Spaced Tag)) :
    toStr (joinTags elements) = some (joinTags elements) := by
  have hall : (joinTags elements).toList.all isVisibleAscii = true := by
    rw [List.all_eq_true]
    intro c hc
    rw [joinTags_toList] at hc
    rcases mem_intercalate hc with rfl | ⟨part, hpart, hin⟩
    · decide
    · obtain ⟨e, -, rfl⟩ := List.mem_map.mp hpart
      exact (listed_text hin).2
  unfold toStr
  rw [if_pos hall]

/-- A list is taken apart into the elements it was joined from. -/
theorem splitCommas_joinTags {elements : List (Spaced Tag)} (hne : elements ≠ []) :
    splitCommas (joinTags elements).toList = elements.map fun e => e.text.toList := by
  rw [splitCommas_eq_splitOn, joinTags_toList]
  refine List.splitOn_intercalate ',' (fun part hpart hcomma => ?_) (by simpa using hne)
  obtain ⟨e, -, rfl⟩ := List.mem_map.mp hpart
  exact (listed_text hcomma).1 rfl

theorem whitespace_replicate (n : Nat) :
    ∀ c ∈ List.replicate n ' ', Text.isWhitespace c = true := by
  intro c hc
  obtain rfl := List.eq_of_mem_replicate hc
  decide

/-- An element is hit by its version, and `*` by all of them. -/
theorem element_hit (e : Spaced Tag) (version : I32) :
    Text.trim e.text.toList = ['*'] ∨ parseVersionTag (String.ofList e.text.toList) = some version ↔
      e.item = .any ∨ e.item = .version version := by
  obtain ⟨before, item, after⟩ := e
  have hbefore := whitespace_replicate before
  have hafter := whitespace_replicate after
  unfold Spaced.text
  rw [String.toList_ofList]
  cases item with
  | any =>
      have htrim : Text.trim (List.replicate before ' ' ++ Tag.any.text.toList ++
          List.replicate after ' ') = ['*'] :=
        Text.trimWhere_around hbefore hafter
          (fun c hc => by obtain rfl : '*' = c := Option.some.inj hc; decide)
          (fun c hc => by obtain rfl : '*' = c := Option.some.inj hc; decide)
      exact ⟨fun _ => Or.inl rfl, fun _ => Or.inl htrim⟩
  | version v =>
      have htrim : Text.trim (List.replicate before ' ' ++ (etag v).toList ++
          List.replicate after ' ') ≠ ['*'] := by
        rw [trim_etag v hbefore hafter, etag_toList]
        simp
      show (Text.trim (List.replicate before ' ' ++ (etag v).toList ++ List.replicate after ' ')
          = ['*'] ∨ parseVersionTag (String.ofList (List.replicate before ' ' ++ (etag v).toList ++
            List.replicate after ' ')) = some version) ↔ Tag.version v = .any ∨ _
      rw [parseVersionTag_around v hbefore hafter]
      constructor
      · rintro (hstar | hsame)
        · exact absurd hstar htrim
        · exact Or.inr (congrArg Tag.version (Option.some.inj hsame))
      · rintro (hany | hsame)
        · simp at hany
        · exact Or.inr (congrArg some (Tag.version.inj hsame))

/-- **A list is hit by a version exactly when it names the version or holds a `*`.** -/
theorem ifNoneMatchHit_listing (headers : HeaderMap) (elements : List (Spaced Tag)) (version : I32) :
    ifNoneMatchHit (headers.listing elements) version = true ↔
      ∃ e ∈ elements, e.item = .any ∨ e.item = .version version := by
  have hheader : (headers.listing elements).ifNoneMatch.join = some (joinTags elements) := by
    unfold HeaderMap.listing
    rw [toStr_joinTags]
    rfl
  unfold ifNoneMatchHit
  rw [hheader]
  by_cases hne : elements = []
  · subst hne
    have hempty : parseVersionTag (String.ofList []) = none := by decide
    simp [joinTags, splitCommas, hempty, Text.trim, Text.trimWhere]
  · simp only [splitCommas_joinTags hne, List.any_map, List.any_eq_true, Function.comp_apply,
      Bool.or_eq_true, decide_eq_true_eq, element_hit]

/--
**Version tags round-trip, and a list of them is hit by the versions in it and by no other**,
with any number of spaces around each; with a `*` among them it is hit by every version.
-/
theorem version_tags_round_trip :
    (∀ v, parseVersionTag (etag v) = some v) ∧
    (∀ (headers : HeaderMap) (vs : List (Spaced I32)) (v : I32),
      ifNoneMatchHit (headers.listing (vs.map (Spaced.map .version))) v = true ↔
        v ∈ vs.map Spaced.item) ∧
    (∀ (headers : HeaderMap) (vs ws : List (Spaced I32)) (star : Spaced Unit) (v : I32),
      ifNoneMatchHit (headers.listing (vs.map (Spaced.map .version) ++
        star.map (fun _ => .any) :: ws.map (Spaced.map .version))) v = true) := by
  refine ⟨parseVersionTag_etag, fun headers vs v => ?_, fun headers vs ws star v => ?_⟩
  · rw [ifNoneMatchHit_listing, List.mem_map]
    constructor
    · rintro ⟨e, he, hhit⟩
      obtain ⟨w, hw, rfl⟩ := List.mem_map.mp he
      rcases hhit with hany | hsame
      · simp [Spaced.map] at hany
      · exact ⟨w, hw, Tag.version.inj hsame⟩
    · rintro ⟨w, hw, rfl⟩
      exact ⟨w.map .version, List.mem_map.mpr ⟨w, hw, rfl⟩, Or.inr rfl⟩
  · rw [ifNoneMatchHit_listing]
    exact ⟨star.map fun _ => .any, by simp, Or.inl rfl⟩

/-! ### The two reads of an item -/

/-- What a client sees of an answer besides its body: the status and the `ETag`. -/
def answerHead : Except AppError Response → Nat × Option String
  | .ok resp => (resp.status, resp.etag)
  | .error e => (e.status, none)

/-- The version of an item, for a caller that is let through to it. -/
def Store.shownVersion (s : Store) (registry : TypeDefCache) (caller : Caller)
    (typeId id : String) : Option I32 :=
  (registry.get typeId).bind fun td =>
    if s.admits caller td (some id) .view then (s.row? id typeId).map EntityData.version else none

theorem Store.shownVersion_eq_some {s : Store} {registry : TypeDefCache} {caller : Caller}
    {typeId id : String} {v : I32} :
    s.shownVersion registry caller typeId id = some v ↔
      ∃ td row, registry.get typeId = some td ∧ s.admits caller td (some id) .view = true ∧
        s.row? id typeId = some row ∧ row.version = v := by
  unfold shownVersion
  rw [Option.bind_eq_some_iff]
  constructor
  · rintro ⟨td, htd, hshown⟩
    by_cases hview : s.admits caller td (some id) .view = true
    · rw [if_pos hview] at hshown
      obtain ⟨row, hrow, hv⟩ := Option.map_eq_some_iff.mp hshown
      exact ⟨td, row, htd, hview, hrow, hv⟩
    · rw [if_neg hview] at hshown
      simp at hshown
  · rintro ⟨td, row, htd, hview, hrow, hv⟩
    refine ⟨td, htd, ?_⟩
    rw [if_pos hview, hrow, Option.map_some, hv]

section Reads

variable (st : AppState) (ctx : RequestCtx) (caller : Caller) (typeId id : String)
  (headers : HeaderMap) (s : Store)

/-- A read that goes through type, gate and row, and then answers by what it finds. -/
theorem answerHead_read (rest : TypeDef → EntityData → Handler Response)
    (answer : I32 → Nat × Option String)
    (hrest : ∀ td row, answerHead (exec (rest td row) s).1 = answer row.version) :
    answerHead (exec (do
      let td ← resolve st typeId ctx
      let ok ← requireAction caller td (some id) .view
      ensure ok (deny404 ctx)
      let found ← query fun s => s.row? id typeId
      let row ← getOr found (deny404 ctx)
      rest td row) s).1 =
    (s.shownVersion st.registry caller typeId id).elim (404, none) answer := by
  unfold Store.shownVersion
  cases htd : TypeDefCache.get st.registry typeId with
  | none =>
      unfold resolve
      rw [htd]
      rfl
  | some td =>
      rw [exec_gated htd, Option.bind_some]
      by_cases hview : s.admits caller td (some id) .view = true
      · rw [if_pos hview, if_pos hview]
        cases hrow : s.row? id typeId with
        | none =>
            rw [exec_bind, exec_query, hrow]
            rfl
        | some row =>
            rw [exec_rowBind hrow, hrest td row]
            rfl
      · rw [if_neg hview, if_neg hview]
        rfl

theorem answerHead_itemHead :
    answerHead (exec (itemHead st ctx caller typeId id) s).1 =
      (s.shownVersion st.registry caller typeId id).elim (404, none)
        fun v => (200, some (etag v)) := by
  unfold itemHead
  exact answerHead_read st ctx caller typeId id s _ _ fun td row => rfl

theorem answerHead_itemGet :
    answerHead (exec (itemGet st ctx caller typeId id headers) s).1 =
      (s.shownVersion st.registry caller typeId id).elim (404, none)
        fun v => (if ifNoneMatchHit headers v = true then 304 else 200, some (etag v)) := by
  unfold itemGet
  refine answerHead_read st ctx caller typeId id s _ _ fun td row => ?_
  obtain ⟨shown, hshown, -⟩ := exec_filterReadable caller td id s row.data
  rw [exec_bind, hshown]
  by_cases hhit : ifNoneMatchHit headers row.version = true
  · simp only [if_pos hhit]
    rfl
  · simp only [if_neg hhit]
    rfl

/-- GET answers 304 with a version exactly when it shows that version and the list names it. -/
theorem get_not_modified_iff (elements : List (Spaced Tag)) (v : I32) :
    answerHead (exec (itemGet st ctx caller typeId id (headers.listing elements)) s).1 =
        (304, some (etag v)) ↔
      s.shownVersion st.registry caller typeId id = some v ∧
        ∃ e ∈ elements, e.item = .any ∨ e.item = .version v := by
  rw [answerHead_itemGet, ← ifNoneMatchHit_listing headers]
  cases s.shownVersion st.registry caller typeId id with
  | none => simp
  | some w =>
      rw [Option.elim_some, Prod.mk.injEq, Option.some.injEq, Option.some.injEq]
      constructor
      · rintro ⟨hstatus, htag⟩
        obtain rfl := etag_inj htag
        refine ⟨rfl, ?_⟩
        by_contra hmiss
        rw [if_neg hmiss] at hstatus
        omega
      · rintro ⟨rfl, hhit⟩
        exact ⟨if_pos hhit, rfl⟩

/-- HEAD answers as GET does: with the same status and the same `ETag`. -/
def HeadMirrorsGet : Prop :=
  answerHead (exec (itemHead st ctx caller typeId id) s).1 =
    answerHead (exec (itemGet st ctx caller typeId id headers) s).1

instance : Decidable (HeadMirrorsGet st ctx caller typeId id headers s) :=
  inferInstanceAs (Decidable (_ = _))

/-- The `ETag` of HEAD is the one of GET, whatever the headers. -/
theorem head_etag_eq_get :
    (answerHead (exec (itemHead st ctx caller typeId id) s).1).2 =
      (answerHead (exec (itemGet st ctx caller typeId id headers) s).1).2 := by
  rw [answerHead_itemHead, answerHead_itemGet]
  cases s.shownVersion st.registry caller typeId id with
  | none => rfl
  | some v => rfl

/-- The two answers differ in one case: a version is shown, and If-None-Match hits it. -/
theorem headMirrorsGet_iff_shown :
    HeadMirrorsGet st ctx caller typeId id headers s ↔
      ∀ v, s.shownVersion st.registry caller typeId id = some v →
        ifNoneMatchHit headers v = false := by
  unfold HeadMirrorsGet
  rw [answerHead_itemHead, answerHead_itemGet]
  cases s.shownVersion st.registry caller typeId id with
  | none => exact ⟨fun _ v hv => by simp at hv, fun _ => rfl⟩
  | some v =>
      show (200, some (etag v)) = (if ifNoneMatchHit headers v = true then 304 else 200, some (etag v))
        ↔ _
      by_cases hhit : ifNoneMatchHit headers v = true
      · rw [if_pos hhit]
        simp [hhit]
      · rw [if_neg hhit]
        simp [hhit]

end Reads

/--
**HEAD mirrors GET exactly where If-None-Match does not hit the version of an item that the
caller may view.**  Where it does, GET answers 304 and HEAD, which is not given the headers, 200.
-/
theorem head_mirrors_get_iff (st : AppState) (ctx : RequestCtx) (caller : Caller)
    (typeId id : String) (headers : HeaderMap) (s : Store) :
    HeadMirrorsGet st ctx caller typeId id headers s ↔
      ∀ td row, TypeDefCache.get st.registry typeId = some td →
        s.admits caller td (some id) .view = true → s.row? id typeId = some row →
          ifNoneMatchHit headers row.version = false := by
  rw [headMirrorsGet_iff_shown]
  constructor
  · intro h td row htd hview hrow
    exact h row.version (Store.shownVersion_eq_some.mpr ⟨td, row, htd, hview, hrow, rfl⟩)
  · intro h v hv
    obtain ⟨td, row, htd, hview, hrow, rfl⟩ := Store.shownVersion_eq_some.mp hv
    exact h td row htd hview hrow

/-- The first version in If-None-Match. -/
def seenVersionOne : HeaderMap := { ifNoneMatch := some (some "W/\"1\"") }

/-- A reader of the shared actor that has seen its version is told 304 by GET and 200 by HEAD. -/
theorem head_of_seen_version :
    answerHead (exec (itemGet actorState plainCtx alice "actor" "USR_x" seenVersionOne)
        sharedActorStore).1 = (304, some (etag 1)) ∧
      answerHead (exec (itemHead actorState plainCtx alice "actor" "USR_x")
        sharedActorStore).1 = (200, some (etag 1)) ∧
      ¬ HeadMirrorsGet actorState plainCtx alice "actor" "USR_x" seenVersionOne
        sharedActorStore := by
  decide

end Numu
