/-
JSON values.

An object is a map with unique keys.  It is kept as a list of fields in the order
of their keys, which is the order the map type of the program keeps them in, so
two objects with the same fields are the same value.  `insert` and `remove` are
the map's own operations and a lookup after them is all that is used of the
order.
-/
import Mathlib.Tactic.Common
import Mathlib.Data.List.Sort

/-- A JSON number: an integer literal, or a decimal `mantissa * 10 ^ exponent`. -/
inductive JsonNumber where
  | int (n : Int)
  | decimal (mantissa exponent : Int)
deriving DecidableEq

/-- A JSON value. -/
inductive Json where
  | null
  | bool (b : Bool)
  | num (n : JsonNumber)
  | str (s : String)
  | arr (items : List Json)
  | obj (fields : List (String × Json))

namespace Json

/-! ### Equality is decidable -/

mutual

/-- Decide equality of two values. -/
def decEq : (a b : Json) → Decidable (a = b)
  | .null, .null => isTrue rfl
  | .bool a, .bool b => if h : a = b then isTrue (h ▸ rfl) else isFalse (by simpa using h)
  | .num a, .num b => if h : a = b then isTrue (h ▸ rfl) else isFalse (by simpa using h)
  | .str a, .str b => if h : a = b then isTrue (h ▸ rfl) else isFalse (by simpa using h)
  | .arr a, .arr b =>
    match decEqItems a b with
    | isTrue h => isTrue (h ▸ rfl)
    | isFalse h => isFalse (by simpa using h)
  | .obj a, .obj b =>
    match decEqFields a b with
    | isTrue h => isTrue (h ▸ rfl)
    | isFalse h => isFalse (by simpa using h)
  | .null, .bool _ | .null, .num _ | .null, .str _ | .null, .arr _ | .null, .obj _
  | .bool _, .null | .bool _, .num _ | .bool _, .str _ | .bool _, .arr _ | .bool _, .obj _
  | .num _, .null | .num _, .bool _ | .num _, .str _ | .num _, .arr _ | .num _, .obj _
  | .str _, .null | .str _, .bool _ | .str _, .num _ | .str _, .arr _ | .str _, .obj _
  | .arr _, .null | .arr _, .bool _ | .arr _, .num _ | .arr _, .str _ | .arr _, .obj _
  | .obj _, .null | .obj _, .bool _ | .obj _, .num _ | .obj _, .str _ | .obj _, .arr _ =>
    isFalse (by simp)

/-- Decide equality of two arrays. -/
def decEqItems : (a b : List Json) → Decidable (a = b)
  | [], [] => isTrue rfl
  | [], _ :: _ | _ :: _, [] => isFalse (by simp)
  | a :: as, b :: bs =>
    match decEq a b, decEqItems as bs with
    | isTrue h, isTrue h' => isTrue (by rw [h, h'])
    | isFalse h, _ => isFalse (by simp [h])
    | _, isFalse h => isFalse (by simp [h])

/-- Decide equality of two field lists. -/
def decEqFields : (a b : List (String × Json)) → Decidable (a = b)
  | [], [] => isTrue rfl
  | [], _ :: _ | _ :: _, [] => isFalse (by simp)
  | (k, a) :: as, (l, b) :: bs =>
    if hk : k = l then
      match decEq a b, decEqFields as bs with
      | isTrue h, isTrue h' => isTrue (by rw [hk, h, h'])
      | isFalse h, _ => isFalse (by simp [h])
      | _, isFalse h => isFalse (by simp [h])
    else isFalse (by simp [hk])

end

instance : DecidableEq Json := decEq

end Json

/-- The fields of a JSON object, in key order. -/
abbrev JsonMap : Type := List (String × Json)

namespace JsonMap

/-- The value of a key. -/
def get? (m : JsonMap) (k : String) : Option Json := (m.find? fun f => f.1 = k).map Prod.snd

/-- The map without a key. -/
def remove (m : JsonMap) (k : String) : JsonMap := m.filter fun f => f.1 ≠ k

/-- The keys, in order. -/
def keys (m : JsonMap) : List String := m.map Prod.fst

/-- The map with a key set: where it is, or else in its place in the order. -/
def insert (m : JsonMap) (k : String) (v : Json) : JsonMap :=
  match m with
  | [] => [(k, v)]
  | (l, w) :: rest =>
    if k = l then (k, v) :: rest
    else if k < l ∧ k ∉ keys rest then (k, v) :: (l, w) :: rest
    else (l, w) :: JsonMap.insert rest k v

@[simp] theorem get?_nil (k : String) : get? [] k = none := rfl

theorem get?_cons (l : String) (w : Json) (rest : JsonMap) (k : String) :
    get? ((l, w) :: rest) k = if l = k then some w else get? rest k := by
  unfold get?
  by_cases h : l = k
  · rw [List.find?_cons_of_pos (by simpa using h), if_pos h]
    rfl
  · rw [List.find?_cons_of_neg (by simpa using h), if_neg h]

theorem get?_insert (m : JsonMap) (k : String) (v : Json) (l : String) :
    get? (m.insert k v) l = if k = l then some v else get? m l := by
  induction m with
  | nil => exact get?_cons k v [] l
  | cons f rest ih =>
      obtain ⟨key, w⟩ := f
      rw [insert]
      split
      · rename_i heq
        subst heq
        rw [get?_cons, get?_cons]
        by_cases h : k = l
        · rw [if_pos h, if_pos h]
        · rw [if_neg h, if_neg h, if_neg h]
      · rename_i hne
        split
        · rw [get?_cons]
        · rw [get?_cons, ih, get?_cons]
          by_cases h : key = l
          · subst h
            rw [if_pos rfl, if_neg hne, if_pos rfl]
          · rw [if_neg h, if_neg h]

theorem get?_remove (m : JsonMap) (k l : String) :
    get? (m.remove k) l = if k = l then none else get? m l := by
  induction m with
  | nil => simp [remove]
  | cons f rest ih =>
      obtain ⟨key, w⟩ := f
      unfold remove at ih ⊢
      by_cases hkey : key = k
      · subst hkey
        rw [List.filter_cons_of_neg (by simp), ih, get?_cons]
        by_cases h : key = l
        · rw [if_pos h, if_pos h]
        · rw [if_neg h, if_neg h, if_neg h]
      · rw [List.filter_cons_of_pos (by simpa using hkey), get?_cons, ih, get?_cons]
        by_cases h : key = l
        · subst h
          rw [if_pos rfl, if_neg (fun hc => hkey hc.symm), if_pos rfl]
        · rw [if_neg h, if_neg h]

/-- A key is listed exactly when it has a value. -/
theorem mem_keys {m : JsonMap} {k : String} : k ∈ m.keys ↔ ∃ v, get? m k = some v := by
  unfold keys get?
  rw [List.mem_map]
  constructor
  · rintro ⟨f, hf, rfl⟩
    cases h : m.find? fun g => g.1 = f.1 with
    | none =>
        rw [List.find?_eq_none] at h
        exact absurd (by simp) (h f hf)
    | some g => exact ⟨g.2, rfl⟩
  · rintro ⟨v, hv⟩
    rw [Option.map_eq_some_iff] at hv
    obtain ⟨f, hf, -⟩ := hv
    exact ⟨f, List.mem_of_find?_eq_some hf, by simpa using List.find?_some hf⟩

/-- Setting a key to the value it has changes nothing. -/
theorem insert_of_get? {m : JsonMap} {k : String} {v : Json} (h : get? m k = some v) :
    m.insert k v = m := by
  induction m with
  | nil => simp at h
  | cons f rest ih =>
      obtain ⟨l, w⟩ := f
      rw [get?_cons] at h
      rw [insert]
      by_cases hkey : l = k
      · rw [if_pos hkey, Option.some.injEq] at h
        rw [if_pos hkey.symm, h, hkey]
      · rw [if_neg hkey] at h
        have hmem : k ∈ keys rest := mem_keys.mpr ⟨v, h⟩
        rw [if_neg (fun hc => hkey hc.symm), if_neg (fun hc => hc.2 hmem), ih h]

end JsonMap

namespace Json

/-- The fields of an object; any other value has none. -/
def asMap : Json → JsonMap
  | .obj m => m
  | _ => []

/-- Member access: `none` when the value is not an object or lacks the key. -/
def get? (v : Json) (k : String) : Option Json := JsonMap.get? v.asMap k

/-- The text of a string value. -/
def asStr? : Json → Option String
  | .str s => some s
  | _ => none

/-- The truth value of a boolean. -/
def asBool? : Json → Option Bool
  | .bool b => some b
  | _ => none

/-- The items of an array. -/
def asArray? : Json → Option (List Json)
  | .arr items => some items
  | _ => none

def isNull : Json → Bool
  | .null => true
  | _ => false

def isObject : Json → Bool
  | .obj _ => true
  | _ => false

/-- The string under a key. -/
def str? (v : Json) (k : String) : Option String := (v.get? k).bind asStr?

/-- An object literal: the fields inserted one after another. -/
def mkObj (fields : List (String × Json)) : Json :=
  .obj (fields.foldl (fun m f => JsonMap.insert m f.1 f.2) [])

@[simp] theorem get?_obj (m : JsonMap) (k : String) :
    (Json.obj m).get? k = JsonMap.get? m k := rfl

@[simp] theorem asMap_obj (m : JsonMap) : (Json.obj m).asMap = m := rfl

/-! ### The strings of a value -/

/-- The order a database keeps the keys of an object in: by length, then by bytes. -/
def KeyLe (a b : String) : Prop :=
  a.utf8ByteSize < b.utf8ByteSize ∨ a.utf8ByteSize = b.utf8ByteSize ∧ a ≤ b

instance : DecidableRel KeyLe := fun _ _ => inferInstanceAs (Decidable (_ ∨ _))

mutual

/-- The strings of a value, in the order they are kept in; keys and numbers are none. -/
def strings : Json → List String
  | .str s => [s]
  | .arr items => stringsItems items
  | .obj fields =>
    ((stringsFields fields).insertionSort fun a b => KeyLe a.1 b.1).flatMap Prod.snd
  | .null | .bool _ | .num _ => []

def stringsItems : List Json → List String
  | [] => []
  | v :: rest => strings v ++ stringsItems rest

def stringsFields : List (String × Json) → List (String × List String)
  | [] => []
  | (k, v) :: rest => (k, strings v) :: stringsFields rest

end

theorem mem_stringsFields {k : String} {v : Json} :
    ∀ {m : List (String × Json)}, (k, v) ∈ m → (k, v.strings) ∈ stringsFields m := by
  intro m
  induction m with
  | nil => intro h; simp at h
  | cons f rest ih =>
      intro h
      obtain ⟨l, w⟩ := f
      rw [stringsFields]
      rcases List.mem_cons.mp h with heq | hrest
      · obtain ⟨rfl, rfl⟩ := Prod.mk.inj heq
        exact List.mem_cons_self
      · exact List.mem_cons_of_mem _ (ih hrest)

/-- A string under a key is one of the strings of the object. -/
theorem mem_strings_of_str? {v : Json} {k s : String} (h : v.str? k = some s) :
    s ∈ v.strings := by
  obtain ⟨w, hw, hs⟩ := Option.bind_eq_some_iff.mp h
  obtain rfl : w = .str s := by
    cases w with
    | str t => exact congrArg Json.str (Option.some.inj hs)
    | null | bool _ | num _ | arr _ | obj _ => simp [asStr?] at hs
  cases v with
  | obj m =>
      obtain ⟨f, hf, hsnd⟩ := Option.map_eq_some_iff.mp hw
      obtain ⟨l, u⟩ := f
      obtain rfl : u = .str s := hsnd
      have hmem := mem_stringsFields (List.mem_of_find?_eq_some hf)
      rw [strings]
      refine List.mem_flatMap.mpr ⟨_, (List.mem_insertionSort _).mpr hmem, ?_⟩
      rw [strings]
      exact List.mem_singleton.mpr rfl
  | null => simp [Json.get?, asMap] at hw
  | bool b => simp [Json.get?, asMap] at hw
  | num n => simp [Json.get?, asMap] at hw
  | str t => simp [Json.get?, asMap] at hw
  | arr items => simp [Json.get?, asMap] at hw

end Json
