/-
Machine integers and the text they travel in.

`I32` is a 32-bit signed integer: an integer together with the proof that it is
in range, so that no out-of-range value can be built.  Two additions are wanted,
the one of a database, which refuses to overflow, and the one of a compiled
program, which wraps.

The second half is text: trimming, upper case, and the decimal form of an `I32` as
it is printed and as it is read back.  Reading accepts a sign and any number of digits
and refuses what does not fit.
-/
import Mathlib.Data.Int.Order.Basic
import Mathlib.Data.List.TakeWhile
import Mathlib.Order.MinMax
import Mathlib.Tactic.Common

/-- A 32-bit signed integer. -/
structure I32 where
  val : Int
  lo : -2147483648 ≤ val
  hi : val ≤ 2147483647
deriving DecidableEq

namespace I32

@[ext] theorem ext {a b : I32} (h : a.val = b.val) : a = b := by
  cases a
  cases b
  simpa using h

instance : LE I32 := ⟨fun a b => a.val ≤ b.val⟩

instance : LT I32 := ⟨fun a b => a.val < b.val⟩

theorem lt_def {a b : I32} : a < b ↔ a.val < b.val := Iff.rfl

instance : LinearOrder I32 where
  le_refl a := Int.le_refl a.val
  le_trans _ _ _ := Int.le_trans
  lt_iff_le_not_ge _ _ := Int.lt_iff_le_and_not_ge
  le_antisymm _ _ h h' := ext (Int.le_antisymm h h')
  le_total a b := Int.le_total a.val b.val
  toDecidableLE a b := inferInstanceAs (Decidable (a.val ≤ b.val))
  toDecidableLT a b := inferInstanceAs (Decidable (a.val < b.val))
  toDecidableEq := inferInstance

/-- The integer, if it is in range. -/
def ofInt? (n : Int) : Option I32 :=
  if h : -2147483648 ≤ n ∧ n ≤ 2147483647 then some ⟨n, h.1, h.2⟩ else none

/-- The integer modulo `2^32`, in the signed range. -/
def wrap (n : Int) : I32 :=
  ⟨(n + 2147483648) % 4294967296 - 2147483648, by omega, by omega⟩

/-- A count in range is kept as it is. -/
theorem wrap_val {n : Nat} (h : n < 2147483648) : (wrap (n : Int)).val = n := by
  show ((n : Int) + 2147483648) % 4294967296 - 2147483648 = n
  omega

instance (n : Nat) : OfNat I32 n := ⟨wrap n⟩

/-- The largest value. -/
def max : I32 := ⟨2147483647, by decide, by decide⟩

theorem le_max (a : I32) : a ≤ max := a.hi

/-- `a + 1` as a database computes it: out of range is an error. -/
def succ? (a : I32) : Option I32 := ofInt? (a.val + 1)

/-- `a + 1` as a release build computes it. -/
def succ (a : I32) : I32 := wrap (a.val + 1)

theorem ofInt?_eq_some {n : Int} {a : I32} : ofInt? n = some a ↔ a.val = n := by
  unfold ofInt?
  split
  · rw [Option.some.injEq, I32.ext_iff]
    exact eq_comm
  · rename_i h
    constructor
    · intro hc; simp at hc
    · rintro rfl; exact absurd ⟨a.lo, a.hi⟩ h

@[simp] theorem ofInt?_val (a : I32) : ofInt? a.val = some a := ofInt?_eq_some.mpr rfl

theorem succ?_eq_some {a b : I32} : a.succ? = some b ↔ b.val = a.val + 1 := ofInt?_eq_some

/-- Where the database did not overflow, neither did the program. -/
theorem succ_eq_of_succ? {a b : I32} (h : a.succ? = some b) : a.succ = b := by
  rw [succ?_eq_some] at h
  refine ext ?_
  show (a.val + 1 + 2147483648) % 4294967296 - 2147483648 = b.val
  have hlo := b.lo
  have hhi := b.hi
  omega

/-- Below the largest value there is a next one. -/
theorem succ?_of_lt {a : I32} (h : a < max) : a.succ? = some a.succ := by
  have hval : a.val + 1 ≤ 2147483647 := h
  obtain ⟨b, hb⟩ : ∃ b : I32, a.succ? = some b :=
    ⟨⟨a.val + 1, by have hlo := a.lo; omega, hval⟩, succ?_eq_some.mpr rfl⟩
  rw [hb, succ_eq_of_succ? hb]

theorem succ?_max : max.succ? = none := by decide

end I32

namespace Text

/-- The characters Unicode calls white space. -/
def isWhitespace (c : Char) : Bool :=
  (9 ≤ c.toNat && c.toNat ≤ 13) || c.toNat == 32 || c.toNat == 133 || c.toNat == 160 ||
    c.toNat == 5760 || (8192 ≤ c.toNat && c.toNat ≤ 8202) || c.toNat == 8232 ||
    c.toNat == 8233 || c.toNat == 8239 || c.toNat == 8287 || c.toNat == 12288

/-- Drop the characters that satisfy `p` from both ends. -/
def trimWhere (p : Char → Bool) (cs : List Char) : List Char :=
  ((cs.dropWhile p).reverse.dropWhile p).reverse

/-- Drop white space from both ends. -/
def trim (cs : List Char) : List Char := trimWhere isWhitespace cs

/-- The rest after the given start, if the text starts with it. -/
def dropStart? : List Char → List Char → Option (List Char)
  | [], cs => some cs
  | p :: ps, c :: cs => if p = c then dropStart? ps cs else none
  | _ :: _, [] => none

/-- The number a non-empty run of decimal digits denotes. -/
def parseDigits (cs : List Char) : Option Nat :=
  if cs ≠ [] ∧ cs.all Char.isDigit then some (Nat.ofDigitChars 10 cs 0) else none

/-- An optional sign and digits that fit. -/
def parseI32 : List Char → Option I32
  | '-' :: ds => (parseDigits ds).bind fun n => I32.ofInt? (-(n : Int))
  | '+' :: ds => (parseDigits ds).bind fun n => I32.ofInt? n
  | ds => (parseDigits ds).bind fun n => I32.ofInt? n

/--
The upper case of a character, where it is a letter from A to Z or several of them.
Any other character is kept: its upper case has no letter from A to Z in place of it,
so the two texts differ from a word of such letters in the same way.
-/
def upperChar (c : Char) : List Char :=
  if 'a' ≤ c ∧ c ≤ 'z' then [Char.ofNat (c.toNat - 32)]
  else match c.toNat with
    | 223 => ['S', 'S']
    | 305 => ['I']
    | 383 => ['S']
    | 64256 => ['F', 'F']
    | 64257 => ['F', 'I']
    | 64258 => ['F', 'L']
    | 64259 => ['F', 'F', 'I']
    | 64260 => ['F', 'F', 'L']
    | 64261 | 64262 => ['S', 'T']
    | _ => [c]

/-- The text in upper case, as far as it can be a word of letters from A to Z. -/
def toUppercase (s : String) : String := String.ofList (s.toList.flatMap upperChar)

/-- The decimal text of an integer. -/
def showInt (n : Int) : String := n.repr

/-! ### Printing and reading back -/

theorem parseDigits_toDigits (n : Nat) : parseDigits (Nat.toDigits 10 n) = some n := by
  unfold parseDigits
  have hne : Nat.toDigits 10 n ≠ [] := Nat.toDigits_ne_nil
  have hall : (Nat.toDigits 10 n).all Char.isDigit = true := by
    rw [List.all_eq_true]
    intro c hc
    exact Nat.isDigit_of_mem_toDigits (by omega) (by omega) hc
  rw [if_pos ⟨hne, hall⟩, Nat.ofDigitChars_ten_toDigits]

/-- Digits do not start with a sign, so they are read as they stand. -/
theorem parseI32_digits {ds : List Char} (h : ∀ c ∈ ds, c.isDigit = true) :
    parseI32 ds = (parseDigits ds).bind fun n => I32.ofInt? n := by
  match ds, h with
  | [], _ => rfl
  | d :: rest, h =>
      have hd : d.isDigit = true := h d (by simp)
      have hminus : d ≠ '-' := by rintro rfl; exact absurd hd (by decide)
      have hplus : d ≠ '+' := by rintro rfl; exact absurd hd (by decide)
      unfold parseI32
      split
      · rename_i heq; simp only [List.cons.injEq] at heq; exact absurd heq.1 hminus
      · rename_i heq; simp only [List.cons.injEq] at heq; exact absurd heq.1 hplus
      · rfl

/-- **A printed `I32` is read back as itself.** -/
theorem parseI32_showInt (v : I32) : parseI32 (showInt v.val).toList = some v := by
  unfold showInt
  rw [Int.repr_eq_if]
  by_cases hneg : v.val < 0
  · rw [if_neg (by omega)]
    have hlist : ("-" ++ (-v.val).toNat.repr).toList
        = '-' :: Nat.toDigits 10 (-v.val).toNat := by
      simp [String.toList_append, Nat.toList_repr]
    rw [hlist]
    simp only [parseI32, parseDigits_toDigits, Option.bind_some]
    have hval : -(((-v.val).toNat : Nat) : Int) = v.val := by omega
    rw [hval, I32.ofInt?_val]
  · rw [if_pos (by omega), Nat.toList_repr]
    have hdigits : ∀ c ∈ Nat.toDigits 10 v.val.toNat, c.isDigit = true := by
      intro c hc
      exact Nat.isDigit_of_mem_toDigits (by omega) (by omega) hc
    rw [parseI32_digits hdigits, parseDigits_toDigits, Option.bind_some]
    have hval : ((v.val.toNat : Nat) : Int) = v.val := by omega
    rw [hval, I32.ofInt?_val]

theorem mem_showInt {n : Int} {c : Char} (h : c ∈ (showInt n).toList) :
    c.isDigit = true ∨ c = '-' := by
  have hdigits : ∀ m : Nat, c ∈ m.repr.toList → c.isDigit = true := by
    intro m hm
    rw [Nat.toList_repr] at hm
    exact Nat.isDigit_of_mem_toDigits (by omega) (by omega) hm
  unfold showInt at h
  rw [Int.repr_eq_if] at h
  split at h
  · exact Or.inl (hdigits _ h)
  · rw [String.toList_append, List.mem_append] at h
    rcases h with hminus | hrest
    · exact Or.inr (by simpa using hminus)
    · exact Or.inl (hdigits _ hrest)

/-! ### Trimming -/

theorem dropWhile_head {p : Char → Bool} {cs : List Char} (h : ∀ c ∈ cs.head?, p c = false) :
    cs.dropWhile p = cs := by
  cases cs with
  | nil => rfl
  | cons c rest =>
      have hc : p c = false := h c rfl
      rw [List.dropWhile_cons_of_neg (by simp [hc])]

/-- What is trimmed off a text that neither starts nor ends with such a character. -/
theorem trimWhere_around {p : Char → Bool} {before cs after : List Char}
    (hbefore : ∀ c ∈ before, p c = true) (hafter : ∀ c ∈ after, p c = true)
    (hhead : ∀ c ∈ cs.head?, p c = false) (hlast : ∀ c ∈ cs.getLast?, p c = false) :
    trimWhere p (before ++ cs ++ after) = cs := by
  have hfront : (before ++ cs ++ after).dropWhile p = (cs ++ after).dropWhile p := by
    rw [List.append_assoc, List.dropWhile_append_of_pos hbefore]
  have hback : cs.reverse.dropWhile p = cs.reverse := by
    refine dropWhile_head fun c hc => hlast c ?_
    rwa [List.head?_reverse] at hc
  unfold trimWhere
  rw [hfront]
  cases cs with
  | nil =>
      have hnone : after.dropWhile p = [] := List.dropWhile_eq_nil_iff.mpr hafter
      rw [List.nil_append, hnone]
      rfl
  | cons c rest =>
      have hkept : (c :: rest ++ after).dropWhile p = c :: rest ++ after :=
        dropWhile_head fun d hd => hhead d hd
      rw [hkept, List.reverse_append, List.dropWhile_append_of_pos (by simpa using hafter), hback,
        List.reverse_reverse]

/-- Where there is nothing to trim off, trimming changes nothing. -/
theorem trimWhere_self {p : Char → Bool} {cs : List Char} (hhead : ∀ c ∈ cs.head?, p c = false)
    (hlast : ∀ c ∈ cs.getLast?, p c = false) : trimWhere p cs = cs := by
  have hnone : trimWhere p ([] ++ cs ++ []) = cs :=
    trimWhere_around (by simp) (by simp) hhead hlast
  rwa [List.nil_append, List.append_nil] at hnone

end Text
