/-
Texts cut by bytes, split at a character, and read as numbers.

A text is kept in UTF-8 and a slice of it is named by byte offsets, so a slice
exists only between character boundaries; asking for another stops the program.
In an ASCII text every offset is a boundary.  A number is read as the standard
library reads an unsigned one: a plus sign is skipped, every other character must
be a digit of the radix, and the value must fit.
-/
import Numu.Lib.Scalar

namespace Text

/-! ### Slices -/

/-- The length in bytes. -/
def utf8Len (s : List Char) : Nat := s.foldr (fun c n => c.utf8Size + n) 0

/-- The bytes of a text. -/
def utf8Bytes (s : List Char) : List UInt8 := s.flatMap String.utf8EncodeChar

/-- What is left after some bytes, which must end a character. -/
def dropBytes? : List Char → Nat → Option (List Char)
  | s, 0 => some s
  | [], _ + 1 => none
  | c :: rest, n + 1 => if c.utf8Size ≤ n + 1 then dropBytes? rest (n + 1 - c.utf8Size) else none

/-- The first bytes, which must end a character. -/
def takeBytes? : List Char → Nat → Option (List Char)
  | _, 0 => some []
  | [], _ + 1 => none
  | c :: rest, n + 1 =>
    if c.utf8Size ≤ n + 1 then (takeBytes? rest (n + 1 - c.utf8Size)).map (c :: ·) else none

/-- The slice between two offsets: none when either is outside or off a character boundary. -/
def slice? (s : List Char) (i j : Nat) : Option (List Char) :=
  if i ≤ j then (dropBytes? s i).bind fun rest => takeBytes? rest (j - i) else none

/-- Every character is one byte. -/
def Ascii (s : List Char) : Prop := ∀ c ∈ s, c.toNat < 128

instance (s : List Char) : Decidable (Ascii s) :=
  List.decidableBAll (fun c : Char => c.toNat < 128) s

theorem Ascii.of_subset {s t : List Char} (hs : Ascii s) (h : ∀ c ∈ t, c ∈ s) : Ascii t :=
  fun c hc => hs c (h c hc)

theorem utf8Size_ascii {c : Char} (h : c.toNat < 128) : c.utf8Size = 1 := by
  refine Char.utf8Size_eq_one_iff.mpr ?_
  rw [UInt32.le_iff_toNat_le]
  exact Nat.le_of_lt_succ h

theorem utf8Len_ascii {s : List Char} (h : Ascii s) : utf8Len s = s.length := by
  induction s with
  | nil => rfl
  | cons c rest ih =>
      have hc := utf8Size_ascii (h c List.mem_cons_self)
      have hrest : utf8Len rest = rest.length := ih (h.of_subset fun d hd => List.mem_cons_of_mem _ hd)
      show c.utf8Size + utf8Len rest = rest.length + 1
      omega

/-- In an ASCII text an offset in bytes is one in characters. -/
theorem bytes_ascii {s : List Char} (h : Ascii s) :
    ∀ n ≤ s.length, takeBytes? s n = some (s.take n) ∧ dropBytes? s n = some (s.drop n) := by
  induction s with
  | nil =>
      intro n hn
      obtain rfl : n = 0 := Nat.le_zero.mp hn
      exact ⟨rfl, rfl⟩
  | cons c rest ih =>
      intro n hn
      cases n with
      | zero => exact ⟨rfl, rfl⟩
      | succ n =>
          have hc := utf8Size_ascii (h c List.mem_cons_self)
          have hrest : Ascii rest := h.of_subset fun d hd => List.mem_cons_of_mem _ hd
          obtain ⟨htake, hdrop⟩ := ih hrest n (Nat.le_of_succ_le_succ hn)
          rw [takeBytes?, dropBytes?, hc, if_pos (by omega), if_pos (by omega),
            List.take_succ_cons, List.drop_succ_cons]
          refine ⟨?_, hdrop⟩
          show Option.map _ (takeBytes? rest n) = _
          rw [htake]
          rfl

/-- An ASCII text may be cut anywhere. -/
theorem slice?_ascii {s : List Char} (h : Ascii s) {i j : Nat} (hij : i ≤ j) (hj : j ≤ s.length) :
    slice? s i j = some ((s.drop i).take (j - i)) := by
  have hdrop : Ascii (s.drop i) := h.of_subset fun c hc => List.mem_of_mem_drop hc
  have hlength : (s.drop i).length = s.length - i := List.length_drop
  unfold slice?
  rw [if_pos hij, (bytes_ascii h i (by omega)).2, Option.bind_some,
    (bytes_ascii hdrop (j - i) (by omega)).1]

/-! ### Splits -/

/-- What is before and after the first occurrence of a character. -/
def splitOnce (c : Char) : List Char → Option (List Char × List Char)
  | [] => none
  | d :: rest =>
    if d = c then some ([], rest) else (splitOnce c rest).map fun p => (d :: p.1, p.2)

/-- What is before and after the last occurrence of a character. -/
def rsplitOnce (c : Char) : List Char → Option (List Char × List Char)
  | [] => none
  | d :: rest =>
    match rsplitOnce c rest with
    | some p => some (d :: p.1, p.2)
    | none => if d = c then some ([], rest) else none

theorem splitOnce_eq_some {c : Char} {s a b : List Char} (h : splitOnce c s = some (a, b)) :
    s = a ++ c :: b ∧ c ∉ a := by
  induction s generalizing a b with
  | nil => simp [splitOnce] at h
  | cons d rest ih =>
      rw [splitOnce] at h
      by_cases hd : d = c
      · rw [if_pos hd] at h
        obtain ⟨rfl, rfl⟩ := Prod.mk.inj (Option.some.inj h)
        exact ⟨by rw [hd]; rfl, by simp⟩
      · rw [if_neg hd] at h
        obtain ⟨p, hp, hpair⟩ := Option.map_eq_some_iff.mp h
        obtain ⟨rfl, rfl⟩ := Prod.mk.inj hpair
        obtain ⟨hrest, hnone⟩ := ih hp
        refine ⟨by rw [hrest]; rfl, ?_⟩
        rw [List.mem_cons, not_or]
        exact ⟨fun hc => hd hc.symm, hnone⟩

theorem rsplitOnce_eq_none {c : Char} {s : List Char} : rsplitOnce c s = none ↔ c ∉ s := by
  induction s with
  | nil => simp [rsplitOnce]
  | cons d rest ih =>
      rw [rsplitOnce, List.mem_cons, not_or, ← ih]
      cases rsplitOnce c rest with
      | some p => simp
      | none =>
          by_cases hd : d = c
          · simp [hd]
          · rw [if_neg hd]
            exact ⟨fun _ => ⟨fun hc => hd hc.symm, rfl⟩, fun _ => rfl⟩

theorem rsplitOnce_eq_some {c : Char} {s a b : List Char} (h : rsplitOnce c s = some (a, b)) :
    s = a ++ c :: b ∧ c ∉ b := by
  induction s generalizing a b with
  | nil => simp [rsplitOnce] at h
  | cons d rest ih =>
      rw [rsplitOnce] at h
      cases hrest : rsplitOnce c rest with
      | some p =>
          rw [hrest] at h
          obtain ⟨rfl, rfl⟩ := Prod.mk.inj (Option.some.inj h)
          obtain ⟨htail, hnone⟩ := ih hrest
          exact ⟨by rw [htail]; rfl, hnone⟩
      | none =>
          rw [hrest] at h
          dsimp only at h
          by_cases hd : d = c
          · rw [if_pos hd] at h
            obtain ⟨rfl, rfl⟩ := Prod.mk.inj (Option.some.inj h)
            exact ⟨by rw [hd]; rfl, rsplitOnce_eq_none.mp hrest⟩
          · rw [if_neg hd] at h
            simp at h

/-- The last occurrence is the one that nothing follows. -/
theorem rsplitOnce_append {c : Char} {b : List Char} (hb : c ∉ b) (a : List Char) :
    rsplitOnce c (a ++ c :: b) = some (a, b) := by
  induction a with
  | nil =>
      show rsplitOnce c (c :: b) = _
      rw [rsplitOnce, rsplitOnce_eq_none.mpr hb]
      exact if_pos rfl
  | cons d rest ih =>
      show rsplitOnce c (d :: (rest ++ c :: b)) = _
      rw [rsplitOnce, ih]

/-- What is split off a text is made of its characters. -/
theorem mem_of_splitOn {sep c : Char} {piece s : List Char} (hpiece : piece ∈ s.splitOn sep)
    (hc : c ∈ piece) : c ∈ s := by
  have hjoined : [sep].intercalate (s.splitOn sep) = s := List.intercalate_splitOn sep
  rw [← hjoined]
  generalize s.splitOn sep = pieces at hpiece
  induction pieces with
  | nil => simp at hpiece
  | cons p rest ih =>
      cases rest with
      | nil =>
          obtain rfl := List.mem_singleton.mp hpiece
          simpa [List.intercalate] using hc
      | cons q rest =>
          have hstep : [sep].intercalate (p :: q :: rest) =
              p ++ sep :: [sep].intercalate (q :: rest) := by
            simp [List.intercalate]
          rw [hstep, List.mem_append, List.mem_cons]
          rcases List.mem_cons.mp hpiece with rfl | hrest
          · exact Or.inl hc
          · exact Or.inr (Or.inr (ih hrest))

theorem mem_of_dropStart? {p s t : List Char} (h : dropStart? p s = some t) {c : Char}
    (hc : c ∈ t) : c ∈ s := by
  induction p generalizing s with
  | nil =>
      obtain rfl : s = t := by simpa [dropStart?] using h
      exact hc
  | cons d ps ih =>
      cases s with
      | nil => simp [dropStart?] at h
      | cons e rest =>
          rw [dropStart?] at h
          split at h
          · exact List.mem_cons_of_mem _ (ih h)
          · simp at h

theorem mem_of_trim {s : List Char} {c : Char} (hc : c ∈ trim s) : c ∈ s := by
  have hrev := List.mem_reverse.mp hc
  have hdrop := List.mem_reverse.mp ((List.dropWhile_sublist _).subset hrev)
  exact (List.dropWhile_sublist _).subset hdrop

/-! ### Numbers -/

/-- The value of a digit in a radix. -/
def digitValue (radix : Nat) (c : Char) : Option Nat :=
  let v := if '0' ≤ c ∧ c ≤ '9' then c.toNat - 48
    else if 'a' ≤ c ∧ c ≤ 'z' then c.toNat - 87
    else if 'A' ≤ c ∧ c ≤ 'Z' then c.toNat - 55
    else radix
  if v < radix then some v else none

/-- Append a digit to a number that must not exceed the limit. -/
def pushDigit (radix limit n : Nat) (c : Char) : Option Nat :=
  (digitValue radix c).bind fun d =>
    if n * radix + d ≤ limit then some (n * radix + d) else none

/-- An optional plus sign and at least one digit, of a number up to the limit. -/
def parseUnsigned (radix limit : Nat) (s : List Char) : Option Nat :=
  let digits := (dropStart? ['+'] s).getD s
  if digits = [] then none else digits.foldlM (pushDigit radix limit) 0

/-- Two digits that fit are read as the number they denote. -/
theorem parseUnsigned_pair {radix limit a b : Nat} {c d : Char} (hplus : c ≠ '+')
    (hc : digitValue radix c = some a) (hd : digitValue radix d = some b)
    (hfit : a * radix + b ≤ limit) (ha : a ≤ limit) :
    parseUnsigned radix limit [c, d] = some (a * radix + b) := by
  have hstart : (dropStart? ['+'] [c, d]).getD [c, d] = [c, d] := by
    rw [dropStart?, if_neg fun hc => hplus hc.symm]
    rfl
  have hfirst : pushDigit radix limit 0 c = some a := by
    unfold pushDigit
    rw [hc, Option.bind_some, Nat.zero_mul, Nat.zero_add, if_pos ha]
  have hsecond : pushDigit radix limit a d = some (a * radix + b) := by
    unfold pushDigit
    rw [hd, Option.bind_some, if_pos hfit]
  unfold parseUnsigned
  rw [hstart, if_neg (by simp), List.foldlM_cons, hfirst]
  show (pushDigit radix limit a d >>= fun n => List.foldlM (pushDigit radix limit) n []) = _
  rw [hsecond]
  rfl

end Text
