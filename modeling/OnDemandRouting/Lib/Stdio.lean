import Mathlib.Data.List.TakeWhile

/-!
# Text that is printed and scanned

The part of C's formatted input and output in which text is built from strings and
decimal numbers and split again by `sscanf`: scansets, `%s` and literal characters.
-/

namespace OnDemandRouting.Lib

/-- `isspace` in the C locale. -/
def isSpace (c : Char) : Bool :=
  c == ' ' || c == '\t' || c == '\n' || c == '\x0b' || c == '\x0c' || c == '\r'

/-- What `%d` prints. -/
def formatInt (x : Int) : List Char :=
  if x < 0 then '-' :: Nat.toDigits 10 x.natAbs else Nat.toDigits 10 x.natAbs

/-- The digits at the start of a text, as a number. -/
def digitsValue (s : List Char) : Int := Nat.ofDigitChars 10 (s.takeWhile Char.isDigit) 0

/-- `atoi`: blanks, a sign, digits. -/
def atoi (s : List Char) : Int :=
  match s.dropWhile isSpace with
  | '-' :: s => -digitsValue s
  | '+' :: s => digitsValue s
  | s => digitsValue s

/-- A directive of a format of `sscanf`: `%[..]` for the characters that `p` accepts, a
literal character, or `%s`. -/
inductive Directive
  | set (p : Char → Bool)
  | literal (c : Char)
  | word

/-- What `sscanf` assigns, in order.  It stops at the first directive that fails: a
conversion needs at least one character. -/
def sscanf : List Directive → List Char → List (List Char)
  | [], _ => []
  | .set p :: fmt, s =>
      if s.takeWhile p = [] then [] else s.takeWhile p :: sscanf fmt (s.dropWhile p)
  | .literal _ :: _, [] => []
  | .literal c :: fmt, d :: s => if d = c then sscanf fmt s else []
  | .word :: fmt, s =>
      let s := s.dropWhile isSpace
      if s.takeWhile (fun c => !isSpace c) = [] then []
      else s.takeWhile (fun c => !isSpace c) :: sscanf fmt (s.dropWhile fun c => !isSpace c)

/-! ## Numbers -/

theorem isDigit_of_mem_toDigits_ten {n : Nat} {c : Char} (h : c ∈ Nat.toDigits 10 n) :
    c.isDigit = true :=
  Nat.isDigit_of_mem_toDigits (by decide) (by decide) h

/-- A printed number is a sign and digits. -/
theorem mem_formatInt {x : Int} {c : Char} (h : c ∈ formatInt x) : c = '-' ∨ c.isDigit = true := by
  unfold formatInt at h
  split_ifs at h
  · rcases List.mem_cons.mp h with rfl | h
    · exact .inl rfl
    · exact .inr (isDigit_of_mem_toDigits_ten h)
  · exact .inr (isDigit_of_mem_toDigits_ten h)

theorem formatInt_ne_nil (x : Int) : formatInt x ≠ [] := by
  unfold formatInt
  split_ifs
  · simp
  · exact Nat.toDigits_ne_nil

theorem isSpace_of_isDigit {c : Char} (h : c.isDigit = true) : isSpace c = false := by
  simp only [isSpace, Bool.or_eq_false_iff, beq_eq_false_iff_ne, ne_eq]
  refine ⟨⟨⟨⟨⟨?_, ?_⟩, ?_⟩, ?_⟩, ?_⟩, ?_⟩ <;> rintro rfl <;> revert h <;> decide

theorem isSpace_of_mem_formatInt {x : Int} {c : Char} (h : c ∈ formatInt x) :
    isSpace c = false := by
  rcases mem_formatInt h with rfl | h
  · decide
  · exact isSpace_of_isDigit h

theorem digitsValue_toDigits (n : Nat) : digitsValue (Nat.toDigits 10 n) = n := by
  have hall : ∀ c ∈ Nat.toDigits 10 n, c.isDigit = true :=
    fun c hc => isDigit_of_mem_toDigits_ten hc
  rw [digitsValue, List.takeWhile_eq_self_iff.mpr hall,
    Nat.ofDigitChars_toDigits (by decide) (by decide)]

/-- `atoi` reads back what `%d` prints. -/
theorem atoi_formatInt (x : Int) : atoi (formatInt x) = x := by
  have hskip : (formatInt x).dropWhile isSpace = formatInt x := by
    obtain ⟨c, s, hcs⟩ := List.exists_cons_of_ne_nil (formatInt_ne_nil x)
    have hc : isSpace c = false := isSpace_of_mem_formatInt (by rw [hcs]; simp)
    rw [hcs, List.dropWhile_cons_of_neg (by simp [hc])]
  rw [atoi, hskip, formatInt]
  split_ifs with hneg
  · simp only
    rw [digitsValue_toDigits]
    omega
  · obtain ⟨c, s, hcs⟩ := List.exists_cons_of_ne_nil (Nat.toDigits_ne_nil (n := x.natAbs))
    have hc : c.isDigit = true := isDigit_of_mem_toDigits_ten (by rw [hcs]; simp)
    have hvalue : digitsValue (c :: s) = x := by
      rw [← hcs, digitsValue_toDigits]
      omega
    rw [hcs]
    split
    · next heq =>
        obtain ⟨rfl, -⟩ := List.cons.inj heq
        exact absurd hc (by decide)
    · next heq =>
        obtain ⟨rfl, -⟩ := List.cons.inj heq
        exact absurd hc (by decide)
    · exact hvalue

/-! ## Fields -/

variable {p : Char → Bool} {c : Char} {w s : List Char} {fmt : List Directive}

/-- A scanset stops at the first character that it does not accept. -/
theorem takeWhile_append_stop (hc : p c = false) :
    (w ++ c :: s).takeWhile p = w.takeWhile p := by
  induction w with
  | nil => simp [hc]
  | cons d w ih =>
      by_cases hd : p d = true
      · simp [hd, ih]
      · simp [hd]

/-- A field of accepted characters and the separator behind it. -/
theorem sscanf_field (hw : w ≠ []) (hall : ∀ d ∈ w, p d = true) (hc : p c = false) :
    sscanf (.set p :: .literal c :: fmt) (w ++ c :: s) = w :: sscanf fmt s := by
  have htake : (w ++ c :: s).takeWhile p = w := by
    rw [takeWhile_append_stop hc, List.takeWhile_eq_self_iff.mpr hall]
  have hdrop : (w ++ c :: s).dropWhile p = c :: s := by
    rw [List.dropWhile_append_of_pos hall, List.dropWhile_cons_of_neg (by simp [hc])]
  rw [sscanf, htake, if_neg hw, hdrop, sscanf, if_pos rfl]

/-- A last word and the blank behind it. -/
theorem sscanf_word (hw : w ≠ []) (hall : ∀ d ∈ w, isSpace d = false) (hc : isSpace c = true) :
    sscanf [.word] (w ++ c :: s) = [w] := by
  have hword : ∀ d ∈ w, (!isSpace d) = true := fun d hd => by simp [hall d hd]
  have hskip : (w ++ c :: s).dropWhile isSpace = w ++ c :: s := by
    obtain ⟨d, w', rfl⟩ := List.exists_cons_of_ne_nil hw
    rw [List.cons_append, List.dropWhile_cons_of_neg (by simp [hall d (by simp)])]
  have htake : (w ++ c :: s).takeWhile (fun c => !isSpace c) = w := by
    rw [takeWhile_append_stop (by simp [hc]), List.takeWhile_eq_self_iff.mpr hword]
  rw [sscanf, hskip]
  simp only [htake, if_neg hw, sscanf]

/-- The first assignment of a scanset, whatever follows. -/
theorem sscanf_set_head (h : sscanf (.set p :: fmt) (w ++ c :: s) ≠ []) (hc : p c = false) :
    w.takeWhile p ≠ [] ∧
      ∃ rest, sscanf (.set p :: fmt) (w ++ c :: s) = w.takeWhile p :: rest := by
  rw [sscanf, takeWhile_append_stop hc] at h ⊢
  by_cases hw : w.takeWhile p = []
  · exact absurd (if_pos hw) h
  · exact ⟨hw, _, if_neg hw⟩

end OnDemandRouting.Lib
