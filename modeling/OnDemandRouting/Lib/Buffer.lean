import Mathlib.Data.List.Basic

/-!
# Buffers that are written and read at offsets

A buffer is a list of cells.  `overwrite` copies cells into it at an offset and `slice`
reads a stretch of it.  A stretch is not changed by a copy next to it, and reads back
what was copied over all of it.
-/

namespace OnDemandRouting.Lib

variable {β : Type*}

/-- The `n` cells at `off`. -/
def slice (off n : Nat) (m : List β) : List β := (m.drop off).take n

/-- Copy `bs` over the cells at `off`. -/
def overwrite (off : Nat) (bs m : List β) : List β :=
  m.take off ++ bs ++ m.drop (off + bs.length)

variable {off n i : Nat} {bs m : List β}

theorem getElem?_slice : (slice off n m)[i]? = if i < n then m[off + i]? else none := by
  rw [slice, List.getElem?_take]
  split_ifs <;> simp

theorem length_slice (h : off + n ≤ m.length) : (slice off n m).length = n := by
  rw [slice, List.length_take, List.length_drop]
  omega

theorem length_overwrite (h : off + bs.length ≤ m.length) :
    (overwrite off bs m).length = m.length := by
  simp only [overwrite, List.length_append, List.length_take, List.length_drop]
  omega

theorem getElem?_overwrite (h : off + bs.length ≤ m.length) :
    (overwrite off bs m)[i]? =
      if off ≤ i ∧ i < off + bs.length then bs[i - off]? else m[i]? := by
  have htake : (m.take off).length = off := by
    rw [List.length_take]
    omega
  rw [overwrite, List.append_assoc]
  by_cases hlow : i < off
  · rw [List.getElem?_append_left (by omega), if_neg (by omega), List.getElem?_take, if_pos hlow]
  · rw [List.getElem?_append_right (by omega), htake]
    by_cases hhigh : i < off + bs.length
    · rw [List.getElem?_append_left (by omega), if_pos (by omega)]
    · rw [List.getElem?_append_right (by omega), if_neg (by omega), List.getElem?_drop]
      congr 1
      omega

theorem slice_overwrite_self (h : off + bs.length ≤ m.length) :
    slice off bs.length (overwrite off bs m) = bs := by
  apply List.ext_getElem?
  intro i
  rw [getElem?_slice, getElem?_overwrite h]
  by_cases hi : i < bs.length
  · rw [if_pos hi, if_pos (by omega), Nat.add_sub_cancel_left]
  · rw [if_neg hi, List.getElem?_eq_none (by omega)]

theorem slice_overwrite_of_disjoint {off' : Nat} (h : off + bs.length ≤ m.length)
    (hdisj : off' + n ≤ off ∨ off + bs.length ≤ off') :
    slice off' n (overwrite off bs m) = slice off' n m := by
  apply List.ext_getElem?
  intro i
  rw [getElem?_slice, getElem?_slice]
  by_cases hi : i < n
  · rw [if_pos hi, if_pos hi, getElem?_overwrite h, if_neg (by omega)]
  · rw [if_neg hi, if_neg hi]

theorem drop_overwrite_of_le {off' : Nat} (h : off + bs.length ≤ m.length)
    (hle : off + bs.length ≤ off') : (overwrite off bs m).drop off' = m.drop off' := by
  apply List.ext_getElem?
  intro i
  rw [List.getElem?_drop, List.getElem?_drop, getElem?_overwrite h, if_neg (by omega)]

end OnDemandRouting.Lib
