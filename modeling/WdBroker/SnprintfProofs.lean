import WdBroker.CStringProofs

/-! # A message built by successive `snprintf` calls

    The idiom `offset += snprintf(msg + offset, sizeof(msg) - offset, …)`:
    `snprintf` writes what fits, leaves room for the NUL and returns the length
    the text would have had.  The sum in `offset` therefore counts what was meant
    to be written, not what was, and can leave the array.

    `within_iff` says when it does not: every subtraction `sizeof(msg) - offset`
    is free of underflow and the final offset stays inside the array exactly when
    the whole text is no longer than the array. -/

namespace Snprintf

open CString

/-- The array `msg` and the variables around it.  `data` is the text inside the
    array, `calls` the value of `offset` at each call so far, latest first.  The
    offset is a `size_t`; a handful of texts cannot make it wrap. -/
structure Buf where
  size : Nat
  data : List Byte
  offset : Nat
  calls : List Nat
deriving DecidableEq

/-- A zeroed array and `offset = 0`. -/
def Buf.empty (size : Nat) : Buf := ⟨size, [], 0, []⟩

/-- `offset += snprintf(msg + offset, sizeof(msg) - offset, …)` for a given text.
    Behind the end of the array nothing of the text lands inside it. -/
def Buf.appendf (b : Buf) (text : List Byte) : Buf where
  size := b.size
  data := if b.offset < b.size then b.data ++ text.take (b.size - b.offset - 1) else b.data
  offset := b.offset + text.length
  calls := b.offset :: b.calls

/-- A sequence of such calls. -/
def Buf.appendAll (b : Buf) (texts : List (List Byte)) : Buf :=
  texts.foldl Buf.appendf b

/-- No `sizeof(msg) - offset` has underflowed, and `offset` bytes of `msg` can
    be read. -/
def Buf.Within (b : Buf) : Prop := (∀ o ∈ b.calls, o ≤ b.size) ∧ b.offset ≤ b.size

@[simp] theorem appendAll_size (texts : List (List Byte)) (b : Buf) :
    (b.appendAll texts).size = b.size := by
  induction texts generalizing b with
  | nil => rfl
  | cons t ts ih => exact ih (b.appendf t)

@[simp] theorem appendAll_offset (texts : List (List Byte)) (b : Buf) :
    (b.appendAll texts).offset = b.offset + texts.flatten.length := by
  induction texts generalizing b with
  | nil => rfl
  | cons t ts ih =>
      have h := ih (b.appendf t)
      rw [List.flatten_cons, List.length_append, ← Nat.add_assoc]
      exact h

/-- The offsets only grow, so the last one bounds them all. -/
theorem appendAll_calls_le (texts : List (List Byte)) (b : Buf)
    (h : ∀ o ∈ b.calls, o ≤ b.offset) :
    ∀ o ∈ (b.appendAll texts).calls, o ≤ (b.appendAll texts).offset := by
  induction texts generalizing b with
  | nil => exact h
  | cons t ts ih =>
      refine ih (b.appendf t) ?_
      intro o ho
      show o ≤ b.offset + t.length
      rcases List.mem_cons.mp ho with rfl | ho
      · omega
      · have := h o ho
        omega

/-- **WHEN THE MESSAGE STAYS IN ITS ARRAY**: exactly when the text does. -/
theorem within_iff (size : Nat) (texts : List (List Byte)) :
    ((Buf.empty size).appendAll texts).Within ↔ texts.flatten.length ≤ size := by
  have hoff : ((Buf.empty size).appendAll texts).offset = texts.flatten.length := by
    rw [appendAll_offset]
    exact Nat.zero_add _
  have hsize : ((Buf.empty size).appendAll texts).size = size := appendAll_size texts _
  have hcalls := appendAll_calls_le texts (Buf.empty size) (by intro o ho; exact nomatch ho)
  unfold Buf.Within
  rw [hoff] at hcalls ⊢
  rw [hsize]
  constructor
  · intro h
    exact h.2
  · intro h
    exact ⟨fun o ho => Nat.le_trans (hcalls o ho) h, h⟩

/-- A message that leaves room for the NUL is all in the array. -/
theorem appendAll_data (texts : List (List Byte)) (b : Buf)
    (hfit : b.offset + texts.flatten.length < b.size) :
    (b.appendAll texts).data = b.data ++ texts.flatten := by
  induction texts generalizing b with
  | nil => exact (List.append_nil _).symm
  | cons t ts ih =>
      rw [List.flatten_cons, List.length_append] at hfit
      have happ : (b.appendf t).data = b.data ++ t := by
        unfold Buf.appendf
        rw [if_pos (by omega), List.take_of_length_le (by omega)]
      have htail : (b.appendf t).offset + ts.flatten.length < (b.appendf t).size := by
        show b.offset + t.length + ts.flatten.length < b.size
        omega
      rw [List.flatten_cons, ← List.append_assoc, ← happ]
      exact ih (b.appendf t) htail

/-- What has been written stays. -/
theorem appendAll_prefix (texts : List (List Byte)) (b : Buf) :
    b.data <+: (b.appendAll texts).data := by
  induction texts generalizing b with
  | nil => exact List.prefix_refl _
  | cons t ts ih =>
      have hstep : b.data <+: (b.appendf t).data := by
        unfold Buf.appendf
        dsimp only
        split
        · exact List.prefix_append _ _
        · exact List.prefix_refl _
      exact hstep.trans (ih (b.appendf t))

end Snprintf
