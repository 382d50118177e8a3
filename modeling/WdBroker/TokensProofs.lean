import Mathlib.Data.List.TakeWhile

/-! # Splitting a text into tokens

    `tokens p s` is what successive calls of `strtok` deliver on `s` when `p` tells the
    delimiters: the maximal runs of other elements, in order.  The rules below compute
    it from the left: a delimiter is dropped, and a run that ends at a delimiter or at
    the end of the text is a token. -/

namespace Tokens

variable {α : Type} {p : α → Bool} {s t : List α}

/-- What `dropWhile` leaves begins with an element that ends the run. -/
theorem head_dropWhile (s : List α) : ∀ c ∈ (s.dropWhile p).head?, p c = false := by
  intro c hc
  have hhead := List.head?_dropWhile_not p s
  rw [hc] at hhead
  simpa using hhead

theorem head_dropWhile_not (s : List α) :
    ∀ c ∈ (s.dropWhile fun c => !p c).head?, p c = true := by
  intro c hc
  have hhead := head_dropWhile (p := fun c => !p c) s c hc
  simpa using hhead

/-- The maximal non-empty runs between delimiters. -/
def tokens (p : α → Bool) (s : List α) : List (List α) :=
  (s.splitOnP p).filter fun t => !t.isEmpty

@[simp] theorem tokens_nil : tokens p ([] : List α) = [] := rfl

theorem tokens_cons {c : α} (hc : p c = true) : tokens p (c :: s) = tokens p s := by
  have hsplit : (c :: s).splitOnP p = [] :: s.splitOnP p :=
    List.splitOnP_append_cons [] s hc
  rw [tokens, hsplit, List.filter_cons_of_neg (by simp), tokens]

/-- Delimiters in front change nothing. -/
theorem tokens_append_left {sp : List α} (hsp : ∀ c ∈ sp, p c = true) :
    tokens p (sp ++ s) = tokens p s := by
  induction sp with
  | nil => rfl
  | cons c sp ih =>
      rw [List.cons_append, tokens_cons (hsp c List.mem_cons_self),
        ih fun c' hc' => hsp c' (List.mem_cons_of_mem c hc')]

/-- A text of delimiters has no tokens. -/
theorem tokens_eq_nil (h : ∀ c ∈ s, p c = true) : tokens p s = [] := by
  rw [← List.append_nil s, tokens_append_left h, tokens_nil]

/-- A run that ends at a delimiter, or where the text ends, is a token. -/
theorem tokens_run {rest : List α} (hne : t ≠ []) (ht : ∀ c ∈ t, p c = false)
    (hrest : ∀ c ∈ rest.head?, p c = true) : tokens p (t ++ rest) = t :: tokens p rest := by
  have hkeep : ∀ ts : List (List α),
      (t :: ts).filter (fun t => !t.isEmpty) = t :: ts.filter fun t => !t.isEmpty :=
    fun ts => List.filter_cons_of_pos (by simpa using hne)
  cases rest with
  | nil =>
      rw [List.append_nil, tokens, List.splitOnP_eq_singleton ht, hkeep]
      rfl
  | cons c rest =>
      have hc : p c = true := hrest c rfl
      rw [tokens, List.splitOnP_append_cons_of_forall_mem ht c hc, hkeep,
        tokens_cons hc, tokens]

/-- The first token begins with the run at the front. -/
theorem tokens_front {rest : List α} (hne : t ≠ []) (ht : ∀ c ∈ t, p c = false) :
    ∃ t' ts, tokens p (t ++ rest) = (t ++ t') :: ts := by
  have hsplit : t ++ rest
      = (t ++ rest.takeWhile fun c => !p c) ++ rest.dropWhile fun c => !p c := by
    rw [List.append_assoc, List.takeWhile_append_dropWhile]
  have hrun : ∀ c ∈ t ++ rest.takeWhile fun c => !p c, p c = false :=
    List.forall_mem_append.mpr ⟨ht, fun c hc => by simpa using List.mem_takeWhile_imp hc⟩
  rw [hsplit, tokens_run (List.append_ne_nil_of_left_ne_nil hne _) hrun (head_dropWhile_not rest)]
  exact ⟨_, _, rfl⟩

/-- A token is part of the text. -/
theorem tokens_subset : ∀ t ∈ tokens p s, t ⊆ s := by
  have hsplit : ∀ t ∈ s.splitOnP p, t ⊆ s := by
    induction s with
    | nil =>
        intro t ht
        rw [List.splitOnP_nil] at ht
        obtain rfl := List.mem_singleton.mp ht
        exact List.nil_subset _
    | cons c s ih =>
        intro t ht
        rw [List.splitOnP_cons_eq_if_modifyHead] at ht
        split at ht
        · rcases List.mem_cons.mp ht with rfl | ht
          · exact List.nil_subset _
          · exact fun x hx => List.mem_cons_of_mem c (ih t ht hx)
        · cases hs : s.splitOnP p with
          | nil => exact absurd hs (List.splitOnP_ne_nil p s)
          | cons u us =>
              rw [hs] at ht ih
              rcases List.mem_cons.mp ht with rfl | ht
              · exact List.cons_subset_cons c (ih u List.mem_cons_self)
              · exact fun x hx => List.mem_cons_of_mem c (ih t (List.mem_cons_of_mem u ht) hx)
  exact fun t ht => hsplit t (List.mem_filter.mp ht).1

/-- Lines: texts that each end in a delimiter are the tokens of their concatenation. -/
theorem tokens_lines {c : α} (hc : p c = true) {ls : List (List α)}
    (h : ∀ l ∈ ls, l ≠ [] ∧ ∀ x ∈ l, p x = false) :
    tokens p (ls.map (· ++ [c])).flatten = ls := by
  induction ls with
  | nil => rfl
  | cons l ls ih =>
      obtain ⟨hne, hl⟩ := h l List.mem_cons_self
      have hrest : ∀ x ∈ (c :: (ls.map (· ++ [c])).flatten).head?, p x = true := by
        intro x hx
        cases hx
        exact hc
      rw [List.map_cons, List.flatten_cons, List.append_assoc, List.singleton_append,
        tokens_run hne hl hrest, tokens_cons hc,
        ih fun l' hl' => h l' (List.mem_cons_of_mem l hl')]

end Tokens
