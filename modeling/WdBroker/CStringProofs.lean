import Mathlib.Algebra.Order.Ring.Int
import Mathlib.Data.List.DropRight
import WdBroker.TokensProofs

/-! # C strings: bytes, character classes, fixed buffers

    A C string is the list of its bytes before the terminating NUL.  `CStr cap`
    is the content of a `char[cap]` array that holds such a string: shorter than
    the array and free of NUL, so that an overlong or unterminated string cannot
    be built.  The character classes are those of the C locale. -/

namespace CString

open Tokens

/-- A C `char`, read as `unsigned char`. -/
abbrev Byte := UInt8

/-- The bytes of an ASCII literal. -/
def bytes (s : String) : List Byte :=
  s.toList.map fun c => c.toNat.toUInt8

-- ── <ctype.h> in the C locale ─────────────────────────────────────────────────

/-- `isspace`: blank, `\t`, `\n`, `\v`, `\f`, `\r`. -/
def isspace (b : Byte) : Bool := b == 32 || (9 ≤ b && b ≤ 13)

/-- `isprint`: the blank up to the tilde. -/
def isprint (b : Byte) : Bool := 32 ≤ b && b ≤ 126

def isdigit (b : Byte) : Bool := 48 ≤ b && b ≤ 57

/-- `isxdigit`: decimal digits, `A`–`F`, `a`–`f`. -/
def isxdigit (b : Byte) : Bool :=
  isdigit b || (65 ≤ b && b ≤ 70) || (97 ≤ b && b ≤ 102)

/-- `tolower`: `A`–`Z` move up by 32, everything else is kept. -/
def tolower (b : Byte) : Byte := if 65 ≤ b ∧ b ≤ 90 then b + 32 else b

/-- A hexadecimal digit whose letters are lower case. -/
def isLowerHex (b : Byte) : Bool := isdigit b || (97 ≤ b && b ≤ 102)

/-- A byte is its own number: decide a property of bytes by enumeration. -/
theorem byte_forall {P : Byte → Prop} (h : ∀ n : Fin 256, P (UInt8.ofFin n)) :
    ∀ b, P b := by
  intro b
  have := h b.toFin
  simpa using this

theorem tolower_isLowerHex : ∀ b, isxdigit b = true → isLowerHex (tolower b) = true := by
  grind [isxdigit, isLowerHex, tolower, isdigit]

theorem tolower_of_isLowerHex : ∀ b, isLowerHex b = true → tolower b = b := by
  grind [isLowerHex, tolower, isdigit]

theorem isxdigit_tolower : ∀ b, isxdigit (tolower b) = isxdigit b := by
  grind [isxdigit, tolower, isdigit]

theorem isxdigit_of_isLowerHex : ∀ b, isLowerHex b = true → isxdigit b = true := by
  grind [isxdigit, isLowerHex]

theorem not_isspace_of_isxdigit : ∀ b, isxdigit b = true → isspace b = false := by
  grind [isxdigit, isdigit, isspace]

/-- The blank between two printed fields. -/
theorem isspace_blank : ∀ b ∈ [(32 : Byte)], isspace b = true := List.forall_mem_singleton.mpr rfl

theorem isspace_append_blank {sp : List Byte} (h : ∀ b ∈ sp, isspace b = true) :
    ∀ b ∈ sp ++ [32], isspace b = true :=
  List.forall_mem_append.mpr ⟨h, isspace_blank⟩

theorem not_isspace_of_isdigit : ∀ b, isdigit b = true → isspace b = false := by
  grind [isdigit, isspace]

theorem not_isdigit_of_isspace : ∀ b, isspace b = true → isdigit b = false := by
  grind [isdigit, isspace]

theorem not_nul_of_isxdigit : ∀ b, isxdigit b = true → b ≠ 0 := by
  grind [isxdigit, isdigit]

-- ── strings in memory ─────────────────────────────────────────────────────────

/-- The C string a byte array holds: everything before its first NUL. -/
def cstr (mem : List Byte) : List Byte := mem.takeWhile (· != 0)

theorem cstr_no_nul (mem : List Byte) : (0 : Byte) ∉ cstr mem := by
  intro h
  have := List.mem_takeWhile_imp h
  simp at this

theorem cstr_eq_self {s : List Byte} (h : (0 : Byte) ∉ s) : cstr s = s := by
  refine List.takeWhile_eq_self_iff.mpr ?_
  intro b hb
  have : b ≠ 0 := fun h0 => h (h0 ▸ hb)
  simpa using this

/-- Text without NUL in front of a string belongs to it. -/
theorem cstr_append {a b : List Byte} (h : (0 : Byte) ∉ a) : cstr (a ++ b) = a ++ cstr b := by
  refine List.takeWhile_append_of_pos fun c hc => ?_
  have hne : c ≠ 0 := fun h0 => h (h0 ▸ hc)
  simpa using hne

/-- Text behind a NUL does not. -/
theorem cstr_append_of_mem {a b : List Byte} (h : (0 : Byte) ∈ a) : cstr (a ++ b) = cstr a := by
  induction a with
  | nil => exact absurd h List.not_mem_nil
  | cons c a ih =>
      by_cases hc : c = 0
      · simp [cstr, hc]
      · have hmem : (0 : Byte) ∈ a := (List.mem_cons.mp h).resolve_left fun h0 => hc h0.symm
        have htail := ih hmem
        unfold cstr at htail ⊢
        simp only [List.cons_append, List.takeWhile_cons, bne_iff_ne, ne_eq, hc, not_false_eq_true,
          if_true, htail]

/-- `strncmp(a, b, n) == 0` on C strings. -/
def strncmpEq (a b : List Byte) (n : Nat) : Bool := a.take n == b.take n

/-- `strncmp` over the length of the second string tests for a prefix. -/
theorem strncmpEq_length_iff (a p : List Byte) :
    strncmpEq a p p.length = true ↔ ∃ rest, a = p ++ rest := by
  simp only [strncmpEq, List.take_length, beq_iff_eq]
  constructor
  · intro h
    refine ⟨a.drop p.length, ?_⟩
    calc a = a.take p.length ++ a.drop p.length := (List.take_append_drop _ _).symm
      _ = p ++ a.drop p.length := by rw [h]
  · rintro ⟨rest, rfl⟩
    simp

/-- Strip white space at both ends. -/
def trim (s : List Byte) : List Byte := (s.dropWhile isspace).rdropWhile isspace

theorem trim_subset (s : List Byte) : trim s ⊆ s := by
  intro b hb
  have h1 : b ∈ s.dropWhile isspace := (List.rdropWhile_prefix _ _).subset hb
  exact (List.dropWhile_sublist _).subset h1

/-- Blanks at the end are stripped with the rest. -/
theorem trim_append_blank {s sp : List Byte} (hsp : ∀ b ∈ sp, isspace b = true) :
    trim (s ++ sp) = trim s := by
  have hstrip : ∀ t : List Byte, (t ++ sp).rdropWhile isspace = t.rdropWhile isspace := by
    intro t
    rw [List.rdropWhile, List.reverse_append, List.dropWhile_append_of_pos (by simpa using hsp)]
    rfl
  unfold trim
  by_cases hs : ∀ b ∈ s, isspace b = true
  · rw [List.dropWhile_append_of_pos hs, List.dropWhile_eq_nil_iff.mpr hsp,
      List.dropWhile_eq_nil_iff.mpr hs]
  · have hne : (s.dropWhile isspace).isEmpty = false := by
      rw [List.isEmpty_eq_false_iff, ne_eq, List.dropWhile_eq_nil_iff]
      exact hs
    rw [List.dropWhile_append, hne, if_neg Bool.false_ne_true, hstrip]

/-- A text that begins with no blank keeps its first byte. -/
theorem trim_cons {c : Byte} {s : List Byte} (hc : isspace c = false) :
    ∃ t, trim (c :: s) = c :: t := by
  have hkeep : (c :: s).dropWhile isspace = c :: s :=
    List.dropWhile_cons_of_neg (by rw [hc]; exact Bool.false_ne_true)
  rw [trim, hkeep]
  cases ht : (c :: s).rdropWhile isspace with
  | nil =>
      have hall := List.rdropWhile_eq_nil_iff.mp ht c List.mem_cons_self
      rw [hc] at hall
      exact Bool.noConfusion hall
  | cons d t =>
      obtain ⟨u, hu⟩ := List.rdropWhile_prefix isspace (c :: s)
      rw [ht] at hu
      rw [(List.cons.inj hu).1]
      exact ⟨t, rfl⟩

/-- Blanks in front are stripped with the rest. -/
theorem trim_blank_append {sp s : List Byte} (hsp : ∀ b ∈ sp, isspace b = true) :
    trim (sp ++ s) = trim s := by
  rw [trim, List.dropWhile_append_of_pos hsp, trim]

/-- What is stripped are blanks at both ends. -/
theorem trim_split (s : List Byte) : ∃ sp sp', s = sp ++ (trim s ++ sp') ∧
    (∀ b ∈ sp, isspace b = true) ∧ ∀ b ∈ sp', isspace b = true := by
  refine ⟨s.takeWhile isspace, (s.dropWhile isspace).rtakeWhile isspace, ?_,
    fun _ => List.mem_takeWhile_imp, fun _ => List.mem_rtakeWhile_imp⟩
  rw [trim, List.rdropWhile_append_rtakeWhile, List.takeWhile_append_dropWhile]

/-- A NUL is not stripped. -/
theorem trim_no_nul {s : List Byte} (h : (0 : Byte) ∉ trim s) : (0 : Byte) ∉ s := by
  obtain ⟨sp, sp', hs, hsp, hsp'⟩ := trim_split s
  rw [hs]
  intro h0
  rcases List.mem_append.mp h0 with h0 | h0
  · exact absurd (hsp 0 h0) (by decide)
  rcases List.mem_append.mp h0 with h0 | h0
  · exact h h0
  · exact absurd (hsp' 0 h0) (by decide)

/-- What comes before the first word. -/
theorem dropWhile_isspace_append {sp t rest : List Byte}
    (hsp : ∀ b ∈ sp, isspace b = true) (hne : t ≠ [])
    (ht : ∀ b ∈ t, isspace b = false) :
    (sp ++ (t ++ rest)).dropWhile isspace = t ++ rest := by
  rw [List.dropWhile_append_of_pos hsp]
  cases t with
  | nil => exact absurd rfl hne
  | cons b t =>
      rw [List.cons_append, List.dropWhile_cons_of_neg]
      rw [ht b List.mem_cons_self]
      exact Bool.false_ne_true

/-- A string is blank or has a first word. -/
theorem blank_or_word (s : List Byte) :
    (∀ b ∈ s, isspace b = true) ∨ ∃ sp t rest, s = sp ++ (t ++ rest) ∧
      (∀ b ∈ sp, isspace b = true) ∧ t ≠ [] ∧ (∀ b ∈ t, isspace b = false) ∧
      ∀ b ∈ rest.head?, isspace b = true := by
  cases hd : s.dropWhile isspace with
  | nil => exact Or.inl (List.dropWhile_eq_nil_iff.mp hd)
  | cons b r =>
      have hb : isspace b = false := by
        have := List.head_dropWhile_not isspace (by rw [hd]; simp : s.dropWhile isspace ≠ [])
        simpa [hd] using this
      refine Or.inr ⟨s.takeWhile isspace, (b :: r).takeWhile (fun b => !isspace b),
        (b :: r).dropWhile (fun b => !isspace b), ?_, fun _ => List.mem_takeWhile_imp, ?_, ?_, ?_⟩
      · rw [List.takeWhile_append_dropWhile, ← hd, List.takeWhile_append_dropWhile]
      · simp [hb]
      · intro c hc
        simpa using List.mem_takeWhile_imp hc
      · exact head_dropWhile_not (b :: r)

/-- A word does not reach over a blank. -/
theorem word_before_blank {t rest u v : List Byte} {c : Byte}
    (ht : ∀ b ∈ t, isspace b = false) (hc : isspace c = true)
    (h : t ++ rest = u ++ c :: v) : ∃ r, u = t ++ r ∧ rest = r ++ c :: v := by
  rcases List.append_eq_append_iff.mp h with ⟨r, hu, hrest⟩ | ⟨r, rfl, hv⟩
  · exact ⟨r, hu, hrest⟩
  · cases r with
    | nil => exact ⟨[], by simp, by simpa using hv.symm⟩
    | cons b r =>
        obtain ⟨rfl, -⟩ := List.cons.inj hv
        have := ht c (by simp)
        rw [hc] at this
        exact Bool.noConfusion this

/-- The first word of a text stands before a blank, if anything but blanks does. -/
theorem first_word_before {sp t rest u v : List Byte} {c x : Byte}
    (hsp : ∀ b ∈ sp, isspace b = true) (ht : ∀ b ∈ t, isspace b = false)
    (hx : x ∈ u) (hword : isspace x = false) (hc : isspace c = true)
    (h : sp ++ (t ++ rest) = u ++ c :: v) :
    ∃ r, u = sp ++ (t ++ r) ∧ rest = r ++ c :: v := by
  rcases List.append_eq_append_iff.mp h with ⟨a, rfl, ha⟩ | ⟨a, rfl, -⟩
  · obtain ⟨r, rfl, hrest⟩ := word_before_blank ht hc ha
    exact ⟨r, rfl, hrest⟩
  · have := hsp x (List.mem_append_left a hx)
    rw [hword] at this
    exact Bool.noConfusion this

theorem bne_of_not_mem {c : Byte} {s : List Byte} (h : c ∉ s) : ∀ b ∈ s, (b != c) = true := by
  intro b hb
  rw [bne_iff_ne]
  rintro rfl
  exact h hb

theorem not_mem_of_bne {c : Byte} {s : List Byte} (h : ∀ b ∈ s, (b != c) = true) : c ∉ s := by
  intro hc
  have hne := h c hc
  rw [bne_self_eq_false] at hne
  exact Bool.noConfusion hne

/-- A prefix of two texts ends in the first or in the second. -/
theorem prefix_append_cases {α : Type} {l a b : List α} (h : l <+: a ++ b) :
    l <+: a ∨ ∃ c, l = a ++ c ∧ c <+: b := by
  obtain ⟨t, ht⟩ := h
  rcases List.append_eq_append_iff.mp ht with ⟨c, ha, -⟩ | ⟨c, hl, hb⟩
  · exact Or.inl ⟨c, ha.symm⟩
  · exact Or.inr ⟨c, hl, t, hb.symm⟩

/-- What is left of blanks is nothing. -/
theorem trim_blank {s : List Byte} (h : ∀ b ∈ s, isspace b = true) : trim s = [] := by
  rw [trim, List.dropWhile_eq_nil_iff.mpr h, List.rdropWhile_nil]

/-- Blanks around a word are stripped. -/
theorem trim_word {sp t sp' : List Byte} (hsp : ∀ b ∈ sp, isspace b = true)
    (hsp' : ∀ b ∈ sp', isspace b = true) (hne : t ≠ []) (ht : ∀ b ∈ t, isspace b = false) :
    trim (sp ++ (t ++ sp')) = t := by
  have hrev : (t ++ sp').reverse = sp'.reverse ++ (t.reverse ++ []) := by simp
  rw [trim, dropWhile_isspace_append hsp hne ht, List.rdropWhile, hrev,
    dropWhile_isspace_append (by simpa using hsp') (by simpa using hne) (by simpa using ht),
    List.append_nil, List.reverse_reverse]

/-- Blanks between words are not. -/
theorem trim_words {sp t rest : List Byte} {x : Byte} (hsp : ∀ b ∈ sp, isspace b = true)
    (hne : t ≠ []) (ht : ∀ b ∈ t, isspace b = false) (hhead : ∀ b ∈ rest.head?, isspace b = true)
    (hx : x ∈ rest) (hword : isspace x = false) :
    ∃ b ∈ trim (sp ++ (t ++ rest)), isspace b = true := by
  by_contra hnone
  cases rest with
  | nil => exact absurd hx List.not_mem_nil
  | cons c rest =>
      have hc : isspace c = true := hhead c rfl
      have hmem : x ∈ rest := by
        rcases List.mem_cons.mp hx with rfl | h
        · rw [hc] at hword
          exact Bool.noConfusion hword
        · exact h
      have hsplit : trim (sp ++ (t ++ c :: rest)) ++ (t ++ c :: rest).rtakeWhile isspace
          = t ++ c :: rest := by
        rw [trim, dropWhile_isspace_append hsp hne ht, List.rdropWhile_append_rtakeWhile]
      have hall : ∀ b ∈ trim (sp ++ (t ++ c :: rest)), isspace b = false := fun b hb =>
        Bool.eq_false_iff.mpr fun hblank => hnone ⟨b, hb, hblank⟩
      obtain ⟨r, -, hr⟩ := word_before_blank hall hc hsplit
      have hlast : x ∈ (t ++ c :: rest).rtakeWhile isspace := by
        rw [hr]
        exact List.mem_append_right r (List.mem_cons_of_mem c hmem)
      have hblank := List.mem_rtakeWhile_imp hlast
      rw [hword] at hblank
      exact Bool.noConfusion hblank

-- ── reading a text file line by line ──────────────────────────────────────────

/-- The lines that successive calls of `fgets(line, size, f)` deliver: a line
    ends behind a newline, at the end of the file, or when `size - 1` bytes have
    been read.  `cur` is what the current call has read so far. -/
def fgetsLines (size : Nat) : List Byte → List Byte → List (List Byte)
  | cur, [] => if cur = [] then [] else [cur]
  | cur, b :: rest =>
      if b = 10 ∨ cur.length + 1 = size - 1 then (cur ++ [b]) :: fgetsLines size [] rest
      else fgetsLines size (cur ++ [b]) rest

/-- The text is empty or ends in a newline: whatever follows begins a line. -/
def EndsLine (text : List Byte) : Prop := text = [] ∨ ∃ t, text = t ++ [10]

/-- Lines do not reach over a newline. -/
theorem fgetsLines_append {size : Nat} {a : List Byte} (ha : EndsLine a) (b : List Byte) :
    fgetsLines size [] (a ++ b) = fgetsLines size [] a ++ fgetsLines size [] b := by
  have main : ∀ (t cur : List Byte), fgetsLines size cur (t ++ 10 :: b)
      = fgetsLines size cur (t ++ [10]) ++ fgetsLines size [] b := by
    intro t
    induction t with
    | nil => intro cur; simp [fgetsLines]
    | cons c t ih =>
        intro cur
        rw [List.cons_append, List.cons_append, fgetsLines, fgetsLines]
        split
        · rw [ih, List.cons_append]
        · exact ih _
  rcases ha with rfl | ⟨t, rfl⟩
  · rfl
  · rw [List.append_assoc, List.singleton_append]
    exact main t []

/-- A line that fits the buffer is delivered in one piece. -/
theorem fgetsLines_line {size : Nat} {line eol : List Byte} (hline : (10 : Byte) ∉ line)
    (heol : eol = [] ∨ eol = [10]) (hne : line ++ eol ≠ []) (hlen : line.length + 1 < size) :
    fgetsLines size [] (line ++ eol) = [line ++ eol] := by
  have main : ∀ (t cur : List Byte), (10 : Byte) ∉ t → cur.length + t.length + 1 < size →
      cur ++ t ++ eol ≠ [] → fgetsLines size cur (t ++ eol) = [cur ++ t ++ eol] := by
    intro t
    induction t with
    | nil =>
        intro cur _ _ hcur
        rcases heol with rfl | rfl
        · rw [List.append_nil, List.append_nil] at hcur
          rw [List.append_nil, fgetsLines, if_neg hcur, List.append_nil, List.append_nil]
        · simp [fgetsLines]
    | cons c t ih =>
        intro cur ht hfit _
        have hc : c ≠ 10 := fun h => ht (h ▸ List.mem_cons_self)
        rw [List.length_cons] at hfit
        rw [List.cons_append, fgetsLines,
          if_neg (not_or.mpr ⟨hc, by omega⟩),
          ih (cur ++ [c]) (fun h => ht (List.mem_cons_of_mem c h))
            (by rw [List.length_append, List.length_singleton]; omega) (by simp)]
        simp
  exact main line [] hline (by rw [List.length_nil]; omega) hne

/-- A newline is the last byte of the line it ends. -/
theorem fgetsLines_newline {size : Nat} {text cur line : List Byte} (hcur : (10 : Byte) ∉ cur)
    (h : line ∈ fgetsLines size cur text) :
    ∃ body eol, line = body ++ eol ∧ (10 : Byte) ∉ body ∧ (eol = [] ∨ eol = [10]) := by
  induction text generalizing cur with
  | nil =>
      rw [fgetsLines] at h
      split at h
      · exact absurd h List.not_mem_nil
      · exact ⟨cur, [], by rw [List.mem_singleton.mp h, List.append_nil], hcur, Or.inl rfl⟩
  | cons b rest ih =>
      have hgrow : b ≠ 10 → (10 : Byte) ∉ cur ++ [b] := by
        intro hb hmem
        rcases List.mem_append.mp hmem with hmem | hmem
        · exact hcur hmem
        · exact hb (List.mem_singleton.mp hmem).symm
      rw [fgetsLines] at h
      split at h
      · rcases List.mem_cons.mp h with rfl | h
        · by_cases hb : b = 10
          · exact ⟨cur, [10], by rw [hb], hcur, Or.inr rfl⟩
          · exact ⟨cur ++ [b], [], (List.append_nil _).symm, hgrow hb, Or.inl rfl⟩
        · exact ih List.not_mem_nil h
      · next hno => exact ih (hgrow (not_or.mp hno).1) h

-- ── fixed buffers ─────────────────────────────────────────────────────────────

/-- The content of a `char[cap]` array holding a C string. -/
structure CStr (cap : Nat) where
  chars : List Byte
  fits : chars.length < cap
  noNul : (0 : Byte) ∉ chars
deriving DecidableEq

namespace CStr

variable {cap : Nat}

@[ext] theorem ext {s t : CStr cap} (h : s.chars = t.chars) : s = t := by
  cases s; cases t; cases h; rfl

/-- An array whose first byte is NUL, as `memset(…, 0, …)` leaves it. -/
def empty (cap : Nat) [NeZero cap] : CStr cap := ⟨[], Nat.pos_of_neZero cap, List.not_mem_nil⟩

/-- `strncpy(dst, src, cap)` for a source that leaves room for the NUL; a longer
    source is cut so that the array still ends in one. -/
def strncpy (cap : Nat) [NeZero cap] (src : List Byte) : CStr cap where
  chars := (cstr src).take (cap - 1)
  fits := by
    have := Nat.pos_of_neZero cap
    have := List.length_take_le (cap - 1) (cstr src)
    omega
  noNul := fun h0 => cstr_no_nul src (List.mem_of_mem_take h0)

/-- A source that fits and holds no NUL is copied as it is. -/
theorem strncpy_chars [NeZero cap] {src : List Byte} (hlen : src.length < cap)
    (hnul : (0 : Byte) ∉ src) : (strncpy cap src).chars = src := by
  show (cstr src).take (cap - 1) = src
  rw [cstr_eq_self hnul]
  exact List.take_of_length_le (by omega)

/-- Copying the string an array of the same size holds gives that string. -/
@[simp] theorem strncpy_self [NeZero cap] (s : CStr cap) : strncpy cap s.chars = s :=
  CStr.ext (strncpy_chars s.fits s.noNul)

end CStr

end CString
