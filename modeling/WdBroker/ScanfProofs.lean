import WdBroker.CStringProofs

/-! # `sscanf`, `strtoul`, `strtol` and the `printf` numerals

    A format is the list of its directives; `sscanf` returns the list of the
    values it assigns, so that C's result `n` is the length of that list (an
    input failure before the first conversion, C's `EOF`, assigns nothing and is
    the empty list here).  The conversions are those of the C locale with a
    64-bit `long`:

    * a blank in the format matches any amount of white space, also none;
    * `%Ns` skips white space and takes at most `N` other bytes;
    * `%N[…]` takes at most `N` bytes of the set and skips nothing;
    * `%u` and `%d` skip white space, read an optional sign and decimal digits,
      convert as `strtoul` or `strtol` does and keep the low 32 bits.

    The soundness lemmas say where in the input an assigned field stands. -/

namespace Scanf

open CString Tokens

-- ── numerals ──────────────────────────────────────────────────────────────────

/-- The number a run of decimal digits denotes. -/
def digitsVal (ds : List Byte) : Nat :=
  ds.foldl (fun n d => 10 * n + (d.toNat - 48)) 0

/-- Split off an optional sign: is it a minus, and what follows. -/
def scanSign : List Byte → Bool × List Byte
  | [] => (false, [])
  | b :: s => if b = 45 then (true, s) else if b = 43 then (false, s) else (false, b :: s)

/-- An optional sign and at least one digit: the sign, the digits, the rest. -/
def scanNumeral (s : List Byte) : Option (Bool × List Byte × List Byte) :=
  let (neg, t) := scanSign s
  let ds := t.takeWhile isdigit
  if ds = [] then none else some (neg, ds, t.drop ds.length)

/-- The integer that a sign and digits denote. -/
def signed (neg : Bool) (ds : List Byte) : Int :=
  if neg then -(digitsVal ds : Int) else digitsVal ds

/-- The integer that a text denotes if it is a numeral and nothing else. -/
def numeral (s : List Byte) : Option Int :=
  match scanNumeral s with
  | some (neg, ds, []) => some (signed neg ds)
  | _ => none

/-- `strtoul`: out of range gives `ULONG_MAX`, a minus negates modulo `2^64`. -/
def strtoul (neg : Bool) (ds : List Byte) : Nat :=
  let v := digitsVal ds
  if 2 ^ 64 ≤ v then 2 ^ 64 - 1 else if neg then (2 ^ 64 - v) % 2 ^ 64 else v

/-- `strtol`: out of range gives `LONG_MIN` or `LONG_MAX`. -/
def strtol (neg : Bool) (ds : List Byte) : Int :=
  let v : Int := if neg then -(digitsVal ds : Int) else digitsVal ds
  max (-2 ^ 63) (min v (2 ^ 63 - 1))

/-- Conversion of a `long` to `int`: the low 32 bits, read as signed. -/
def toInt (v : Int) : Int := v.bmod (2 ^ 32)

/-- `atoi`: zero where no numeral stands. -/
def atoi (s : List Byte) : Int :=
  match scanNumeral (s.dropWhile isspace) with
  | none => 0
  | some (neg, ds, _) => toInt (strtol neg ds)

/-- `printf`'s `%u` and `%zu`. -/
def decimal (n : Nat) : List Byte :=
  (Nat.toDigits 10 n).map fun c => c.toNat.toUInt8

/-- `printf`'s `%d`. -/
def decimalInt (z : Int) : List Byte :=
  if z < 0 then 45 :: decimal z.natAbs else decimal z.natAbs

-- ── sscanf ────────────────────────────────────────────────────────────────────

/-- A conversion or a piece of literal text of a `scanf` format. -/
inductive Directive where
  | space
  | lit (b : Byte)
  | str (width : Nat)
  | set (width : Nat) (p : Byte → Bool)
  | uint
  | int

/-- A value that `sscanf` assigns. -/
inductive Value where
  | str (s : List Byte)
  | uint (n : Nat)
  | int (z : Int)
deriving DecidableEq

/-- The literal text of a format, byte by byte. -/
def lits (s : String) : List Directive := (bytes s).map Directive.lit

/-- The longest prefix of at most `w` bytes that all satisfy `p`. -/
def token (w : Nat) (p : Byte → Bool) (s : List Byte) : List Byte :=
  (s.take w).takeWhile p

/-- `sscanf(s, format, …)`: the values assigned, in order. -/
def sscanf : List Directive → List Byte → List Value
  | [], _ => []
  | .space :: ds, s => sscanf ds (s.dropWhile isspace)
  | .lit _ :: _, [] => []
  | .lit b :: ds, c :: s => if c = b then sscanf ds s else []
  | .str w :: ds, s =>
      let s := s.dropWhile isspace
      let t := token w (fun b => !isspace b) s
      if t = [] then [] else .str t :: sscanf ds (s.drop t.length)
  | .set w p :: ds, s =>
      let t := token w p s
      if t = [] then [] else .str t :: sscanf ds (s.drop t.length)
  | .uint :: ds, s =>
      match scanNumeral (s.dropWhile isspace) with
      | none => []
      | some (neg, digits, rest) => .uint (strtoul neg digits % 2 ^ 32) :: sscanf ds rest
  | .int :: ds, s =>
      match scanNumeral (s.dropWhile isspace) with
      | none => []
      | some (neg, digits, rest) => .int (toInt (strtol neg digits)) :: sscanf ds rest

-- ── printed numbers ───────────────────────────────────────────────────────────

/-- The last digit stands at the end. -/
theorem decimal_eq (n : Nat) :
    decimal n = (if n < 10 then [] else decimal (n / 10)) ++ [(48 + n % 10).toUInt8] := by
  have hdigit : ∀ d < 10, (Nat.digitChar d).toNat.toUInt8 = (48 + d).toUInt8 := by decide
  unfold decimal
  rw [Nat.toDigits_eq_if (by decide)]
  split
  · next h => simp [hdigit n h, Nat.mod_eq_of_lt h]
  · simp [hdigit (n % 10) (Nat.mod_lt _ (by decide))]

theorem decimal_ne_nil (n : Nat) : decimal n ≠ [] := by
  rw [decimal_eq]
  simp

theorem decimal_isdigit (n : Nat) : ∀ b ∈ decimal n, isdigit b = true := by
  have hdigit : ∀ d < 10, isdigit (48 + d).toUInt8 = true := by decide
  induction n using Nat.strongRecOn with
  | ind n ih =>
      intro b hb
      rw [decimal_eq] at hb
      rcases List.mem_append.mp hb with h | h
      · split at h
        · exact absurd h List.not_mem_nil
        · exact ih (n / 10) (by omega) b h
      · rw [List.mem_singleton.mp h]
        exact hdigit _ (Nat.mod_lt _ (by decide))

theorem digitsVal_concat (ds : List Byte) (d : Byte) :
    digitsVal (ds ++ [d]) = 10 * digitsVal ds + (d.toNat - 48) := by
  simp [digitsVal]

/-- A further digit multiplies by ten at least. -/
theorem ten_mul_digitsVal_le {ds es : List Byte} (hne : es ≠ []) :
    10 * digitsVal ds ≤ digitsVal (ds ++ es) := by
  have hmono : ∀ es : List Byte, digitsVal ds ≤ digitsVal (ds ++ es) := by
    intro es
    induction es using List.reverseRecOn with
    | nil => rw [List.append_nil]
    | append_singleton es e ih =>
        rw [← List.append_assoc, digitsVal_concat]
        omega
  obtain ⟨es', e, rfl⟩ := List.eq_nil_or_concat es |>.resolve_left hne
  have hle := hmono es'
  rw [List.concat_eq_append, ← List.append_assoc, digitsVal_concat]
  omega

/-- A numeral in the range of `unsigned int` is converted to its own value. -/
theorem strtoul_signed {neg : Bool} {ds : List Byte} (h0 : 0 ≤ signed neg ds)
    (h32 : signed neg ds < 2 ^ 32) : ((strtoul neg ds % 2 ^ 32 : Nat) : Int) = signed neg ds := by
  have hsmall : ¬ 2 ^ 64 ≤ digitsVal ds := by
    cases neg <;> simp only [signed, if_true, Bool.false_eq_true, if_false] at h0 h32 <;> omega
  simp only [strtoul]
  rw [if_neg hsmall]
  cases neg <;> simp only [signed, if_true, Bool.false_eq_true, if_false] at h0 h32 ⊢ <;> omega

/-- A printed number denotes itself. -/
theorem digitsVal_decimal (n : Nat) : digitsVal (decimal n) = n := by
  have hval : ∀ d < 10, (48 + d).toUInt8.toNat - 48 = d := by decide
  induction n using Nat.strongRecOn with
  | ind n ih =>
      rw [decimal_eq, digitsVal_concat, hval _ (Nat.mod_lt _ (by decide))]
      split
      · next h => simp [digitsVal, Nat.mod_eq_of_lt h]
      · rw [ih (n / 10) (by omega), Nat.div_add_mod]

-- ── where a field stands ──────────────────────────────────────────────────────

variable {w : Nat} {p : Byte → Bool} {s : List Byte}

theorem token_length_le : (token w p s).length ≤ w :=
  calc (token w p s).length ≤ (s.take w).length := (List.takeWhile_sublist _).length_le
    _ ≤ w := List.length_take_le w s

theorem token_forall : ∀ b ∈ token w p s, p b = true :=
  fun _ hb => List.mem_takeWhile_imp hb

theorem token_prefix : token w p s <+: s :=
  (List.takeWhile_prefix _).trans (List.take_prefix w s)

theorem token_append_drop : token w p s ++ s.drop (token w p s).length = s :=
  (List.prefix_iff_eq_append.mp token_prefix)

/-- A token ends at the width, at a byte that is not of the set, or with the text. -/
theorem token_end :
    (token w p s).length = w ∨ ∀ b ∈ (s.drop (token w p s).length).head?, p b = false := by
  induction s generalizing w with
  | nil => exact Or.inr (by simp)
  | cons c s ih =>
      cases w with
      | zero => exact Or.inl rfl
      | succ w =>
          by_cases hc : p c = true
          · have htok : token (w + 1) p (c :: s) = c :: token w p s := by
              simp [token, hc]
            rw [htok, List.length_cons, List.drop_succ_cons]
            exact ih.imp (congrArg (· + 1)) id
          · have htok : token (w + 1) p (c :: s) = [] := by
              simp [token, hc]
            rw [htok, List.length_nil, List.drop_zero]
            exact Or.inr fun b hb => by cases hb; simpa using hc

/-- An assigned `%Ns` field: blanks, then the field, then what the rest of the
    format reads. -/
theorem sscanf_str {ds : List Directive} {v : Value} {vs : List Value}
    (h : sscanf (.str w :: ds) s = v :: vs) :
    ∃ sp t rest, s = sp ++ t ++ rest ∧ v = .str t ∧ vs = sscanf ds rest ∧
      t ≠ [] ∧ t.length ≤ w ∧ (t.length = w ∨ ∀ b ∈ rest.head?, isspace b = true) ∧
      (∀ b ∈ sp, isspace b = true) ∧ (∀ b ∈ t, isspace b = false) := by
  simp only [sscanf] at h
  split at h
  · exact nomatch h
  · next hne =>
      obtain ⟨hv, hvs⟩ := List.cons.inj h
      refine ⟨s.takeWhile isspace, _, _, ?_, hv.symm, hvs.symm, hne, token_length_le, ?_, ?_, ?_⟩
      · rw [List.append_assoc, token_append_drop, List.takeWhile_append_dropWhile]
      · exact token_end.imp id fun hend b hb => by simpa using hend b hb
      · exact fun b hb => List.mem_takeWhile_imp hb
      · intro b hb
        have := token_forall b hb
        simpa using this

/-- A minus, a plus or nothing. -/
def IsSign (sign : List Byte) (neg : Bool) : Prop :=
  sign = [45] ∧ neg = true ∨ (sign = [] ∨ sign = [43]) ∧ neg = false

theorem scanSign_eq (s : List Byte) :
    ∃ sign, s = sign ++ (scanSign s).2 ∧ IsSign sign (scanSign s).1 := by
  cases s with
  | nil => exact ⟨[], rfl, Or.inr ⟨Or.inl rfl, rfl⟩⟩
  | cons b s =>
      simp only [scanSign]
      split
      · next hb => exact ⟨[45], by rw [hb]; rfl, Or.inl ⟨rfl, rfl⟩⟩
      split
      · next hb => exact ⟨[43], by rw [hb]; rfl, Or.inr ⟨Or.inr rfl, rfl⟩⟩
      · exact ⟨[], rfl, Or.inr ⟨Or.inl rfl, rfl⟩⟩

/-- Where the sign and the digits of a numeral stand. -/
theorem scanNumeral_some {ds rest : List Byte} {neg : Bool}
    (h : scanNumeral s = some (neg, ds, rest)) :
    ∃ sign, s = sign ++ (ds ++ rest) ∧
      IsSign sign neg ∧
      ds ≠ [] ∧ (∀ b ∈ ds, isdigit b = true) ∧ ∀ b ∈ rest.head?, isdigit b = false := by
  obtain ⟨sign, hs, hneg⟩ := scanSign_eq s
  simp only [scanNumeral] at h
  split at h
  · exact nomatch h
  · next hne =>
      cases h
      have hsplit := List.prefix_iff_eq_append.mp
        (List.takeWhile_prefix (l := (scanSign s).2) isdigit)
      refine ⟨sign, hsplit.symm ▸ hs, hneg, hne, fun _ => List.mem_takeWhile_imp, fun b hb => ?_⟩
      rw [List.append_cancel_left (hsplit.trans List.takeWhile_append_dropWhile.symm)] at hb
      exact head_dropWhile _ b hb

/-- An assigned `%u` field: blanks, then a sign and digits, then what the rest of
    the format reads. -/
theorem sscanf_uint {ds : List Directive} {v : Value} {vs : List Value}
    (h : sscanf (.uint :: ds) s = v :: vs) :
    ∃ sp neg sign digits rest, s = sp ++ ((sign ++ digits) ++ rest) ∧
      v = .uint (strtoul neg digits % 2 ^ 32) ∧ vs = sscanf ds rest ∧
      (∀ b ∈ sp, isspace b = true) ∧
      IsSign sign neg ∧
      digits ≠ [] ∧ (∀ b ∈ digits, isdigit b = true) ∧ ∀ b ∈ rest.head?, isdigit b = false := by
  simp only [sscanf] at h
  split at h
  · exact nomatch h
  · next neg digits rest hnum =>
      obtain ⟨hv, hvs⟩ := List.cons.inj h
      obtain ⟨sign, hs, hsign, hne, hdigits, hend⟩ := scanNumeral_some hnum
      refine ⟨s.takeWhile isspace, neg, sign, digits, rest, ?_, hv.symm, hvs.symm,
        fun _ => List.mem_takeWhile_imp, hsign, hne, hdigits, hend⟩
      rw [List.append_assoc, ← hs, List.takeWhile_append_dropWhile]

/-- An assigned `%N[…]` field is a prefix of the input. -/
theorem sscanf_set {ds : List Directive} {v : Value} {vs : List Value}
    (h : sscanf (.set w p :: ds) s = v :: vs) :
    ∃ t rest, s = t ++ rest ∧ v = .str t ∧ vs = sscanf ds rest ∧
      t ≠ [] ∧ t.length ≤ w ∧ (∀ b ∈ t, p b = true) ∧
      (t.length = w ∨ ∀ b ∈ rest.head?, p b = false) := by
  simp only [sscanf] at h
  split at h
  · exact nomatch h
  · next hne =>
      obtain ⟨hv, hvs⟩ := List.cons.inj h
      exact ⟨_, _, token_append_drop.symm, hv.symm, hvs.symm, hne, token_length_le,
        token_forall, token_end⟩

/-- A format that begins with literal text assigns only behind that text. -/
theorem sscanf_lits {t : String} {ds : List Directive} {v : Value} {vs : List Value}
    (h : sscanf (lits t ++ ds) s = v :: vs) :
    ∃ rest, s = bytes t ++ rest ∧ sscanf ds rest = v :: vs := by
  have main : ∀ (bs s : List Byte), sscanf (bs.map Directive.lit ++ ds) s = v :: vs →
      ∃ rest, s = bs ++ rest ∧ sscanf ds rest = v :: vs := by
    intro bs
    induction bs with
    | nil => intro s h; exact ⟨s, rfl, h⟩
    | cons b bs ih =>
        intro s h
        cases s with
        | nil => exact nomatch h
        | cons c s =>
            simp only [List.map_cons, List.cons_append, sscanf] at h
            split at h
            · next hc =>
                obtain ⟨rest, hs, hrest⟩ := ih s h
                exact ⟨rest, by rw [hc, hs, List.cons_append], hrest⟩
            · exact nomatch h
  exact main (bytes t) s h

-- ── what a given text is read as ──────────────────────────────────────────────

/-- A run that fills the width, or is followed by a byte outside the set or the end of
    the text, is a token. -/
theorem token_run {t rest : List Byte} (ht : ∀ b ∈ t, p b = true) (hw : t.length ≤ w)
    (hend : t.length = w ∨ ∀ b ∈ rest.head?, p b = false) : token w p (t ++ rest) = t := by
  unfold token
  rcases hend with hlen | hhead
  · rw [← hlen, List.take_left' rfl]
    exact List.takeWhile_eq_self_iff.mpr ht
  · rw [List.take_append, List.take_of_length_le hw, List.takeWhile_append_of_pos ht]
    cases rest with
    | nil => simp
    | cons b rest =>
        have hb : p b = false := hhead b rfl
        cases w - t.length <;> simp [hb]

/-- Such a run is read as one `%N[…]` field. -/
theorem sscanf_set_run {ds : List Directive} {t rest : List Byte} (hne : t ≠ [])
    (ht : ∀ b ∈ t, p b = true) (hw : t.length ≤ w)
    (hend : t.length = w ∨ ∀ b ∈ rest.head?, p b = false) :
    sscanf (.set w p :: ds) (t ++ rest) = .str t :: sscanf ds rest := by
  simp only [sscanf]
  rw [token_run ht hw hend, if_neg hne, List.drop_left' rfl]

/-- Literal text is read over. -/
theorem sscanf_lits_append (t : String) (ds : List Directive) (rest : List Byte) :
    sscanf (lits t ++ ds) (bytes t ++ rest) = sscanf ds rest := by
  have main : ∀ bs : List Byte,
      sscanf (bs.map Directive.lit ++ ds) (bs ++ rest) = sscanf ds rest := by
    intro bs
    induction bs with
    | nil => rfl
    | cons b bs ih =>
        simp only [List.map_cons, List.cons_append, sscanf, if_true]
        exact ih
  exact main (bytes t)

/-- A word that fills the width, or is followed by a blank or the end of the
    text, is read as one `%Ns` field. -/
theorem sscanf_str_word {ds : List Directive} {sp t rest : List Byte}
    (hsp : ∀ b ∈ sp, isspace b = true) (hne : t ≠ [])
    (ht : ∀ b ∈ t, isspace b = false) (hw : t.length ≤ w)
    (hend : t.length = w ∨ ∀ b ∈ rest.head?, isspace b = true) :
    sscanf (.str w :: ds) (sp ++ (t ++ rest)) = .str t :: sscanf ds rest := by
  have htok : token w (fun b => !isspace b) (t ++ rest) = t := by
    refine token_run (fun b hb => by rw [ht b hb]; rfl) hw (hend.imp id fun hhead b hb => ?_)
    rw [hhead b hb]
    rfl
  simp only [sscanf]
  rw [dropWhile_isspace_append hsp hne ht, htok, if_neg hne, List.drop_left' rfl]

/-- A sign and digits up to something else are read as a numeral. -/
theorem scanNumeral_numeral {sign ds rest : List Byte} {neg : Bool} (hsign : IsSign sign neg)
    (hne : ds ≠ []) (hds : ∀ b ∈ ds, isdigit b = true)
    (hrest : ∀ b ∈ rest.head?, isdigit b = false) :
    scanNumeral (sign ++ (ds ++ rest)) = some (neg, ds, rest) := by
  have hscan : scanSign (sign ++ (ds ++ rest)) = (neg, ds ++ rest) := by
    rcases hsign with ⟨rfl, rfl⟩ | ⟨rfl | rfl, rfl⟩
    · rfl
    · cases ds with
      | nil => exact absurd rfl hne
      | cons d ds =>
          have hd := hds d List.mem_cons_self
          rw [List.nil_append, List.cons_append, scanSign,
            if_neg (by rintro rfl; exact absurd hd (by decide)),
            if_neg (by rintro rfl; exact absurd hd (by decide))]
    · rfl
  have htake : (ds ++ rest).takeWhile isdigit = ds := by
    rw [List.takeWhile_append_of_pos hds]
    cases rest with
    | nil => simp
    | cons b rest => simp [hrest b rfl]
  simp only [scanNumeral]
  rw [hscan, htake, if_neg hne, List.drop_left' rfl]

/-- A numeral is a sign and digits. -/
theorem numeral_eq_some_iff {z : Int} :
    numeral s = some z ↔ ∃ sign neg digits, s = sign ++ digits ∧ IsSign sign neg ∧
      digits ≠ [] ∧ (∀ b ∈ digits, isdigit b = true) ∧ z = signed neg digits := by
  unfold numeral
  constructor
  · intro h
    split at h
    · next neg digits hscan =>
        obtain ⟨sign, hs, hsign, hne, hdigits, -⟩ := scanNumeral_some hscan
        rw [List.append_nil] at hs
        exact ⟨sign, neg, digits, hs, hsign, hne, hdigits, (Option.some.inj h).symm⟩
    · exact nomatch h
  · rintro ⟨sign, neg, digits, rfl, hsign, hne, hdigits, rfl⟩
    have hscan := scanNumeral_numeral hsign hne hdigits (fun b hb => nomatch hb : ∀ b ∈ [].head?, _)
    rw [List.append_nil] at hscan
    rw [hscan]

theorem IsSign.not_isdigit {sign : List Byte} {neg : Bool} (h : IsSign sign neg) :
    ∀ b ∈ sign, isdigit b = false := by
  rcases h with ⟨rfl, -⟩ | ⟨rfl | rfl, -⟩
  · exact List.forall_mem_singleton.mpr rfl
  · exact List.forall_mem_nil _
  · exact List.forall_mem_singleton.mpr rfl

theorem mem_numeral {sign ds : List Byte} {neg : Bool} (hsign : IsSign sign neg)
    (hds : ∀ b ∈ ds, isdigit b = true) :
    ∀ b ∈ sign ++ ds, b = 45 ∨ b = 43 ∨ isdigit b = true := by
  intro b hb
  rcases List.mem_append.mp hb with h | h
  · rcases hsign with ⟨rfl, -⟩ | ⟨rfl | rfl, -⟩
    · exact Or.inl (List.mem_singleton.mp h)
    · exact absurd h List.not_mem_nil
    · exact Or.inr (Or.inl (List.mem_singleton.mp h))
  · exact Or.inr (Or.inr (hds b h))

theorem numeral_not_isspace {sign ds : List Byte} {neg : Bool} (hsign : IsSign sign neg)
    (hds : ∀ b ∈ ds, isdigit b = true) : ∀ b ∈ sign ++ ds, isspace b = false := by
  intro b hb
  rcases mem_numeral hsign hds b hb with rfl | rfl | hdigit
  · decide
  · decide
  · exact not_isspace_of_isdigit b hdigit

/-- An `int` has 32 bits. -/
theorem toInt_range (v : Int) : -2 ^ 31 ≤ toInt v ∧ toInt v < 2 ^ 31 := by
  unfold toInt
  constructor
  · have := @Int.le_bmod v (2 ^ 32) (by decide)
    omega
  · have := @Int.bmod_lt v (2 ^ 32) (by decide)
    omega

/-- A numeral in the range of `int` is converted to its own value. -/
theorem toInt_strtol {neg : Bool} {ds : List Byte} (hlo : -2 ^ 31 ≤ signed neg ds)
    (hhi : signed neg ds < 2 ^ 31) : toInt (strtol neg ds) = signed neg ds := by
  have hlong : strtol neg ds = signed neg ds := by
    show max (-2 ^ 63) (min (signed neg ds) (2 ^ 63 - 1)) = signed neg ds
    omega
  rw [hlong, toInt]
  exact Int.bmod_eq_of_le (by omega) (by omega)

/-- A printed number is read back by `atoi`. -/
theorem atoi_decimal_append {sp rest : List Byte} {n : Nat} (hsp : ∀ b ∈ sp, isspace b = true)
    (hn : n < 2 ^ 31) (hrest : ∀ b ∈ rest.head?, isdigit b = false) :
    atoi (sp ++ (decimal n ++ rest)) = n := by
  have hval : signed false (decimal n) = n := by
    rw [signed, digitsVal_decimal, if_neg Bool.false_ne_true]
  have hscan := @scanNumeral_numeral [] (decimal n) rest false (Or.inr ⟨Or.inl rfl, rfl⟩)
    (decimal_ne_nil n) (decimal_isdigit n) hrest
  unfold atoi
  rw [dropWhile_isspace_append hsp (decimal_ne_nil n)
    fun b hb => not_isspace_of_isdigit b (decimal_isdigit n b hb)]
  rw [List.nil_append] at hscan
  rw [hscan]
  exact (toInt_strtol (by omega) (by omega)).trans hval

/-- A numeral behind blanks is read by `%u`. -/
theorem sscanf_uint_numeral {ds : List Directive} {sp sign digits rest : List Byte} {neg : Bool}
    (hsp : ∀ b ∈ sp, isspace b = true) (hsign : IsSign sign neg) (hne : digits ≠ [])
    (hdigits : ∀ b ∈ digits, isdigit b = true) (hrest : ∀ b ∈ rest.head?, isdigit b = false) :
    sscanf (.uint :: ds) (sp ++ ((sign ++ digits) ++ rest))
      = .uint (strtoul neg digits % 2 ^ 32) :: sscanf ds rest := by
  have hword := numeral_not_isspace hsign hdigits
  simp only [sscanf]
  rw [dropWhile_isspace_append hsp (List.append_ne_nil_of_right_ne_nil _ hne) hword,
    List.append_assoc, scanNumeral_numeral hsign hne hdigits hrest]

/-- A printed number is read back by `%u`. -/
theorem sscanf_uint_decimal {ds : List Directive} {sp rest : List Byte} {n : Nat}
    (hsp : ∀ b ∈ sp, isspace b = true) (hn : n < 2 ^ 32)
    (hrest : ∀ b ∈ rest.head?, isdigit b = false) :
    sscanf (.uint :: ds) (sp ++ (decimal n ++ rest)) = .uint n :: sscanf ds rest := by
  have hval : strtoul false (decimal n) % 2 ^ 32 = n := by
    have hsmall : ¬ 2 ^ 64 ≤ n := by omega
    simp only [strtoul]
    rw [digitsVal_decimal, if_neg hsmall, if_neg Bool.false_ne_true, Nat.mod_eq_of_lt hn]
  have hread := @sscanf_uint_numeral ds sp [] (decimal n) rest false hsp (Or.inr ⟨Or.inl rfl, rfl⟩)
    (decimal_ne_nil n) (decimal_isdigit n) hrest
  rw [hval] at hread
  exact hread

theorem decimalInt_eq (z : Int) :
    ∃ sign neg digits, decimalInt z = sign ++ digits ∧ IsSign sign neg ∧ digits ≠ [] ∧
      (∀ b ∈ digits, isdigit b = true) ∧ signed neg digits = z := by
  unfold decimalInt signed
  by_cases hz : z < 0
  · refine ⟨[45], true, decimal z.natAbs, by rw [if_pos hz]; rfl, Or.inl ⟨rfl, rfl⟩,
      decimal_ne_nil _, decimal_isdigit _, ?_⟩
    rw [digitsVal_decimal, if_pos rfl]
    omega
  · refine ⟨[], false, decimal z.natAbs, by rw [if_neg hz]; rfl, Or.inr ⟨Or.inl rfl, rfl⟩,
      decimal_ne_nil _, decimal_isdigit _, ?_⟩
    rw [digitsVal_decimal, if_neg Bool.false_ne_true]
    omega

/-- A printed number is read back by `%d`, as itself if it is an `int`. -/
theorem sscanf_int_decimal {ds : List Directive} {sp rest : List Byte} {z : Int}
    (hsp : ∀ b ∈ sp, isspace b = true) (hrest : ∀ b ∈ rest.head?, isdigit b = false) :
    ∃ v, sscanf (.int :: ds) (sp ++ (decimalInt z ++ rest)) = .int v :: sscanf ds rest ∧
      (-2 ^ 31 ≤ z → z < 2 ^ 31 → v = z) := by
  obtain ⟨sign, neg, digits, hz, hsign, hne, hdigits, hval⟩ := decimalInt_eq z
  refine ⟨toInt (strtol neg digits), ?_, fun hlo hhi => ?_⟩
  · simp only [sscanf]
    rw [hz, dropWhile_isspace_append hsp (List.append_ne_nil_of_right_ne_nil _ hne)
      (numeral_not_isspace hsign hdigits), List.append_assoc,
      scanNumeral_numeral hsign hne hdigits hrest]
  · rw [← hval] at hlo hhi ⊢
    exact toInt_strtol hlo hhi

/-- Without a digit there is nothing for `%u`. -/
theorem sscanf_uint_eq_nil {ds : List Directive} (h : ∀ b ∈ s, isdigit b = false) :
    sscanf (.uint :: ds) s = [] := by
  cases hscan : sscanf (.uint :: ds) s with
  | nil => rfl
  | cons v vs =>
      obtain ⟨sp, neg, sign, digits, rest, hs, -, -, -, -, hne, hdigits, -⟩ := sscanf_uint hscan
      obtain ⟨d, ds', rfl⟩ := List.exists_cons_of_ne_nil hne
      have hd := h d (by rw [hs]; simp)
      rw [hdigits d List.mem_cons_self] at hd
      exact Bool.noConfusion hd

/-- Blanks are nothing for `%s`. -/
theorem sscanf_str_eq_nil {ds : List Directive} (h : ∀ b ∈ s, isspace b = true) :
    sscanf (.str w :: ds) s = [] := by
  cases hscan : sscanf (.str w :: ds) s with
  | nil => rfl
  | cons v vs =>
      obtain ⟨sp, t, rest, hs, -, -, hne, -, -, -, ht⟩ := sscanf_str hscan
      obtain ⟨c, cs, rfl⟩ := List.exists_cons_of_ne_nil hne
      have hc := h c (by rw [hs]; simp)
      rw [ht c List.mem_cons_self] at hc
      exact Bool.noConfusion hc

/-- `%s` and `%u` skip blanks themselves. -/
theorem sscanf_space_str (w : Nat) (ds : List Directive) (s : List Byte) :
    sscanf (.space :: .str w :: ds) s = sscanf (.str w :: ds) s := by
  simp only [sscanf, List.dropWhile_idempotent _ _]

theorem sscanf_space_uint (ds : List Directive) (s : List Byte) :
    sscanf (.space :: .uint :: ds) s = sscanf (.uint :: ds) s := by
  simp only [sscanf, List.dropWhile_idempotent _ _]

theorem sscanf_space_int (ds : List Directive) (s : List Byte) :
    sscanf (.space :: .int :: ds) s = sscanf (.int :: ds) s := by
  simp only [sscanf, List.dropWhile_idempotent _ _]

/-- Nothing is left for a further `%Ns` exactly when only blanks are left. -/
theorem sscanf_space_str_eq_nil {ds : List Directive} (hw : 0 < w) :
    sscanf (.space :: .str w :: ds) s = [] ↔ ∀ b ∈ s, isspace b = true := by
  have hidem : (s.dropWhile isspace).dropWhile isspace = s.dropWhile isspace :=
    List.dropWhile_idempotent _ _
  simp only [sscanf, hidem, ← List.dropWhile_eq_nil_iff]
  cases hd : s.dropWhile isspace with
  | nil => simp [token]
  | cons b r =>
      have hb : isspace b = false := by
        have := List.head_dropWhile_not isspace (by rw [hd]; simp : s.dropWhile isspace ≠ [])
        simpa [hd] using this
      obtain ⟨k, rfl⟩ : ∃ k, w = k + 1 := ⟨w - 1, by omega⟩
      simp [token, hb]

end Scanf
