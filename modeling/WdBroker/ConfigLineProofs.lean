import WdBroker.ConfigProofs

/-! # What a line of the configuration file is taken for

    The two formats of `parse_config` match more loosely than they look.  `KeyValueText`
    and `SectionText` are the texts they really match, `classify_keyValue_iff` and
    `classify_client_iff` say so; everything about single lines is read off these. -/

namespace WdConfigLine

open CString Scanf Tokens WdTable WdConfig

/-- The text that the loop looks at. -/
def trimmed (line : List Byte) : List Byte := trim (cstr line)

/-- A blank line or a comment. -/
def Skipped (t : List Byte) : Prop := t = [] ∨ t.head? = some 35

/-- `"%63[^=]=%127[^\n]"` matches: at most 63 bytes before the first `=`, and something
    behind it, of which 127 bytes are taken. -/
def KeyValueText (t key val : List Byte) : Prop :=
  ∃ rest, t = key ++ 61 :: (val ++ rest) ∧ key ≠ [] ∧ key.length ≤ 63 ∧ (61 : Byte) ∉ key ∧
    val ≠ [] ∧ val.length ≤ 127 ∧ (10 : Byte) ∉ val ∧
    (val.length = 127 ∨ ∀ b ∈ rest.head?, b = 10)

/-- `"[client %63[^]]"` matches: blanks or none, and a name that ends at the width, at a
    closing bracket, or with the text. -/
def SectionText (t sp name rest : List Byte) : Prop :=
  t = bytes "[client" ++ (sp ++ (name ++ rest)) ∧ (∀ b ∈ sp, isspace b = true) ∧
    (∀ b ∈ name.head?, isspace b = false) ∧ name ≠ [] ∧ name.length ≤ 63 ∧ (93 : Byte) ∉ name ∧
    (name.length = 63 ∨ ∀ b ∈ rest.head?, b = 93)

variable {t key val name line : List Byte}

theorem scan_keyValue_iff :
    sscanf keyValueFormat t = [.str key, .str val] ↔ KeyValueText t key val := by
  unfold keyValueFormat KeyValueText
  constructor
  · intro h
    obtain ⟨k, s, rfl, hv, hvs, hne, hlen, hk, -⟩ := sscanf_set h
    obtain rfl := Value.str.inj hv
    cases s with
    | nil => exact nomatch hvs
    | cons c s =>
        rw [sscanf] at hvs
        split at hvs
        · next hc =>
            obtain ⟨v, rest, rfl, hv', -, hvne, hvlen, hvmem, hend⟩ := sscanf_set hvs.symm
            obtain rfl := Value.str.inj hv'
            refine ⟨rest, by rw [hc], hne, hlen, not_mem_of_bne hk, hvne, hvlen,
              not_mem_of_bne hvmem, hend.imp id fun hhead b hb => ?_⟩
            exact bne_eq_false_iff_eq.mp (hhead b hb)
        · exact absurd hvs (List.cons_ne_nil _ _)
  · rintro ⟨rest, rfl, hne, hlen, hk, hvne, hvlen, hv, hend⟩
    rw [sscanf_set_run hne (bne_of_not_mem hk) hlen (Or.inr (by rintro b ⟨⟩; rfl)), sscanf,
      if_pos rfl, sscanf_set_run hvne (bne_of_not_mem hv) hvlen
        (hend.imp id fun hhead b hb => bne_eq_false_iff_eq.mpr (hhead b hb))]
    rfl

theorem scan_section_iff :
    sscanf sectionFormat t = [.str name] ↔ ∃ sp rest, SectionText t sp name rest := by
  unfold sectionFormat SectionText
  constructor
  · intro h
    obtain ⟨s, rfl, hs⟩ := sscanf_lits h
    rw [sscanf] at hs
    obtain ⟨n, rest, hsplit, hv, -, hne, hlen, hn, hend⟩ := sscanf_set hs
    obtain rfl := Value.str.inj hv
    refine ⟨s.takeWhile isspace, rest, ?_, fun _ => List.mem_takeWhile_imp, ?_, hne, hlen,
      not_mem_of_bne hn, hend.imp id fun hhead b hb => bne_eq_false_iff_eq.mp (hhead b hb)⟩
    · rw [← hsplit, List.takeWhile_append_dropWhile]
    · -- the blank of the format has taken all blanks
      intro b hb
      obtain ⟨c, cs, rfl⟩ := List.exists_cons_of_ne_nil hne
      exact head_dropWhile s b (by rw [hsplit]; exact hb)
  · rintro ⟨sp, rest, rfl, hsp, hhead, hne, hlen, hn, hend⟩
    obtain ⟨c, cs, rfl⟩ := List.exists_cons_of_ne_nil hne
    have hc : ¬ isspace c = true := by
      rw [hhead c rfl]
      exact Bool.false_ne_true
    have hskip : (sp ++ ((c :: cs) ++ rest)).dropWhile isspace = (c :: cs) ++ rest := by
      rw [List.dropWhile_append_of_pos hsp, List.cons_append, List.dropWhile_cons_of_neg hc]
    rw [sscanf_lits_append, sscanf, hskip, sscanf_set_run hne (bne_of_not_mem hn) hlen
      (hend.imp id fun hb b hm => bne_eq_false_iff_eq.mpr (hb b hm))]
    rfl

theorem classify_skip_iff : classify line = .skip ↔ Skipped (trimmed line) := by
  unfold classify Skipped trimmed
  dsimp only
  constructor
  · intro h
    split at h
    · next hskip => exact hskip
    split at h
    · cases h
    split at h <;> cases h
  · intro h
    rw [if_pos h]

/-- **SECTION LINES**. -/
theorem classify_client_iff :
    classify line = .client t name ↔ t = trimmed line ∧
      (∀ key val, ¬ KeyValueText t key val) ∧ ∃ sp rest, SectionText t sp name rest := by
  unfold classify trimmed
  dsimp only
  constructor
  · intro h
    split at h
    · cases h
    split at h
    · cases h
    · next hno =>
        split at h
        · next hscan =>
            obtain ⟨rfl, rfl⟩ := Line.client.inj h
            exact ⟨rfl, fun key val htext => hno key val (scan_keyValue_iff.mpr htext),
              scan_section_iff.mp hscan⟩
        · cases h
  · rintro ⟨rfl, hno, htext⟩
    have hskip : ¬ (trim (cstr line) = [] ∨ (trim (cstr line)).head? = some 35) := by
      obtain ⟨sp, rest, ht, -⟩ := htext
      rw [ht]
      rintro (h | h)
      · exact nomatch h
      · exact absurd (Option.some.inj h) (by decide)
    rw [if_neg hskip, scan_section_iff.mpr htext]
    split
    · next key val hscan => exact absurd (scan_keyValue_iff.mp hscan) (hno key val)
    · rfl

/-- The end of the line does not matter. -/
theorem trimmed_eol {eol : List Byte} (heol : eol = [] ∨ eol = [10]) :
    trimmed (line ++ eol) = trimmed line := by
  have hblank : ∀ b ∈ eol, isspace b = true := by
    rcases heol with rfl | rfl
    · exact List.forall_mem_nil _
    · exact List.forall_mem_singleton.mpr rfl
  unfold trimmed
  by_cases h0 : (0 : Byte) ∈ line
  · rw [cstr_append_of_mem h0]
  · have hnul : (0 : Byte) ∉ line ++ eol := by
      intro h
      rcases List.mem_append.mp h with h | h
      · exact h0 h
      · exact absurd (hblank 0 h) (by decide)
    rw [cstr_eq_self hnul, cstr_eq_self h0, trim_append_blank hblank]

theorem classify_eol {eol : List Byte} (heol : eol = [] ∨ eol = [10]) :
    classify (line ++ eol) = classify line := by
  have htrim := @trimmed_eol line eol heol
  unfold trimmed at htrim
  unfold classify
  rw [htrim]

theorem trimmed_of_no_nul (h : (0 : Byte) ∉ line) : trimmed line = trim line := by
  unfold trimmed
  rw [cstr_eq_self h]

/-- A key and a value in a text without newline: the first `=` is among the first 64
    bytes, and something stands before and behind it. -/
theorem exists_keyValueText {k v : List Byte} (hk : k ≠ []) (hlen : k.length ≤ 63)
    (heq : (61 : Byte) ∉ k) (hv : v ≠ []) (hnl : (10 : Byte) ∉ v) :
    KeyValueText (k ++ 61 :: v) k (v.take 127) := by
  refine ⟨v.drop 127, by rw [List.take_append_drop], hk, hlen, heq, ?_, List.length_take_le _ _,
    fun h => hnl (List.mem_of_mem_take h), ?_⟩
  · rw [ne_eq, List.take_eq_nil_iff]
    simpa using hv
  · rcases Nat.lt_or_ge v.length 127 with hlt | hge
    · rw [List.drop_eq_nil_of_le (Nat.le_of_lt hlt)]
      exact Or.inr (by simp)
    · exact Or.inl (List.length_take_of_le hge)

/-- Where there is a key there is a `=` among the first 64 bytes. -/
theorem KeyValueText.mem_take (h : KeyValueText t key val) : (61 : Byte) ∈ t.take 64 := by
  obtain ⟨rest, rfl, -, hlen, -⟩ := h
  rw [List.take_append]
  refine List.mem_append_right _ ?_
  obtain ⟨n, hn⟩ : ∃ n, 64 - key.length = n + 1 := ⟨63 - key.length, by omega⟩
  rw [hn, List.take_succ_cons]
  exact List.mem_cons_self

end WdConfigLine
