import WdBroker.ConfigLineProofs
import WdBroker.PacketProofs
import WdBroker.EncodingProofs

/-! # Client sections: headers and names

    A header is looked for with two formats and a difference of two lengths.  For the
    lines of the form `[client <name>]` that works unless a `=` in the name makes the
    first format match; but the lengths only bound what is missing and what is too
    much, so that other lines pass as well.  `header_exact_iff` names them.

    A name that gets in this way, or by the documentation's own rule, need not be one
    that a REGISTER can carry: `registrable_iff`. -/

namespace WdSection

open CString Scanf WdClock WdTable WdClientID WdConfig WdConfigLine WdCommand WdReach WdReplies
  WdEncoding

-- ── the documented form ───────────────────────────────────────────────────────

/-- `[client <name>]`. -/
def header (name : List Byte) : List Byte := bytes "[client " ++ (name ++ bytes "]")

/-- One to 63 printable characters without a closing bracket, no blank at either end. -/
structure NameOk (name : List Byte) : Prop where
  ne : name ≠ []
  le : name.length ≤ 63
  chars : ∀ b ∈ name, isprint b = true ∧ b ≠ 93
  first : name.head? ≠ some 32
  last : name.getLast? ≠ some 32

section Reading

variable (clock : Nat → Timespec) (raws : Nat → Raw)

/-- The loop has read the text and not ended the process. -/
def Reads (text : List Byte) (st : Parse) : Prop :=
  Machine.tryRun (parseLine clock raws) Parse.init (configLines text) = .ok st

end Reading

/-- Wherever the line stands, a header of the documented form announces its name if a slot
    is left, and what is taken for a header has that form. -/
def ParsedExactly (line : List Byte) : Prop :=
  ∀ clock raws pre eol st, EndsLine pre → eol = [] ∨ eol = [10] → Reads clock raws pre st →
    (∀ name, NameOk name → trim line = header name → st.sections < wdMaxClients →
      ∃ st' c, Reads clock raws (pre ++ (line ++ eol)) st' ∧ st'.sections = st.sections + 1 ∧
        st'.clients.slots[st.sections]? = some c ∧ c.anounced = true ∧ c.name.chars = name) ∧
    ∀ st', Reads clock raws (pre ++ (line ++ eol)) st' → st'.sections ≠ st.sections →
      ∃ name, NameOk name ∧ trim line = header name

/-- A header whose name has a `=` so far in front that the line is a key and a value. -/
def EqualsInName (line : List Byte) : Prop :=
  ∃ name, NameOk name ∧ trim line = header name ∧ (61 : Byte) ∈ name.take 56

/-- A text that the section format matches, with at most two bytes besides keyword and
    name, which are not one blank and one bracket, or with a name that is not printable
    or ends in a blank, or with a NUL behind it. -/
def Loose (line : List Byte) : Prop :=
  ∃ sp name rest, SectionText (trimmed line) sp name rest ∧ sp.length + rest.length ≤ 2 ∧
    (∀ key val, ¬ KeyValueText (trimmed line) key val) ∧
    (sp ≠ [32] ∨ rest ≠ [93] ∨ (∃ b ∈ name, isprint b = false) ∨ name.getLast? = some 32 ∨
      (0 : Byte) ∈ line)

variable {clock : Nat → Timespec} {raws : Nat → Raw} {line pre eol name t : List Byte}
  {st st' : Parse}

-- ── reading one more line ─────────────────────────────────────────────────────

theorem reads_line (hpre : EndsLine pre) (heol : eol = [] ∨ eol = [10])
    (hline : (10 : Byte) ∉ line) (hlen : line.length ≤ 254) (hne : line ++ eol ≠ []) :
    Reads clock raws (pre ++ (line ++ eol)) st' ↔
      ∃ st, Reads clock raws pre st ∧ parseLine clock raws st (line ++ eol) = .ok st' := by
  unfold Reads configLines
  rw [fgetsLines_append hpre, fgetsLines_line hline heol hne (by omega), Machine.tryRun_append_ok]
  simp only [Machine.tryRun_singleton]

-- ── headers ───────────────────────────────────────────────────────────────────

theorem sectionText_header (h : NameOk name) : SectionText (header name) [32] name [93] := by
  refine ⟨rfl, List.forall_mem_singleton.mpr rfl, ?_, h.ne, h.le,
    fun h93 => (h.chars 93 h93).2 rfl, Or.inr (by rintro b ⟨⟩; rfl)⟩
  intro b hb
  have hprint := (h.chars b (List.mem_of_mem_head? hb)).1
  have hfirst : b ≠ 32 := fun h32 => h.first (h32 ▸ hb)
  grind [isprint, isspace]

theorem header_no_nul (h : NameOk name) : (0 : Byte) ∉ header name := by
  intro h0
  rcases List.mem_append.mp h0 with h0 | h0
  · exact absurd h0 (by decide)
  rcases List.mem_append.mp h0 with h0 | h0
  · exact absurd (h.chars 0 h0).1 (by decide)
  · exact absurd h0 (by decide)

/-- A header is a key and a value exactly if a `=` stands far enough in front. -/
theorem header_keyValue_iff (h : NameOk name) :
    (∃ key val, KeyValueText (header name) key val) ↔ (61 : Byte) ∈ name.take 56 := by
  have htake : (header name).take 64
      = bytes "[client " ++ (name.take 56 ++ [93].take (56 - name.length)) := by
    unfold header
    rw [List.take_append, List.take_append]
    rfl
  constructor
  · rintro ⟨key, val, htext⟩
    have hmem := htext.mem_take
    rw [htake] at hmem
    rcases List.mem_append.mp hmem with hmem | hmem
    · exact absurd hmem (by decide)
    rcases List.mem_append.mp hmem with hmem | hmem
    · exact hmem
    · exact absurd (List.mem_singleton.mp (List.mem_of_mem_take hmem)) (by decide)
  · intro hmem
    have hfront : (61 : Byte) ∈ (header name).take 64 := by
      rw [htake]
      exact List.mem_append_right _ (List.mem_append_left _ hmem)
    obtain ⟨k, u, hsplit, hno⟩ := List.eq_append_cons_of_mem hfront
    have hlen : k.length < 64 := by
      have hcut := List.length_take_le 64 (header name)
      rw [hsplit, List.length_append, List.length_cons] at hcut
      omega
    have hfull : header name = k ++ 61 :: (u ++ (header name).drop 64) := by
      rw [← List.cons_append, ← List.append_assoc, ← hsplit, List.take_append_drop]
    have hlast : (header name).getLast? = some 93 := by
      unfold header
      rw [← List.append_assoc, List.getLast?_append]
      rfl
    -- the text begins with a bracket and ends in one, so key and value are not empty
    refine ⟨k, _, hfull ▸ exists_keyValueText ?_ (by omega) hno ?_ ?_⟩
    · rintro rfl
      exact absurd (List.cons.inj hfull).1 (by decide)
    · intro hnil
      rw [hfull, hnil, List.getLast?_concat] at hlast
      exact absurd (Option.some.inj hlast) (by decide)
    · intro hnl
      have hmem : (10 : Byte) ∈ header name := by
        rw [hfull]
        exact List.mem_append_right k (List.mem_cons_of_mem 61 hnl)
      rcases List.mem_append.mp hmem with hmem | hmem
      · exact absurd hmem (by decide)
      rcases List.mem_append.mp hmem with hmem | hmem
      · exact absurd (h.chars 10 hmem).1 (by decide)
      · exact absurd hmem (by decide)

/-- A section line is accepted while slots are left if at most two bytes stand besides
    keyword and name. -/
theorem parseLine_section {sp rest : List Byte} (hclass : classify line = .client t name)
    (htext : SectionText t sp name rest) :
    (∃ st', parseLine clock raws st line = .ok st') ↔
      st.sections < wdMaxClients ∧ sp.length + rest.length ≤ 2 := by
  have hlen : t.length - name.length = 7 + (sp.length + rest.length) := by
    rw [htext.1]
    simp only [List.length_append]
    have : (bytes "[client").length = 7 := rfl
    omega
  unfold parseLine
  dsimp only
  rw [hclass]
  unfold parseSection
  dsimp only
  rw [hlen]
  constructor
  · rintro ⟨st', h⟩
    split at h
    · exact nomatch h
    split at h
    · exact nomatch h
    · omega
  · rintro ⟨hmax, hle⟩
    rw [if_neg (by omega), if_neg (by omega)]
    exact ⟨_, rfl⟩

/-- Only section lines take a slot. -/
theorem client_of_sections_ne (h : parseLine clock raws st line = .ok st')
    (hne : st'.sections ≠ st.sections) : ∃ t name, classify line = .client t name := by
  rcases parseLine_ok h with ⟨-, rfl⟩ | ⟨key, val, -, hkv⟩ | ⟨t, name, hclass, -⟩
  · exact absurd rfl hne
  · exact absurd (parseKeyValue_ok hkv).1 hne
  · exact ⟨t, name, hclass⟩

/-- What a section line does. -/
theorem parseLine_announces (hclass : classify line = .client t name)
    (h : parseLine clock raws st line = .ok st') :
    st'.sections = st.sections + 1 ∧ ∃ c, st'.clients.slots[st.sections]? = some c ∧
      c.anounced = true ∧ c.name = CStr.strncpy wdClientNameLen name := by
  unfold parseLine at h
  dsimp only at h
  rw [hclass] at h
  obtain ⟨hmax, -, hsec, hcl⟩ := parseSection_ok h
  obtain ⟨c, hc⟩ : ∃ c, st.clients.slots[st.sections]? = some c :=
    ⟨_, List.getElem?_eq_getElem (st.clients.size ▸ hmax)⟩
  refine ⟨hsec, announceSlot name (raws st.sections) (clock st.sections) c, ?_, rfl, rfl⟩
  rw [hcl, Table.update_self]
  exact congrArg _ hc

/-- A documented header without an early `=` is taken for one. -/
theorem classify_header (hname : NameOk name) (htrim : trim line = header name)
    (heq : (61 : Byte) ∉ name.take 56) : classify line = .client (header name) name := by
  have hnul : (0 : Byte) ∉ line := trim_no_nul (htrim ▸ header_no_nul hname)
  refine classify_client_iff.mpr ⟨?_, fun key val htext => ?_, _, _, sectionText_header hname⟩
  · rw [trimmed_of_no_nul hnul, htrim]
  · exact heq ((header_keyValue_iff hname).mp ⟨key, val, htext⟩)

/-- What is taken for a header and not `Loose` is a documented header. -/
theorem header_of_not_loose (hloose : ¬ Loose line) {sp rest : List Byte}
    (hno : ∀ key val, ¬ KeyValueText (trimmed line) key val)
    (htext : SectionText (trimmed line) sp name rest) (hle : sp.length + rest.length ≤ 2) :
    NameOk name ∧ trim line = header name := by
  have hstrict : ¬ (sp ≠ [32] ∨ rest ≠ [93] ∨ (∃ b ∈ name, isprint b = false) ∨
      name.getLast? = some 32 ∨ (0 : Byte) ∈ line) :=
    fun h => hloose ⟨sp, name, rest, htext, hle, hno, h⟩
  push Not at hstrict
  obtain ⟨rfl, rfl, hprint, hlast, hnul⟩ := hstrict
  obtain ⟨ht, -, hhead, hne, hlen, h93, -⟩ := htext
  refine ⟨⟨hne, hlen, fun b hb => ⟨?_, fun hb93 => h93 (hb93 ▸ hb)⟩, fun h32 => ?_, hlast⟩, ?_⟩
  · exact Bool.not_eq_false _ ▸ hprint b hb
  · exact absurd (hhead 32 h32) (by decide)
  · rw [← trimmed_of_no_nul hnul, ht]
    rfl

/-- A documented header is not `Loose`. -/
theorem not_loose_of_header {name' : List Byte} (hname : NameOk name')
    (htrim : trim line = header name') : ¬ Loose line := by
  have hnul : (0 : Byte) ∉ line := trim_no_nul (htrim ▸ header_no_nul hname)
  rintro ⟨sp, name, rest, htext, hle, -, hdev⟩
  rw [trimmed_of_no_nul hnul, htrim] at htext
  -- both readings come from one scan
  have hheader := sectionText_header hname
  have hscan := scan_section_iff.mpr ⟨sp, rest, htext⟩
  rw [scan_section_iff.mpr ⟨[32], [93], hheader⟩] at hscan
  obtain rfl := Value.str.inj (List.cons.inj hscan).1
  obtain ⟨ht, hsp, hhead, hne, -⟩ := htext
  obtain ⟨c, cs, rfl⟩ := List.exists_cons_of_ne_nil hne
  have hc : ¬ isspace c = true := by
    rw [hhead c rfl]
    exact Bool.false_ne_true
  have heq : [32] ++ ((c :: cs) ++ [93]) = sp ++ ((c :: cs) ++ rest) :=
    List.append_cancel_left (hheader.1.symm.trans ht)
  have hdrop := congrArg (List.dropWhile isspace) heq
  rw [List.dropWhile_append_of_pos hheader.2.1, List.dropWhile_append_of_pos hsp, List.cons_append,
    List.cons_append, List.dropWhile_cons_of_neg hc, List.dropWhile_cons_of_neg hc,
    ← List.cons_append, ← List.cons_append] at hdrop
  obtain rfl := List.append_cancel_left hdrop
  have hblank : sp = [32] := (List.append_cancel_right heq).symm
  rcases hdev with h | h | ⟨b, hb, hprint⟩ | h | h
  · exact h hblank
  · exact h rfl
  · rw [(hname.chars b hb).1] at hprint
    exact Bool.noConfusion hprint
  · exact hname.last h
  · exact hnul h

/-- The line as the first of a file. -/
theorem reads_first (hline : (10 : Byte) ∉ line) (hlen : line.length ≤ 254) :
    Reads clock raws ([] ++ (line ++ [10])) st' ↔
      parseLine clock raws Parse.init (line ++ [10]) = .ok st' := by
  rw [reads_line (Or.inl rfl) (Or.inr rfl) hline hlen (by simp)]
  exact ⟨fun ⟨st, hst, hstep⟩ => Except.ok.inj hst ▸ hstep, fun hstep => ⟨_, rfl, hstep⟩⟩

/-- A header that is a key and a value announces nothing. -/
theorem ParsedExactly.not_equalsInName (h : ParsedExactly line) (hline : (10 : Byte) ∉ line)
    (hlen : line.length ≤ 254) : ¬ EqualsInName line := by
  rintro ⟨name, hname, htrim, hmem⟩
  have hfirst := h (fun _ => Timespec.zero) (fun _ => Vector.replicate 8 0) [] [10] Parse.init
    (Or.inl rfl) (Or.inr rfl) rfl
  obtain ⟨st', -, hst', hsec, -⟩ := hfirst.1 name hname htrim (by decide)
  have hstep := (reads_first hline hlen).mp hst'
  obtain ⟨t, n, hclass⟩ := client_of_sections_ne hstep (by rw [hsec]; exact Nat.succ_ne_self _)
  rw [classify_eol (Or.inr rfl)] at hclass
  obtain ⟨rfl, hno, -⟩ := classify_client_iff.mp hclass
  rw [trimmed_of_no_nul (trim_no_nul (htrim ▸ header_no_nul hname)), htrim] at hno
  obtain ⟨key, val, htext⟩ := (header_keyValue_iff hname).mpr hmem
  exact hno key val htext

/-- A `Loose` line announces something. -/
theorem ParsedExactly.not_loose (h : ParsedExactly line) (hline : (10 : Byte) ∉ line)
    (hlen : line.length ≤ 254) : ¬ Loose line := by
  intro hloose
  obtain ⟨sp, name, rest, htext, hle, hno, -⟩ := id hloose
  have hclass : classify (line ++ [10]) = .client (trimmed line) name := by
    rw [classify_eol (Or.inr rfl)]
    exact classify_client_iff.mpr ⟨rfl, hno, sp, rest, htext⟩
  obtain ⟨st', hstep⟩ := (@parseLine_section (fun _ => Timespec.zero)
    (fun _ => Vector.replicate 8 0) _ _ _ Parse.init _ _ hclass htext).mpr ⟨by decide, hle⟩
  obtain ⟨hsec, -⟩ := parseLine_announces hclass hstep
  have hfirst := h (fun _ => Timespec.zero) (fun _ => Vector.replicate 8 0) [] [10] Parse.init
    (Or.inl rfl) (Or.inr rfl) rfl
  obtain ⟨name', hname', htrim⟩ := hfirst.2 st' ((reads_first hline hlen).mpr hstep)
    (by rw [hsec]; exact Nat.succ_ne_self _)
  exact not_loose_of_header hname' htrim hloose

/-- **SECTION HEADERS**: a line without newline of at most 254 bytes, wherever it stands in
    a file and whether or not a newline ends it, is parsed exactly if it is not a header
    with a `=` among the first 56 bytes of its name and not `Loose`. -/
theorem header_exact_iff (hline : (10 : Byte) ∉ line) (hlen : line.length ≤ 254) :
    ParsedExactly line ↔ ¬ EqualsInName line ∧ ¬ Loose line := by
  constructor
  · exact fun h => ⟨h.not_equalsInName hline hlen, h.not_loose hline hlen⟩
  rintro ⟨hequals, hloose⟩ clock raws pre eol st hpre heol hst
  constructor
  · intro name hname htrim hmax
    have hheq : (61 : Byte) ∉ name.take 56 := fun hmem => hequals ⟨name, hname, htrim, hmem⟩
    have hclass : classify (line ++ eol) = .client (header name) name := by
      rw [classify_eol heol]
      exact classify_header hname htrim hheq
    have hne : line ++ eol ≠ [] := by
      intro hnil
      obtain ⟨rfl, -⟩ := List.append_eq_nil_iff.mp hnil
      exact nomatch htrim
    obtain ⟨st', hstep⟩ := (@parseLine_section clock raws _ _ _ st _ _ hclass
      (sectionText_header hname)).mpr ⟨hmax, Nat.le_refl 2⟩
    obtain ⟨hsec, c, hc, hann, hcn⟩ := parseLine_announces hclass hstep
    refine ⟨st', c, (reads_line hpre heol hline hlen hne).mpr ⟨st, hst, hstep⟩, hsec, hc, hann, ?_⟩
    rw [hcn]
    exact CStr.strncpy_chars (Nat.lt_succ_of_le hname.le) fun h0 =>
      absurd (hname.chars 0 h0).1 (by decide)
  · intro st' hst' hsec
    have hne : line ++ eol ≠ [] := by
      intro hnil
      rw [hnil, List.append_nil] at hst'
      exact hsec (congrArg Parse.sections (Except.ok.inj (hst'.symm.trans hst)))
    obtain ⟨st₁, hst₁, hstep⟩ := (reads_line hpre heol hline hlen hne).mp hst'
    obtain rfl := Except.ok.inj (hst.symm.trans hst₁)
    obtain ⟨t, name, hclass⟩ := client_of_sections_ne hstep hsec
    obtain ⟨rfl, hno, sp, rest, htext⟩ := classify_client_iff.mp hclass
    obtain ⟨-, hle⟩ := (parseLine_section hclass htext).mp ⟨st', hstep⟩
    rw [trimmed_eol heol] at hno htext
    exact ⟨name, header_of_not_loose hloose hno htext hle⟩

/-- The name `a`. -/
theorem nameOk_a : NameOk (bytes "a") :=
  ⟨by decide, by decide, List.forall_mem_singleton.mpr (by decide), by decide, by decide⟩

theorem header_exact_iff_plain : ParsedExactly (header (bytes "a")) := by
  refine (header_exact_iff (by decide) (by decide)).mpr
    ⟨?_, not_loose_of_header nameOk_a (by decide)⟩
  rintro ⟨name, -, htrim, hmem⟩
  have htext : header (bytes "a") = header name := htrim
  obtain rfl := List.append_cancel_right (List.append_cancel_left htext)
  exact absurd hmem (by decide)

/-- A header without a blank, one without a bracket, and one whose name has 64 characters
    and no bracket. -/
def looseLines : List (List Byte) :=
  [bytes "[clientfoo]", bytes "[client foo", bytes "[client " ++ List.replicate 64 97]

theorem loose_of_mem : ∀ line ∈ looseLines, Loose line := by
  have hno : ∀ line : List Byte, (61 : Byte) ∉ (trimmed line).take 64 →
      ∀ key val, ¬ KeyValueText (trimmed line) key val :=
    fun line h key val htext => h htext.mem_take
  intro line hline
  rcases List.mem_cons.mp hline with rfl | hline
  · exact ⟨[], bytes "foo", [93],
      ⟨by decide +kernel, List.forall_mem_nil _, by rintro b ⟨⟩; decide, by decide, by decide,
        by decide, Or.inr (by rintro b ⟨⟩; rfl)⟩,
      by decide, hno _ (by decide +kernel), Or.inl (by decide)⟩
  rcases List.mem_cons.mp hline with rfl | hline
  · exact ⟨[32], bytes "foo", [],
      ⟨by decide +kernel, List.forall_mem_singleton.mpr rfl, by rintro b ⟨⟩; decide, by decide,
        by decide, by decide, Or.inr (by simp)⟩,
      by decide, hno _ (by decide +kernel), Or.inr (Or.inl (by decide))⟩
  · obtain rfl := List.mem_singleton.mp hline
    exact ⟨[32], List.replicate 63 97, [97],
      ⟨by decide +kernel, List.forall_mem_singleton.mpr rfl, by rintro b ⟨⟩; decide, by decide,
        by decide, by decide, Or.inl (by decide)⟩,
      by decide, hno _ (by decide +kernel), Or.inr (Or.inl (by decide))⟩

/-- **HEADERS ARE MISREAD**: the lines of `looseLines` announce clients, and the header
    `[client a=b]` of the documented form does not. -/
theorem headers_misread :
    (∀ line ∈ looseLines, ¬ ParsedExactly line) ∧ ¬ ParsedExactly (header (bytes "a=b")) := by
  refine ⟨fun line hline h => ?_, fun h => ?_⟩
  · have hall : looseLines.all (fun l => !l.contains 10 && l.length ≤ 254) = true := by
      decide +kernel
    have hfits := List.all_eq_true.mp hall line hline
    simp only [Bool.and_eq_true, Bool.not_eq_true', decide_eq_true_eq] at hfits
    refine h.not_loose (fun hmem => ?_) hfits.2 (loose_of_mem line hline)
    rw [List.contains_iff_mem.mpr hmem] at hfits
    exact Bool.noConfusion hfits.1
  · refine h.not_equalsInName (by decide) (by decide) ⟨bytes "a=b", ?_, by decide, by decide⟩
    refine ⟨by decide, by decide, fun b hb => ?_, by decide, by decide⟩
    have hall : (bytes "a=b").all (fun b => isprint b && b != 93) = true := by decide
    simpa using List.all_eq_true.mp hall b hb

-- ── names that can register ───────────────────────────────────────────────────

/-- There is a REGISTER packet that, whoever sends it, is answered `OK` and claims an
    announced slot of that name. -/
def Registrable (b : Broker) (name : CStr wdClientNameLen) : Prop :=
  ∃ s, (cmdRegister ++ s).length ≤ 127 ∧
    ∀ r creds, r.creds = some creds → r.incoming = .packet (cmdRegister ++ s) →
      ∃ i c t, b.clients.slots[i]? = some c ∧ c.anounced = true ∧ c.name = name ∧
        (handleCommand b r).event = some (.register i r.now t) ∧
        ∃ u, (handleCommand b r).replies = [.text (bytes "OK" ++ u)]

/-- A plain word is a name that a REGISTER can carry. -/
theorem parse_plainWord {name : CStr wdClientNameLen} (h : PlainWord name.chars) :
    ∃ args, parseRegister (cmdRegister ++ registerText name.chars 5000 false) = .ok args ∧
      args.name = name := by
  have htrim : trim name.chars = name.chars := by
    have hword := @trim_word [] name.chars [] (List.forall_mem_nil _) (List.forall_mem_nil _) h.1
      fun b hb => (h.2 b hb).2
    rwa [List.nil_append, List.append_nil] at hword
  have htimeout : TimeoutOk 5000 := by
    unfold TimeoutOk
    decide
  exact ⟨⟨name, 5000, true⟩, (parse_text_iff (Nat.le_of_lt_succ name.fits) name.noNul htimeout).mpr
    ⟨htrim.symm ▸ h, htrim.symm, rfl, rfl⟩, rfl⟩

/-- With no active client, an announced name is claimed by whoever carries it. -/
theorem registrable_of_plainWord {b : Broker} {i : Nat} {c : Client}
    (hidle : ∀ c ∈ b.clients.slots, c.active = false) (hc : b.clients.slots[i]? = some c)
    (hann : c.anounced = true) (h : PlainWord c.name.chars) : Registrable b c.name := by
  have hfits : (cmdRegister ++ registerText c.name.chars 5000 false).length ≤ 127 := by
    have hname : c.name.chars.length < 64 := c.name.fits
    have hrest : (32 :: (decimal 5000 ++ trailer false)).length = 6 := by decide
    have hkey : cmdRegister.length = 9 := rfl
    simp only [registerText, List.length_append] at hrest ⊢
    omega
  have hnul : (0 : Byte) ∉ cmdRegister ++ registerText c.name.chars 5000 false := by
    intro h0
    rcases List.mem_append.mp h0 with h0 | h0
    · exact absurd h0 (by decide)
    · exact registerText_no_nul c.name.noNul 5000 false h0
  refine ⟨registerText c.name.chars 5000 false, hfits, fun r creds hcr hr => ?_⟩
  obtain ⟨args, hparse, hargs⟩ := parse_plainWord h
  have hreq : Registers r creds args :=
    ⟨_, hcr, buf_of_packet hr (List.append_ne_nil_of_left_ne_nil (by decide) _) hfits hnul, hparse⟩
  -- the lookup finds an announced slot of the name
  have hinuse : nameInUse b.clients.slots args.name = false := by
    rw [← Bool.not_eq_true, nameInUse_iff]
    rintro ⟨d, hd, hact, -⟩
    rw [hidle d hd] at hact
    exact Bool.noConfusion hact
  obtain ⟨j, hj⟩ : ∃ j, b.clients.slots.findIdx? (Client.claimable args.name) = some j := by
    rw [← Option.isSome_iff_exists, List.findIdx?_isSome, List.any_eq_true]
    have hmem := List.mem_of_getElem? hc
    exact ⟨c, hmem, Client.claimable_iff.mpr ⟨hann, hidle c hmem, hargs.symm⟩⟩
  have hget : getClientInstanceByName b.config b.clients.slots args.name = some j := by
    rw [getClientInstanceByName_eq, hinuse, Bool.and_false, if_neg Bool.false_ne_true, hj]
  obtain ⟨d, hd, hclaim, -⟩ := findIdx?_some hj
  obtain ⟨hdann, -, hdname⟩ := Client.claimable_iff.mp hclaim
  obtain ⟨hevent, id, hreply⟩ := handleCommand_registers hreq hget
  exact ⟨j, d, args.timeoutMs, hd, hdann, hdname.trans hargs, hevent,
    bytes " " ++ (id.chars ++ bytes "\n"),
    hreply⟩

/-- A name that is claimed has been carried by a REGISTER. -/
theorem plainWord_of_registrable {b : Broker} {name : CStr wdClientNameLen}
    (h : Registrable b name) : PlainWord name.chars := by
  obtain ⟨s, -, hs⟩ := h
  obtain ⟨i, c, t, hc, hann, rfl, hevent, -⟩ := hs
    ⟨some ⟨7, 1000⟩, .packet (cmdRegister ++ s), Timespec.zero, Vector.replicate 8 0⟩
    ⟨7, 1000⟩ rfl rfl
  have hh := handled b
    ⟨some ⟨7, 1000⟩, .packet (cmdRegister ++ s), Timespec.zero, Vector.replicate 8 0⟩
  generalize handleCommand b _ = o at hevent hh
  cases hh with
  | kept _ _ hnone _ => cases hnone.symm.trans hevent
  | registered creds args j d hreq hget hslot =>
      obtain ⟨rfl, -, -⟩ := SlotEvent.register.inj (Option.some.inj hevent)
      obtain ⟨c', hc', -, -, hkind⟩ := getClientInstanceByName_some hget
      obtain rfl := Option.some.inj (hc'.symm.trans hc)
      obtain ⟨-, hne, hprint⟩ := registers_ok hreq
      rcases hkind with ⟨-, hname⟩ | ⟨hfree, -⟩
      · exact hname ▸ ⟨hne, hprint⟩
      · rw [hann] at hfree
        exact Bool.noConfusion hfree
  | pinged => cases hevent
  | unregistered => cases hevent

/-- Directly after start-up no client is active. -/
theorem boot_inactive {file : Option (List Byte)} {clock : Nat → Timespec} {raws : Nat → Raw}
    {b : Broker} (h : boot file clock raws = .ok b) : ∀ c ∈ b.clients.slots, c.active = false :=
  forall_slots_boot h rfl fun _ hann => hann.inactive

/-- **ANNOUNCED CLIENTS THAT CAN REGISTER**: for every accepted configuration file and
    every slot it announces, a REGISTER packet of at most 127 bytes gets a slot announced
    under the same name exactly if the name is one run of printable characters that are
    not blanks. -/
theorem registrable_iff {file : Option (List Byte)} {clock : Nat → Timespec} {raws : Nat → Raw}
    {b : Broker} {i : Nat} {c : Client} (hboot : boot file clock raws = .ok b)
    (hc : b.clients.slots[i]? = some c) (hann : c.anounced = true) :
    Registrable b c.name ↔ PlainWord c.name.chars :=
  ⟨plainWord_of_registrable, registrable_of_plainWord (boot_inactive hboot) hc hann⟩

/-- A configuration file with one client section. -/
def oneClient (name : String) : List Byte := header (bytes name) ++ bytes "\n"

theorem boot_oneClient (name : String)
    (h : accepts (oneClient name) (fun b => (deref b.clients 0).anounced &&
      (deref b.clients 0).name.chars == bytes name) = true) :
    ∃ b c, boot (some (oneClient name)) (fun _ => Timespec.zero) (fun _ => Vector.replicate 8 0)
      = .ok b ∧ b.clients.slots[0]? = some c ∧ c.anounced = true ∧ c.name.chars = bytes name := by
  obtain ⟨b, hboot, hb⟩ := exists_of_accepts h
  obtain ⟨c, hc⟩ : ∃ c, b.clients.slots[0]? = some c :=
    ⟨_, List.getElem?_eq_getElem (b.clients.size ▸ by decide)⟩
  rw [deref_of_getElem? hc, Bool.and_eq_true, beq_iff_eq] at hb
  exact ⟨b, c, hboot, hc, hb.1, hb.2⟩

theorem registrable_iff_one :
    ∃ b c, boot (some (oneClient "a")) (fun _ => Timespec.zero) (fun _ => Vector.replicate 8 0)
      = .ok b ∧ b.clients.slots[0]? = some c ∧ c.anounced = true ∧
        (Registrable b c.name ↔ PlainWord c.name.chars) := by
  obtain ⟨b, c, hboot, hc, hann, -⟩ := boot_oneClient "a" (by decide +kernel)
  exact ⟨b, c, hboot, hc, hann, registrable_iff hboot hc hann⟩

/-- **A NAME NOBODY CAN REGISTER**: the file `[client my app]` is accepted, and no packet
    gets the slot it announces. -/
theorem unregistrable_name :
    ∃ b c, boot (some (oneClient "my app")) (fun _ => Timespec.zero)
      (fun _ => Vector.replicate 8 0) = .ok b ∧ b.clients.slots[0]? = some c ∧
        c.anounced = true ∧ c.name.chars = bytes "my app" ∧ ¬ Registrable b c.name := by
  obtain ⟨b, c, hboot, hc, hann, hname⟩ := boot_oneClient "my app" (by decide +kernel)
  refine ⟨b, c, hboot, hc, hann, hname, fun h => ?_⟩
  have hblank := (plainWord_of_registrable h).2 32 (by rw [hname]; decide)
  exact absurd hblank.2 (by decide)

end WdSection
