import WdBroker.RepliesProofs
import WdBroker.TokensProofs

/-! # What the REGISTER format accepts

    `"%63s %u %15s %15s"` looks like three words with blanks between them and is not:
    a `%63s` ends after 63 bytes whether a blank follows or not, a `%u` ends behind
    its digits, and a blank in the format matches nothing as well.  `Layout` is the
    form that the format really has, and `parseRegister_iff` says so.

    Two packets that are no name, timeout and flag get through: the name may run into
    the timeout if it is 63 bytes long, and the timeout into `ignorepid`.
    `register_tokens_iff` says that there are no others.  `register_timeout_iff` is
    about the number: the value taken is the one written exactly if the numeral is
    read to its end and lies in the range of the variable. -/

namespace WdGrammar

open CString Scanf Tokens WdClock WdTable WdClientID WdConfig WdCommand WdReach WdReplies

-- ── the form of the arguments ─────────────────────────────────────────────────

/-- What stands behind `REGISTER `: a name, a numeral, and either nothing or
    `ignorepid`, with blanks around them; between the name and the numeral there is a
    blank unless the name fills its width, and before `ignorepid` none is needed. -/
structure Layout (s name sign digits rest : List Byte) (neg checkPID : Bool) : Prop where
  text : ∃ sp sp', s = sp ++ (name ++ (sp' ++ ((sign ++ digits) ++ rest))) ∧
    (∀ b ∈ sp, isspace b = true) ∧ (∀ b ∈ sp', isspace b = true) ∧
    (name.length = 63 ∨ sp' ≠ [])
  name_ne : name ≠ []
  name_le : name.length ≤ 63
  name_word : ∀ b ∈ name, isspace b = false
  sign_ok : IsSign sign neg
  digits_ne : digits ≠ []
  digits_ok : ∀ b ∈ digits, isdigit b = true
  flag : if checkPID then ∀ b ∈ rest, isspace b = true
    else ∃ sp sp', rest = sp ++ (bytes "ignorepid" ++ sp') ∧
      (∀ b ∈ sp, isspace b = true) ∧ ∀ b ∈ sp', isspace b = true

theorem not_isspace_ignorepid : ∀ b ∈ bytes "ignorepid", isspace b = false := by
  have hall : (bytes "ignorepid").all (fun b => !isspace b) = true := by decide
  intro b hb
  simpa using List.all_eq_true.mp hall b hb

/-- The flag fields are read from nothing but blanks, or from `ignorepid` between
    blanks. -/
theorem scan_flag_iff {rest : List Byte} {checkPID : Bool} :
    sscanf [.space, .str 15, .space, .str 15] rest = optField checkPID ↔
      if checkPID then ∀ b ∈ rest, isspace b = true
      else ∃ sp sp', rest = sp ++ (bytes "ignorepid" ++ sp') ∧
        (∀ b ∈ sp, isspace b = true) ∧ ∀ b ∈ sp', isspace b = true := by
  cases checkPID with
  | true => exact sscanf_space_str_eq_nil (by decide)
  | false =>
      rw [sscanf_space_str]
      constructor
      · intro h
        obtain ⟨sp, t, sp', hs, hv, hvs, -, -, -, hsp, -⟩ := sscanf_str h
        obtain rfl := Value.str.inj hv
        refine ⟨sp, sp', by rw [hs, List.append_assoc], hsp, ?_⟩
        exact (sscanf_space_str_eq_nil (by decide)).mp hvs.symm
      · rintro ⟨sp, sp', rfl, hsp, hsp'⟩
        have hend : ∀ b ∈ sp'.head?, isspace b = true :=
          fun b hb => hsp' b (List.mem_of_mem_head? hb)
        rw [sscanf_str_word hsp (by decide) not_isspace_ignorepid (by decide) (Or.inr hend),
          (sscanf_space_str_eq_nil (by decide)).mpr hsp']
        rfl

/-- What follows a numeral, being blank or a flag, is no further digit. -/
theorem Layout.end_of_digits {s name sign digits rest : List Byte} {neg checkPID : Bool}
    (h : Layout s name sign digits rest neg checkPID) : ∀ b ∈ rest.head?, isdigit b = false := by
  have hflag := h.flag
  cases checkPID with
  | true => exact fun b hb => not_isdigit_of_isspace b (hflag b (List.mem_of_mem_head? hb))
  | false =>
      obtain ⟨sp, sp', rfl, hsp, -⟩ := hflag
      cases sp with
      | nil => intro b hb; cases hb; decide
      | cons c sp =>
          intro b hb
          cases hb
          exact not_isdigit_of_isspace _ (hsp _ List.mem_cons_self)

/-- **THE FIELDS OF REGISTER**. -/
theorem scan_register_iff {s name : List Byte} {n : Nat} {checkPID : Bool} :
    sscanf wdRegisterScanfFormat s = .str name :: .uint n :: optField checkPID ↔
      ∃ sign digits rest neg, Layout s name sign digits rest neg checkPID ∧
        n = strtoul neg digits % 2 ^ 32 := by
  unfold wdRegisterScanfFormat
  constructor
  · intro h
    obtain ⟨sp, t, s', hs, hv, hvs, hne, hle, hend, hsp, ht⟩ := sscanf_str h
    obtain rfl := Value.str.inj hv
    rw [sscanf_space_uint] at hvs
    obtain ⟨sp', neg, sign, digits, rest, hs', hn, hflag, hsp', hsign, hdne, hdigits, -⟩ :=
      sscanf_uint hvs.symm
    have hgap : name.length = 63 ∨ sp' ≠ [] := by
      refine hend.imp id fun hhead hnil => ?_
      rw [hs', hnil] at hhead
      obtain ⟨c, cs, hc⟩ :=
        List.exists_cons_of_ne_nil (List.append_ne_nil_of_right_ne_nil sign hdne)
      have hblank := hhead c (by rw [hc]; rfl)
      rw [numeral_not_isspace hsign hdigits c (hc ▸ List.mem_cons_self)] at hblank
      exact Bool.noConfusion hblank
    exact ⟨sign, digits, rest, neg,
      ⟨⟨sp, sp', by rw [hs, hs', List.append_assoc], hsp, hsp', hgap⟩, hne, hle, ht, hsign, hdne,
        hdigits, scan_flag_iff.mp hflag.symm⟩, Value.uint.inj hn⟩
  · rintro ⟨sign, digits, rest, neg, h, rfl⟩
    obtain ⟨sp, sp', rfl, hsp, hsp', hgap⟩ := h.text
    have hend : name.length = 63 ∨ ∀ b ∈ (sp' ++ ((sign ++ digits) ++ rest)).head?,
        isspace b = true := by
      refine hgap.imp id fun hne b hb => ?_
      obtain ⟨c, cs, rfl⟩ := List.exists_cons_of_ne_nil hne
      cases hb
      exact hsp' _ List.mem_cons_self
    rw [sscanf_str_word hsp h.name_ne h.name_word h.name_le hend, sscanf_space_uint,
      sscanf_uint_numeral hsp' h.sign_ok h.digits_ne h.digits_ok h.end_of_digits,
      scan_flag_iff.mpr h.flag]

/-- An accepted REGISTER, by its fields. -/
theorem parseRegister_iff {s : List Byte} {args : RegisterArgs} :
    parseRegister (cmdRegister ++ s) = .ok args ↔
      ∃ name sign digits rest neg checkPID, Layout s name sign digits rest neg checkPID ∧
        validateRegister name (strtoul neg digits % 2 ^ 32) checkPID = .ok args := by
  rw [parseRegister_ok_iff]
  constructor
  · rintro ⟨name, n, checkPID, hscan, hval⟩
    obtain ⟨sign, digits, rest, neg, hlayout, rfl⟩ := scan_register_iff.mp hscan
    exact ⟨name, sign, digits, rest, neg, checkPID, hlayout, hval⟩
  · rintro ⟨name, sign, digits, rest, neg, checkPID, hlayout, hval⟩
    exact ⟨name, _, checkPID, scan_register_iff.mpr ⟨sign, digits, rest, neg, hlayout, rfl⟩, hval⟩

-- ── the tokens ────────────────────────────────────────────────────────────────

/-- The tokens of an accepted text: three words or two, unless a name of 63 bytes runs
    into the timeout or the timeout into the flag. -/
inductive Words (name timeout : List Byte) (checkPID : Bool) : List (List Byte) → Prop where
  | plain (h : checkPID = true) : Words name timeout checkPID [name, timeout]
  | flag (h : checkPID = false) :
      Words name timeout checkPID [name, timeout, bytes "ignorepid"]
  | glued (h : checkPID = false) :
      Words name timeout checkPID [name, timeout ++ bytes "ignorepid"]
  | long (t : List Byte) (ts : List (List Byte)) (ht : 63 < t.length) :
      Words name timeout checkPID (t :: ts)

theorem words_of_layout {s name sign digits rest : List Byte} {neg checkPID : Bool}
    (h : Layout s name sign digits rest neg checkPID) :
    Words name (sign ++ digits) checkPID (tokens isspace s) := by
  obtain ⟨sp, sp', rfl, hsp, hsp', hgap⟩ := h.text
  have hnumeral := numeral_not_isspace h.sign_ok h.digits_ok
  have hne : sign ++ digits ≠ [] := List.append_ne_nil_of_right_ne_nil _ h.digits_ne
  rw [tokens_append_left hsp]
  cases sp' with
  | nil =>
      have hlen : name.length = 63 := hgap.resolve_right fun hn => hn rfl
      obtain ⟨t, ts, ht⟩ := @tokens_front _ isspace (name ++ (sign ++ digits)) rest
        (List.append_ne_nil_of_left_ne_nil h.name_ne _)
        (List.forall_mem_append.mpr ⟨h.name_word, hnumeral⟩)
      rw [List.nil_append, ← List.append_assoc, ht]
      refine .long _ _ ?_
      have hpos := List.length_pos_iff.mpr hne
      rw [List.length_append, List.length_append]
      omega
  | cons c sp' =>
      have hend : ∀ b ∈ ((c :: sp') ++ ((sign ++ digits) ++ rest)).head?, isspace b = true := by
        intro b hb
        cases hb
        exact hsp' _ List.mem_cons_self
      rw [tokens_run h.name_ne h.name_word hend, tokens_append_left hsp']
      have hflag := h.flag
      cases checkPID with
      | true =>
          have hblank : ∀ b ∈ rest.head?, isspace b = true :=
            fun b hb => hflag b (List.mem_of_mem_head? hb)
          rw [tokens_run hne hnumeral hblank, tokens_eq_nil hflag]
          exact .plain rfl
      | false =>
          obtain ⟨sq, sq', rfl, hsq, hsq'⟩ := hflag
          have hblank : ∀ b ∈ sq'.head?, isspace b = true :=
            fun b hb => hsq' b (List.mem_of_mem_head? hb)
          cases sq with
          | nil =>
              rw [List.nil_append, ← List.append_assoc, tokens_run
                (List.append_ne_nil_of_left_ne_nil hne _)
                (List.forall_mem_append.mpr ⟨hnumeral, not_isspace_ignorepid⟩) hblank,
                tokens_eq_nil hsq']
              exact .glued rfl
          | cons d sq =>
              have hhead : ∀ b ∈ ((d :: sq) ++ (bytes "ignorepid" ++ sq')).head?,
                  isspace b = true := by
                intro b hb
                cases hb
                exact hsq _ List.mem_cons_self
              rw [tokens_run hne hnumeral hhead, tokens_append_left hsq,
                tokens_run (by decide) not_isspace_ignorepid hblank, tokens_eq_nil hsq']
              exact .flag rfl

/-- The text is a name, a timeout and at most `ignorepid`, as separate words, and the
    slot holds what they say. -/
def Structured (s : List Byte) (c : Client) : Prop :=
  ∃ timeout, (tokens isspace s = [c.name.chars, timeout] ∧ c.checkPID = true ∨
      tokens isspace s = [c.name.chars, timeout, bytes "ignorepid"] ∧ c.checkPID = false) ∧
    1 ≤ c.name.chars.length ∧ c.name.chars.length ≤ 63 ∧ (numeral timeout).isSome

/-- Where fields could run into each other they do not: the first word fits the name,
    and the second is not one that `ignorepid` ends. -/
def Separated (s : List Byte) : Prop :=
  (∀ t ∈ (tokens isspace s)[0]?, t.length ≤ 63) ∧
    ∀ t ∈ (tokens isspace s)[1]?, ¬ bytes "ignorepid" <:+ t

/-- A word that contains `ignorepid` is no numeral. -/
theorem numeral_append_ignorepid (t : List Byte) : numeral (t ++ bytes "ignorepid") = none := by
  rw [Option.eq_none_iff_forall_ne_some]
  intro z hz
  obtain ⟨sign, neg, digits, hs, hsign, -, hdigits, -⟩ := numeral_eq_some_iff.mp hz
  have hmem : (105 : Byte) ∈ t ++ bytes "ignorepid" := List.mem_append_right t (by decide)
  rw [hs] at hmem
  exact absurd (mem_numeral hsign hdigits 105 hmem) (by decide)

/-- The accepted texts that are a name, a timeout and a flag are those in which no two
    fields run into each other. -/
theorem structured_iff {s name sign digits rest : List Byte} {neg : Bool} {c : Client}
    (h : Layout s name sign digits rest neg c.checkPID) (hname : c.name.chars = name) :
    Structured s c ↔ Separated s := by
  have hwords := words_of_layout h
  have htimeout : numeral (sign ++ digits) = some (signed neg digits) :=
    numeral_eq_some_iff.mpr ⟨sign, neg, digits, rfl, h.sign_ok, h.digits_ne, h.digits_ok, rfl⟩
  have hpos : 1 ≤ c.name.chars.length := hname ▸ List.length_pos_iff.mpr h.name_ne
  have hle : c.name.chars.length ≤ 63 := hname ▸ h.name_le
  have hnosuffix : ¬ bytes "ignorepid" <:+ sign ++ digits := by
    rintro ⟨u, hu⟩
    rw [← hu, numeral_append_ignorepid] at htimeout
    exact nomatch htimeout
  unfold Structured Separated
  generalize tokens isspace s = ts at hwords ⊢
  cases hwords with
  | plain hcheck =>
      refine iff_of_true ⟨sign ++ digits, Or.inl ⟨by rw [hname], hcheck⟩, hpos, hle, ?_⟩ ⟨?_, ?_⟩
      · rw [htimeout]; rfl
      · intro t ht; cases ht; exact h.name_le
      · intro t ht; cases ht; exact hnosuffix
  | flag hcheck =>
      refine iff_of_true ⟨sign ++ digits, Or.inr ⟨by rw [hname], hcheck⟩, hpos, hle, ?_⟩ ⟨?_, ?_⟩
      · rw [htimeout]; rfl
      · intro t ht; cases ht; exact h.name_le
      · intro t ht; cases ht; exact hnosuffix
  | glued hcheck =>
      refine iff_of_false ?_ ?_
      · rintro ⟨timeout, ⟨-, htrue⟩ | ⟨htokens, -⟩, -⟩
        · rw [hcheck] at htrue
          exact Bool.noConfusion htrue
        · exact nomatch (List.cons.inj (List.cons.inj htokens).2).2
      · rintro ⟨-, hsecond⟩
        exact hsecond _ rfl ⟨_, rfl⟩
  | long t ts ht =>
      refine iff_of_false ?_ ?_
      · rintro ⟨timeout, ⟨htokens, -⟩ | ⟨htokens, -⟩, -, hfits, -⟩
        · rw [(List.cons.inj htokens).1] at ht
          omega
        · rw [(List.cons.inj htokens).1] at ht
          omega
      · rintro ⟨hfirst, -⟩
        exact absurd (hfirst t rfl) (Nat.not_le.mpr ht)

/-- **THE TOKENS OF AN ACCEPTED REGISTER**: for every packet without NUL of at most 127
    bytes that is answered `OK`, the rest of it is a name, a timeout numeral and at most
    `ignorepid`, separated by white space and stored in the slot as such, exactly if its
    first word has at most 63 bytes and its second does not end in `ignorepid`. -/
theorem register_tokens_iff {b : Broker} {r : Request} {s : List Byte}
    (hr : r.incoming = .packet (cmdRegister ++ s)) (hlen : (cmdRegister ++ s).length ≤ 127)
    (hnul : (0 : Byte) ∉ cmdRegister ++ s)
    (hok : ∃ t, (handleCommand b r).replies = [.text (bytes "OK" ++ t)]) :
    ∃ i c, (handleCommand b r).event = some (.register i r.now c.timeoutMs) ∧
      (command b r).clients.slots[i]? = some c ∧ (Structured s c ↔ Separated s) := by
  have hbuf : r.buf = some (cmdRegister ++ s) :=
    buf_of_packet hr (List.append_ne_nil_of_left_ne_nil (by decide) s) hlen hnul
  obtain ⟨creds, args, i, c, hreq, -, -, hevent, hslot⟩ := registered_of_ok ⟨s, hbuf⟩ hok
  obtain ⟨s', -, hb, hparse⟩ := hreq
  obtain rfl := List.append_cancel_left (Option.some.inj (hbuf.symm.trans hb))
  obtain ⟨name, sign, digits, rest, neg, checkPID, hlayout, hval⟩ := parseRegister_iff.mp hparse
  obtain ⟨rfl, -, -⟩ := validateRegister_ok_iff.mp hval
  obtain ⟨sp, sp', hs, -, -, -⟩ := hlayout.text
  have hname : (0 : Byte) ∉ name := fun h0 => hnul (by rw [hs]; simp [h0])
  refine ⟨i, _, hevent, hslot, structured_iff hlayout ?_⟩
  rw [registerSlot_name]
  exact CStr.strncpy_chars (Nat.lt_succ_of_le hlayout.name_le) hname

-- ── the value of the timeout ──────────────────────────────────────────────────

/-- The packet is a REGISTER with the timeout token `t` behind `front`: the keyword, a
    name that fits, and a gap.  What follows is anything but a further digit. -/
def TimeoutAt (data front t : List Byte) : Prop :=
  ∃ sp name sp' rest, front = cmdRegister ++ (sp ++ (name ++ sp')) ∧ data = front ++ (t ++ rest) ∧
    (∀ b ∈ sp, isspace b = true) ∧ name ≠ [] ∧ name.length ≤ 63 ∧
    (∀ b ∈ name, isspace b = false) ∧ (∀ b ∈ sp', isspace b = true) ∧
    (name.length = 63 ∨ sp' ≠ []) ∧ ∀ b ∈ rest.head?, isdigit b = false

/-- The texts that end before the numeral has a digit are not accepted. -/
theorem scan_cut_ne {sp w q : List Byte} (hsp : ∀ b ∈ sp, isspace b = true)
    (hw : ∀ b ∈ w, isspace b = false) (hle : w.length ≤ 63)
    (hend : w.length = 63 ∨ ∀ b ∈ q.head?, isspace b = true) (hq : ∀ b ∈ q, isdigit b = false)
    (hempty : w = [] → q = []) (name : List Byte) (n : Nat) (vs : List Value) :
    sscanf wdRegisterScanfFormat (sp ++ (w ++ q)) ≠ .str name :: .uint n :: vs := by
  unfold wdRegisterScanfFormat
  by_cases hne : w = []
  · rw [hne, hempty hne, List.append_nil, List.append_nil, sscanf_str_eq_nil hsp]
    exact fun h => nomatch h
  · rw [sscanf_str_word hsp hne hw hle hend, sscanf_space_uint, sscanf_uint_eq_nil hq]
    exact fun h => nomatch (List.cons.inj h).2

/-- Cut anywhere, a REGISTER is not accepted, or the timeout is made of the digits that
    are left. -/
theorem scan_cut {sp name sp' sign digits rest s n : List Byte} {neg : Bool} {k : Nat}
    {vs : List Value} (hsp : ∀ b ∈ sp, isspace b = true) (hne : name ≠ [])
    (hle : name.length ≤ 63) (hname : ∀ b ∈ name, isspace b = false)
    (hsp' : ∀ b ∈ sp', isspace b = true) (hgap : name.length = 63 ∨ sp' ≠ [])
    (hsign : IsSign sign neg) (hdne : digits ≠ []) (hdigits : ∀ b ∈ digits, isdigit b = true)
    (hrest : ∀ b ∈ rest.head?, isdigit b = false)
    (hs : s <+: sp ++ (name ++ (sp' ++ ((sign ++ digits) ++ rest))))
    (hscan : sscanf wdRegisterScanfFormat s = .str n :: .uint k :: vs) :
    ∃ ds es tail, digits = ds ++ es ∧ ds ≠ [] ∧ (es ≠ [] → tail = []) ∧
      s = sp ++ (name ++ (sp' ++ ((sign ++ ds) ++ tail))) ∧
      k = strtoul neg ds % 2 ^ 32 := by
  have hend : ∀ q : List Byte, name.length = 63 ∨ ∀ b ∈ (sp' ++ q).head?, isspace b = true := by
    refine fun q => hgap.imp id fun hne b hb => ?_
    obtain ⟨c, cs, rfl⟩ := List.exists_cons_of_ne_nil hne
    cases hb
    exact hsp' _ List.mem_cons_self
  have hnodigit : ∀ {l : List Byte}, (∀ b ∈ l, isspace b = true) → ∀ b ∈ l, isdigit b = false :=
    fun h b hb => not_isdigit_of_isspace b (h b hb)
  have hnosign := hsign.not_isdigit
  have hnil : ∀ b ∈ ([] : List Byte).head?, isspace b = true := by simp
  have hvalue : ∀ {ds tail : List Byte}, ds ≠ [] → (∀ b ∈ ds, isdigit b = true) →
      (∀ b ∈ tail.head?, isdigit b = false) →
      s = sp ++ (name ++ (sp' ++ ((sign ++ ds) ++ tail))) → k = strtoul neg ds % 2 ^ 32 := by
    intro ds tail hdne hds htail hs'
    unfold wdRegisterScanfFormat at hscan
    rw [hs', sscanf_str_word hsp hne hname hle (hend _), sscanf_space_uint,
      sscanf_uint_numeral hsp' hsign hdne hds htail] at hscan
    exact (Value.uint.inj (List.cons.inj (List.cons.inj hscan).2).1).symm
  rcases prefix_append_cases hs with hcut | ⟨s₁, rfl, hs₁⟩
  · -- within the blanks in front
    have hblank : ∀ b ∈ s, isspace b = true := fun b hb => hsp b (hcut.subset hb)
    rw [← List.append_nil s, ← List.append_nil s, List.append_assoc] at hscan
    exact absurd hscan (scan_cut_ne hblank (List.forall_mem_nil _) (by decide) (Or.inr hnil)
      (List.forall_mem_nil _) (fun _ => rfl) n k vs)
  rcases prefix_append_cases hs₁ with hcut | ⟨s₂, rfl, hs₂⟩
  · -- within the name
    rw [← List.append_nil s₁] at hscan
    exact absurd hscan (scan_cut_ne hsp (fun b hb => hname b (hcut.subset hb))
      (Nat.le_trans hcut.length_le hle) (Or.inr hnil) (List.forall_mem_nil _)
      (fun _ => rfl) n k vs)
  rcases prefix_append_cases hs₂ with hcut | ⟨s₃, rfl, hs₃⟩
  · -- within the gap
    have hblank : ∀ b ∈ s₂, isspace b = true := fun b hb => hsp' b (hcut.subset hb)
    exact absurd hscan (scan_cut_ne hsp hname hle
      (Or.inr fun b hb => hblank b (List.mem_of_mem_head? hb)) (hnodigit hblank)
      (fun h => absurd h hne) n k vs)
  rcases prefix_append_cases hs₃ with hcut | ⟨tail, rfl, htail⟩
  · rcases prefix_append_cases hcut with hcut | ⟨ds, rfl, ⟨es, hes⟩⟩
    · -- within the sign
      have hno : ∀ b ∈ sp' ++ s₃, isdigit b = false :=
        List.forall_mem_append.mpr ⟨hnodigit hsp', fun b hb => hnosign b (hcut.subset hb)⟩
      exact absurd hscan (scan_cut_ne hsp hname hle (hend s₃) hno (fun h => absurd h hne) n k vs)
    · -- within the digits
      have hds : ∀ b ∈ ds, isdigit b = true :=
        fun b hb => hdigits b (hes ▸ List.mem_append_left _ hb)
      by_cases hcutne : ds = []
      · have hno : ∀ b ∈ sp' ++ (sign ++ ds), isdigit b = false := by
          rw [hcutne, List.append_nil]
          exact List.forall_mem_append.mpr ⟨hnodigit hsp', hnosign⟩
        exact absurd hscan (scan_cut_ne hsp hname hle (hend _) hno (fun h => absurd h hne) n k vs)
      · have hs' : sp ++ (name ++ (sp' ++ (sign ++ ds)))
            = sp ++ (name ++ (sp' ++ ((sign ++ ds) ++ []))) := by rw [List.append_nil]
        exact ⟨ds, es, [], hes.symm, hcutne, fun _ => rfl, hs',
          hvalue hcutne hds (by simp) hs'⟩
  · -- behind the digits
    have hhead : ∀ b ∈ tail.head?, isdigit b = false := by
      cases tail with
      | nil => exact by simp
      | cons c tail =>
          obtain ⟨u, rfl⟩ := htail
          exact hrest
    exact ⟨digits, [], tail, (List.append_nil _).symm, hdne, fun h => absurd rfl h, rfl,
      hvalue hdne hdigits hhead rfl⟩

/-- An accepted numeral denotes the value taken exactly if it was read to its end and
    lies in the range of the variable. -/
theorem timeout_value_iff {ds es : List Byte} {neg : Bool} {k : Nat}
    (hk : k = strtoul neg ds % 2 ^ 32) (hrange : TimeoutOk k) :
    (5000 ≤ signed neg (ds ++ es) ∧ signed neg (ds ++ es) ≤ 300000 ∧
        (k : Int) = signed neg (ds ++ es)) ↔
      es = [] ∧ 0 ≤ signed neg (ds ++ es) ∧ signed neg (ds ++ es) < 2 ^ 32 := by
  obtain ⟨hmin, hmax⟩ : 5000 ≤ k ∧ k ≤ 300000 := hrange
  by_cases hes : es = []
  · subst hes
    rw [List.append_nil]
    constructor
    · rintro ⟨hge, hle, -⟩
      exact ⟨rfl, by omega, by omega⟩
    · rintro ⟨-, h0, h32⟩
      have hval := strtoul_signed h0 h32
      rw [← hk] at hval
      omega
  · refine iff_of_false ?_ fun h => hes h.1
    rintro ⟨hge, hle, heq⟩
    -- the digits that were read make a tenth of the numeral, and are taken as they are
    have hten := @ten_mul_digitsVal_le ds es hes
    cases neg with
    | true =>
        simp only [signed, if_true] at hge
        omega
    | false =>
        simp only [signed, Bool.false_eq_true, if_false] at hge hle heq
        have hval := @strtoul_signed false ds (Int.natCast_nonneg _)
          (by simp only [signed, Bool.false_eq_true, if_false]; omega)
        rw [← hk] at hval
        simp only [signed, Bool.false_eq_true, if_false] at hval
        omega

/-- The part of a numeral that was read is all of it exactly if it stands within the
    bytes that a read delivers. -/
theorem read_to_end_iff {p es tail rest : List Byte} (hes : ∀ b ∈ es, isdigit b = true)
    (htail : es ≠ [] → tail = [])
    (hs : cstr ((p ++ (es ++ rest)).take 118) = p ++ tail) :
    es = [] ↔ (p ++ es).length ≤ 118 := by
  have hlen : (p ++ tail).length ≤ 118 := by
    rw [← hs]
    exact Nat.le_trans (List.takeWhile_sublist _).length_le (List.length_take_le _ _)
  constructor
  · rintro rfl
    rw [List.append_nil]
    rw [List.length_append] at hlen
    omega
  · intro hfits
    by_contra hne
    have hp : (0 : Byte) ∉ p := fun h0 => cstr_no_nul _ (hs ▸ List.mem_append_left tail h0)
    have hnul : (0 : Byte) ∉ p ++ es := fun h0 => by
      rcases List.mem_append.mp h0 with h | h
      · exact hp h
      · exact absurd (hes 0 h) (by decide)
    rw [htail hne, ← List.append_assoc, List.take_append, List.take_of_length_le hfits,
      cstr_append hnul, List.append_nil, List.append_assoc] at hs
    have hnil := List.append_eq_nil_iff.mp (List.append_right_eq_self.mp hs)
    exact hne hnil.1

/-- **THE VALUE OF THE TIMEOUT**: for every packet that is answered `OK` and whose
    timeout token is a numeral, the slot holds the number that the numeral denotes, and
    that number is in range, exactly if the numeral ends within the first 127 bytes of
    the packet and denotes a number from 0 to `2^32 - 1`. -/
theorem register_timeout_iff {b : Broker} {r : Request} {data front t : List Byte} {z : Int}
    (hr : r.incoming = .packet data) (ht : TimeoutAt data front t) (hz : numeral t = some z)
    (hok : ∃ u, (handleCommand b r).replies = [.text (bytes "OK" ++ u)]) :
    ∃ i c, (handleCommand b r).event = some (.register i r.now c.timeoutMs) ∧
      (command b r).clients.slots[i]? = some c ∧
      ((5000 ≤ z ∧ z ≤ 300000 ∧ (c.timeoutMs : Int) = z) ↔
        (front ++ t).length ≤ 127 ∧ 0 ≤ z ∧ z < 2 ^ 32) := by
  obtain ⟨sp, name, sp', rest, rfl, rfl, hsp, hne, hle, hname, hsp', hgap, hrest⟩ := ht
  obtain ⟨sign, neg, digits, rfl, hsign, hdne, hdigits, rfl⟩ := numeral_eq_some_iff.mp hz
  rw [List.append_assoc] at hr
  have hbuf := buf_of_keyword hr (by decide) (by decide) (by decide)
  obtain ⟨creds, args, i, c, hreq, -, -, hevent, hslot⟩ := registered_of_ok ⟨_, hbuf⟩ hok
  refine ⟨i, _, hevent, hslot, ?_⟩
  obtain ⟨s, -, hb, hparse⟩ := hreq
  have hs : s = cstr _ := List.append_cancel_left (Option.some.inj (hb.symm.trans hbuf))
  obtain ⟨n, k, checkPID, hscan, hval⟩ := parseRegister_ok_iff.mp hparse
  obtain ⟨rfl, hrange, -⟩ := validateRegister_ok_iff.mp hval
  have hcut : s <+: sp ++ (name ++ (sp' ++ ((sign ++ digits) ++ rest))) := by
    rw [hs]
    refine (List.takeWhile_prefix _).trans ((List.take_prefix _ _).trans ?_)
    simp only [List.append_assoc, List.prefix_rfl]
  obtain ⟨ds, es, tail, rfl, hds, htail, hstext, hk⟩ :=
    scan_cut hsp hne hle hname hsp' hgap hsign hdne hdigits hrest hcut hscan
  have hkey : cmdRegister.length = 9 := rfl
  have hends : es = [] ↔
      (cmdRegister ++ (sp ++ (name ++ sp')) ++ (sign ++ (ds ++ es))).length ≤ 127 := by
    rw [hs, hkey] at hstext
    have hread := @read_to_end_iff (sp ++ (name ++ (sp' ++ (sign ++ ds)))) es tail rest
      (fun b hb => hdigits b (List.mem_append_right _ hb)) htail
      (by simpa only [List.append_assoc] using hstext)
    rw [hread]
    simp only [List.length_append, hkey]
    omega
  rw [← hends]
  exact timeout_value_iff hk hrange

-- ── at concrete packets ───────────────────────────────────────────────────────

/-- A packet of process 7 of an ordinary user. -/
def userPacket (data : List Byte) : Request :=
  ⟨some ⟨7, 1000⟩, .packet data, Timespec.zero, Vector.replicate 8 0⟩

/-- The answer to the first registration, with zero bytes in the ID. -/
def firstID : List Byte := bytes " 0000000000000000\n"

theorem register_tokens_iff_plain :
    ∃ i c, (handleCommand emptyBroker (userPacket (bytes "REGISTER a 5000\n"))).event
        = some (.register i Timespec.zero c.timeoutMs) ∧
      (command emptyBroker (userPacket (bytes "REGISTER a 5000\n"))).clients.slots[i]? = some c ∧
      (Structured (bytes "a 5000\n") c ↔ Separated (bytes "a 5000\n")) :=
  @register_tokens_iff emptyBroker (userPacket (bytes "REGISTER a 5000\n")) (bytes "a 5000\n")
    rfl (by decide) (by decide) ⟨firstID, by decide +kernel⟩

/-- A name of 63 bytes and a timeout without a blank between them. -/
def joinedName : List Byte := List.replicate 63 97 ++ bytes "5000"

/-- **FIELDS RUN TOGETHER**: `joinedName`, one token, is answered `OK`, and so is a
    timeout that `ignorepid` follows without a blank. -/
theorem fields_run_together :
    ((cmdRegister ++ joinedName).length ≤ 127 ∧ (0 : Byte) ∉ cmdRegister ++ joinedName) ∧
      ((handleCommand emptyBroker (userPacket (cmdRegister ++ joinedName))).replies
        = [.text (bytes "OK" ++ firstID)] ∧ ∀ c, ¬ Structured joinedName c) ∧
      (handleCommand emptyBroker (userPacket (cmdRegister ++ bytes "a 5000ignorepid"))).replies
        = [.text (bytes "OK" ++ firstID)] ∧ ∀ c, ¬ Structured (bytes "a 5000ignorepid") c := by
  have hone : tokens isspace joinedName = [joinedName] := by decide +kernel
  have htwo : tokens isspace (bytes "a 5000ignorepid") = [bytes "a", bytes "5000ignorepid"] := by
    decide +kernel
  refine ⟨by decide +kernel, ⟨by decide +kernel, ?_⟩, by decide +kernel, ?_⟩
  · rintro c ⟨timeout, ⟨htokens, -⟩ | ⟨htokens, -⟩, -⟩
    · exact nomatch (List.cons.inj (hone.symm.trans htokens)).2
    · exact nomatch (List.cons.inj (hone.symm.trans htokens)).2
  · rintro c ⟨timeout, ⟨htokens, -⟩ | ⟨htokens, -⟩, -, -, hnumeral⟩
    · obtain rfl := (List.cons.inj (List.cons.inj (htwo.symm.trans htokens)).2).1
      exact absurd hnumeral (by decide)
    · exact nomatch (List.cons.inj (List.cons.inj (htwo.symm.trans htokens)).2).2

/-- Where the timeout of a REGISTER of client `a` stands. -/
theorem timeoutAt_a {t rest : List Byte} (hrest : ∀ b ∈ rest.head?, isdigit b = false) :
    TimeoutAt (bytes "REGISTER a " ++ (t ++ rest)) (bytes "REGISTER a ") t :=
  ⟨[], bytes "a", bytes " ", rest, rfl, rfl, List.forall_mem_nil _, by decide, by decide,
    List.forall_mem_singleton.mpr rfl, List.forall_mem_singleton.mpr rfl, Or.inr (by decide), hrest⟩

theorem register_timeout_iff_plain :
    ∃ i c, (handleCommand emptyBroker (userPacket (bytes "REGISTER a 5000\n"))).event
        = some (.register i Timespec.zero c.timeoutMs) ∧
      (command emptyBroker (userPacket (bytes "REGISTER a 5000\n"))).clients.slots[i]? = some c ∧
      ((5000 ≤ (5000 : Int) ∧ (5000 : Int) ≤ 300000 ∧ (c.timeoutMs : Int) = 5000) ↔
        (bytes "REGISTER a " ++ bytes "5000").length ≤ 127 ∧ 0 ≤ (5000 : Int) ∧
          (5000 : Int) < 2 ^ 32) :=
  @register_timeout_iff emptyBroker (userPacket (bytes "REGISTER a 5000\n")) _ _
    (bytes "5000") 5000 rfl
    (@timeoutAt_a (bytes "5000") (bytes "\n") (by intro b hb; cases hb; decide))
    (by decide) ⟨firstID, by decide +kernel⟩

/-- A numeral out of range is answered `OK` and stored as 5000. -/
def StoredAs5000 (t : List Byte) : Prop :=
  TimeoutAt (bytes "REGISTER a " ++ (t ++ bytes "\n")) (bytes "REGISTER a ") t ∧
    (∃ z, numeral t = some z ∧ ¬ (5000 ≤ z ∧ z ≤ 300000)) ∧
    (handleCommand emptyBroker (userPacket (bytes "REGISTER a " ++ (t ++ bytes "\n")))).replies
      = [.text (bytes "OK" ++ firstID)] ∧
    (command emptyBroker (userPacket (bytes "REGISTER a "
      ++ (t ++ bytes "\n")))).clients.slots[0]?.map Client.timeoutMs = some 5000

/-- **NUMBERS WRAP AROUND**: `2^32 + 5000` and `-(2^32 - 5000)`. -/
theorem timeout_wraps :
    StoredAs5000 (bytes "4294972296") ∧ StoredAs5000 (bytes "-4294962296") := by
  have hat : ∀ t, TimeoutAt (bytes "REGISTER a " ++ (t ++ bytes "\n")) (bytes "REGISTER a ") t :=
    fun t => timeoutAt_a (by intro b hb; cases hb; decide)
  exact ⟨⟨hat _, ⟨4294972296, by decide, by decide⟩, by decide +kernel, by decide +kernel⟩,
    ⟨hat _, ⟨-4294962296, by decide, by decide⟩, by decide +kernel, by decide +kernel⟩⟩

end WdGrammar
