import WdBroker.ConfigLineProofs

/-! # Numbers in the configuration file

    A number is read with `atoi` from at most 127 bytes behind the `=`, and only the
    result is checked.  `TakenExactly` is what one expects of an accepted file: every
    value is a numeral in its range, and the last one of each key is in force.
    `values_exact_iff` says of which files it is true.

    The loop keeps in force what `atoi` makes of the last value (`values_inv`); what
    that has to do with the text of the value is settled for one line at a time
    (`taken_short`, `taken_long`). -/

namespace WdValue

open CString Scanf Tokens WdClock WdTable WdClientID WdConfig WdConfigLine

-- ── the value of a line ───────────────────────────────────────────────────────

/-- The text without the blanks at its end. -/
def stripEnd (s : List Byte) : List Byte := s.rdropWhile isspace

/-- What the loop takes for the value: at most 127 bytes, blanks stripped. -/
def taken (v : List Byte) : List Byte := trim ((stripEnd (cstr v)).take 127)

variable {key line val v s : List Byte}

/-- What the loop takes for the value of a key. -/
def keyValue (key line : List Byte) : Option (List Byte) :=
  match classify line with
  | .keyValue k val => if k = key then some val else none
  | _ => none

theorem keyValue_eq_some_iff :
    keyValue key line = some val ↔ classify line = .keyValue key val := by
  unfold keyValue
  constructor
  · intro h
    split at h
    · next k val' hclass =>
        split at h
        · next hk => rw [hclass, hk, Option.some.inj h]
        · exact nomatch h
    · exact nomatch h
  · intro h
    rw [h]
    exact if_pos rfl

variable {clock : Nat → Timespec} {raws : Nat → Raw} {st st' : Parse}

/-- The lines behind the `n`-th section line up to the next one; for `n = 0`, the lines in
    front of the first. -/
def sectionBody : Nat → List (List Byte) → List (List Byte)
  | _, [] => []
  | n, line :: lines =>
      if (sectionName line).isSome then
        if n = 0 then [] else sectionBody (n - 1) lines
      else if n = 0 then line :: sectionBody 0 lines
      else sectionBody n lines

theorem sectionBody_snoc (lines : List (List Byte)) (line : List Byte) :
    ∀ n, sectionBody n (lines ++ [line]) = sectionBody n lines ++
      if (sectionNames lines).length = n ∧ sectionName line = none then [line] else [] := by
  induction lines with
  | nil =>
      intro n
      cases h : sectionName line with
      | some name => cases n <;> simp [sectionBody, sectionNames, h]
      | none =>
          cases n with
          | zero => simp [sectionBody, sectionNames, h]
          | succ n => simp [sectionBody, sectionNames, h]
  | cons l lines ih =>
      intro n
      rw [List.cons_append, sectionBody, sectionBody]
      cases h : sectionName l with
      | some name =>
          have hcount : (sectionNames (l :: lines)).length = (sectionNames lines).length + 1 := by
            simp [sectionNames, h]
          rw [hcount]
          cases n with
          | zero => simp
          | succ n => simp [ih]
      | none =>
          have hcount : sectionNames (l :: lines) = sectionNames lines := by
            simp [sectionNames, h]
          rw [hcount]
          by_cases hn : n = 0
          · subst hn
            simp only [Option.isSome_none, Bool.false_eq_true, if_false, if_true, ih,
              List.cons_append]
          · simp only [Option.isSome_none, Bool.false_eq_true, if_false, hn, ih]

/-- Behind the last section line there is no other. -/
theorem sectionBody_eq_nil {lines : List (List Byte)} :
    ∀ {n}, (sectionNames lines).length < n → sectionBody n lines = [] := by
  induction lines with
  | nil => intro n _; rfl
  | cons l lines ih =>
      intro n hn
      rw [sectionBody]
      cases h : sectionName l with
      | some name =>
          have hcount : (sectionNames (l :: lines)).length = (sectionNames lines).length + 1 := by
            simp [sectionNames, h]
          cases n with
          | zero => rfl
          | succ n => exact ih (by omega)
      | none =>
          have hcount : sectionNames (l :: lines) = sectionNames lines := by
            simp [sectionNames, h]
          rw [hcount] at hn
          simp only [Option.isSome_none, Bool.false_eq_true, if_false,
            Nat.ne_of_gt (Nat.zero_lt_of_lt hn)]
          exact ih hn

def wdTimeoutKey : List Byte := bytes "wd_timeout_s"
def rebootTimeoutKey : List Byte := bytes "reboot_timeout_s"
def timeoutKey : List Byte := bytes "timeout_ms"

/-- The default, or what `atoi` makes of the last value. -/
def inForce (dflt : Int) (vals : List (List Byte)) : Int := (vals.getLast?.map atoi).getD dflt

/-- The values of a key as the loop sees them. -/
def keyValues (key : List Byte) (lines : List (List Byte)) : List (List Byte) :=
  lines.filterMap (keyValue key)

@[simp] theorem inForce_snoc (dflt : Int) (vals : List (List Byte)) (val : List Byte) :
    inForce dflt (vals ++ [val]) = atoi val := by
  simp [inForce]

theorem keyValues_snoc (lines : List (List Byte)) :
    keyValues key (lines ++ [line]) = keyValues key lines ++ (keyValue key line).toList := by
  unfold keyValues
  rw [List.filterMap_append]
  cases h : keyValue key line <;> simp [h]

/-- A key-value line, setting by setting. -/
theorem parseKeyValue_settings (h : parseKeyValue st key val = .ok st') :
    st'.config.wdTimeoutS = (if key = wdTimeoutKey then atoi val else st.config.wdTimeoutS) ∧
    (key = wdTimeoutKey → 10 ≤ atoi val ∧ atoi val ≤ 60) ∧
    st'.config.rebootTimeoutS
      = (if key = rebootTimeoutKey then atoi val else st.config.rebootTimeoutS) ∧
    (key = rebootTimeoutKey → 10 ≤ atoi val ∧ atoi val ≤ 300) ∧
    (key = timeoutKey → 0 < st.sections ∧ TimeoutOk (toUnsigned (atoi val)) ∧
      st'.clients = st.clients.update (st.sections - 1) fun c =>
        { c with timeoutMs := toUnsigned (atoi val) }) ∧
    (key ≠ timeoutKey → st'.clients = st.clients) := by
  unfold wdTimeoutKey rebootTimeoutKey timeoutKey
  -- of each conjunct about a key, one case says it and the others exclude the key
  cases parseKeyValue_assigns h with
  | socketPath =>
      exact ⟨rfl, fun hk => absurd hk (by decide), rfl, fun hk => absurd hk (by decide),
        fun hk => absurd hk (by decide), fun _ => rfl⟩
  | wdTimeout hr =>
      exact ⟨rfl, fun _ => hr, rfl, fun hk => absurd hk (by decide),
        fun hk => absurd hk (by decide), fun _ => rfl⟩
  | rebootTimeout hr =>
      exact ⟨rfl, fun hk => absurd hk (by decide), rfl, fun _ => hr,
        fun hk => absurd hk (by decide), fun _ => rfl⟩
  | strictClients v hv =>
      exact ⟨rfl, fun hk => absurd hk (by decide), rfl, fun hk => absurd hk (by decide),
        fun hk => absurd hk (by decide), fun _ => rfl⟩
  | uniqueClients v hv =>
      exact ⟨rfl, fun hk => absurd hk (by decide), rfl, fun hk => absurd hk (by decide),
        fun hk => absurd hk (by decide), fun _ => rfl⟩
  | timeout hpos ht =>
      exact ⟨rfl, fun hk => absurd hk (by decide), rfl, fun hk => absurd hk (by decide),
        fun _ => ⟨hpos, ht, rfl⟩, fun hk => absurd rfl hk⟩

/-- An accepted client timeout is the `int` that `atoi` returned. -/
theorem atoi_of_timeoutOk (h : TimeoutOk (toUnsigned (atoi val))) :
    (toUnsigned (atoi val) : Int) = atoi val ∧ 5000 ≤ atoi val ∧ atoi val ≤ 300000 := by
  obtain ⟨hmin, hmax⟩ : 5000 ≤ toUnsigned (atoi val) ∧ toUnsigned (atoi val) ≤ 300000 := h
  have hrange : -2 ^ 31 ≤ atoi val ∧ atoi val < 2 ^ 31 := by
    unfold atoi
    split
    · decide
    · exact toInt_range _
  unfold toUnsigned at hmin hmax ⊢
  omega

/-- What the loop keeps of the values, over the lines read so far. -/
structure ValuesInv (lines : List (List Byte)) (st : Parse) : Prop where
  count : st.sections = (sectionNames lines).length
  wd : st.config.wdTimeoutS = inForce 10 (keyValues wdTimeoutKey lines)
  wdRange : ∀ val ∈ keyValues wdTimeoutKey lines, 10 ≤ atoi val ∧ atoi val ≤ 60
  reboot : st.config.rebootTimeoutS = inForce 60 (keyValues rebootTimeoutKey lines)
  rebootRange : ∀ val ∈ keyValues rebootTimeoutKey lines, 10 ≤ atoi val ∧ atoi val ≤ 300
  timeout : ∀ i < st.sections, ∀ c, st.clients.slots[i]? = some c →
    (c.timeoutMs : Int) = inForce 300000 (keyValues timeoutKey (sectionBody (i + 1) lines))
  timeoutRange : ∀ val ∈ keyValues timeoutKey lines, 5000 ≤ atoi val ∧ atoi val ≤ 300000
  outside : keyValues timeoutKey (sectionBody 0 lines) = []

/-- A line that sets a key is no section line. -/
theorem sectionName_of_keyValue (h : keyValue key line = some val) : sectionName line = none := by
  unfold sectionName
  rw [keyValue_eq_some_iff.mp h]

theorem keyValues_body_snoc (lines : List (List Byte)) (n : Nat) :
    keyValues key (sectionBody n (lines ++ [line])) = keyValues key (sectionBody n lines) ++
      if (sectionNames lines).length = n then (keyValue key line).toList else [] := by
  rw [sectionBody_snoc]
  cases h : keyValue key line with
  | none =>
      rw [Option.toList_none, ite_self, List.append_nil]
      split
      · rw [keyValues_snoc, h, Option.toList_none, List.append_nil]
      · rw [List.append_nil]
  | some val =>
      rw [sectionName_of_keyValue h]
      by_cases hn : (sectionNames lines).length = n
      · rw [if_pos ⟨hn, rfl⟩, if_pos hn, keyValues_snoc, h]
      · rw [if_neg fun hboth => hn hboth.1, if_neg hn, List.append_nil, List.append_nil]

theorem keyValues_of_none (h : keyValue key line = none) (lines : List (List Byte)) :
    keyValues key (lines ++ [line]) = keyValues key lines := by
  rw [keyValues_snoc, h]
  exact List.append_nil _

theorem keyValues_body_of_none (h : keyValue key line = none) (lines : List (List Byte)) (n : Nat) :
    keyValues key (sectionBody n (lines ++ [line])) = keyValues key (sectionBody n lines) := by
  rw [keyValues_body_snoc, h, Option.toList_none, ite_self, List.append_nil]

/-- A section line: a new slot with the default, and no value yet. -/
theorem ValuesInv.announce {lines : List (List Byte)} {t name : List Byte} (h : ValuesInv lines st)
    (hclass : classify line = .client t name) (hsec : st'.sections = st.sections + 1)
    (hcfg : st'.config = st.config) (hcl : st'.clients = st.clients.update st.sections
      (announceSlot name (raws st.sections) (clock st.sections))) :
    ValuesInv (lines ++ [line]) st' := by
  have hnone : ∀ key, keyValue key line = none := by
    intro key
    unfold keyValue
    rw [hclass]
  have hname : (sectionName line).toList.length = 1 := by
    unfold sectionName
    rw [hclass]
    rfl
  have hvals := fun key => @keyValues_of_none key line (hnone key) lines
  have hbody := @keyValues_body_of_none timeoutKey line (hnone timeoutKey) lines
  constructor
  case count => rw [sectionNames_snoc, List.length_append, hname, hsec, h.count]
  case wd => rw [hvals, hcfg]; exact h.wd
  case wdRange => rw [hvals]; exact h.wdRange
  case reboot => rw [hvals, hcfg]; exact h.reboot
  case rebootRange => rw [hvals]; exact h.rebootRange
  case timeout =>
      intro i hi c hc
      rw [hbody]
      rw [hcl] at hc
      rcases Table.update_cases hc with ⟨rfl, c₀, -, rfl⟩ | ⟨hne, hc₀⟩
      · rw [sectionBody_eq_nil (by rw [← h.count]; exact Nat.lt_succ_self _)]
        rfl
      · exact h.timeout i (by omega) c hc₀
  case timeoutRange => rw [hvals]; exact h.timeoutRange
  case outside => rw [hbody]; exact h.outside

/-- A key-value line: the value is in force where it belongs. -/
theorem ValuesInv.set {lines : List (List Byte)} (h : ValuesInv lines st)
    (hclass : classify line = .keyValue key val) (hok : parseKeyValue st key val = .ok st') :
    ValuesInv (lines ++ [line]) st' := by
  have hline : ∀ key', keyValue key' line = if key = key' then some val else none := by
    intro key'
    unfold keyValue
    rw [hclass]
  have hname : sectionName line = none := by
    unfold sectionName
    rw [hclass]
  have hsec : st'.sections = st.sections := (parseKeyValue_ok hok).1
  obtain ⟨hwd, hwdRange, hreboot, hrebootRange, htimeout, hkeep⟩ := parseKeyValue_settings hok
  have hrange : ∀ {key' : List Byte} {lo hi : Int},
      (∀ v ∈ keyValues key' lines, lo ≤ atoi v ∧ atoi v ≤ hi) →
      (key = key' → lo ≤ atoi val ∧ atoi val ≤ hi) →
      ∀ v ∈ keyValues key' (lines ++ [line]), lo ≤ atoi v ∧ atoi v ≤ hi := by
    intro key' lo hi hold hnew v hv
    rw [keyValues_snoc, hline] at hv
    rcases List.mem_append.mp hv with hv | hv
    · exact hold v hv
    · split at hv
      · next hk => exact List.mem_singleton.mp hv ▸ hnew hk
      · exact absurd hv List.not_mem_nil
  constructor
  case count =>
      rw [sectionNames_snoc, hname, hsec]
      exact h.count.trans (congrArg _ (List.append_nil _).symm)
  case wd =>
      rw [keyValues_snoc, hline, hwd]
      split
      · exact (inForce_snoc _ _ _).symm
      · rw [Option.toList_none, List.append_nil]
        exact h.wd
  case wdRange => exact hrange h.wdRange hwdRange
  case reboot =>
      rw [keyValues_snoc, hline, hreboot]
      split
      · exact (inForce_snoc _ _ _).symm
      · rw [Option.toList_none, List.append_nil]
        exact h.reboot
  case rebootRange => exact hrange h.rebootRange hrebootRange
  case timeout =>
      intro i hi c hc
      rw [hsec] at hi
      rw [keyValues_body_snoc, hline, ← h.count]
      by_cases hk : key = timeoutKey
      · obtain ⟨hpos, hin, hcl⟩ := htimeout hk
        rw [hcl] at hc
        rw [if_pos hk]
        rcases Table.update_cases hc with ⟨rfl, c₀, -, rfl⟩ | ⟨hne, hc₀⟩
        · rw [if_pos (by omega), Option.toList_some, inForce_snoc]
          exact (atoi_of_timeoutOk hin).1
        · rw [if_neg (by omega), List.append_nil]
          exact h.timeout i hi c hc₀
      · rw [if_neg hk, Option.toList_none, ite_self, List.append_nil]
        rw [hkeep hk] at hc
        exact h.timeout i hi c hc
  case timeoutRange =>
      refine hrange h.timeoutRange fun hk => ?_
      exact (atoi_of_timeoutOk (htimeout hk).2.1).2
  case outside =>
      rw [keyValues_body_snoc, h.outside, hline, ← h.count]
      split
      · next h0 =>
          split
          · next hk =>
              have hpos := (htimeout hk).1
              omega
          · rfl
      · rfl

/-- An accepted file has run through the loop, and the result is what the loop left. -/
theorem tryRun_of_parseConfig {text : List Byte} {config : Config} {t : Table}
    (h : parseConfig (some text) clock raws = .ok (config, t)) :
    ∃ st, Machine.tryRun (parseLine clock raws) Parse.init (configLines text) = .ok st ∧
      st.config = config ∧ st.clients = t := by
  unfold parseConfig at h
  dsimp only at h
  split at h
  · exact nomatch h
  · next st hrun =>
      refine ⟨st, hrun, ?_⟩
      split at h
      · exact nomatch h
      split at h
      · split at h
        · exact nomatch h
        · exact Prod.mk.inj (Except.ok.inj h)
      · exact Prod.mk.inj (Except.ok.inj h)

/-- Is the file accepted at clock reading zero, with zero ID bytes, and does the result
    satisfy `p`? -/
def parsed (text : List Byte) (p : Config → Table → Bool) : Bool :=
  match parseConfig (some text) (fun _ => Timespec.zero) (fun _ => Vector.replicate 8 0) with
  | .error _ => false
  | .ok (config, t) => p config t

theorem exists_of_parsed {text : List Byte} {p : Config → Table → Bool} (h : parsed text p = true) :
    ∃ config t, parseConfig (some text) (fun _ => Timespec.zero) (fun _ => Vector.replicate 8 0)
      = .ok (config, t) ∧ p config t = true := by
  unfold parsed at h
  split at h
  · exact Bool.noConfusion h
  · next config t hparse => exact ⟨config, t, hparse, h⟩

end WdValue
