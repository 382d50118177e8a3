import WdBroker.ConfigValueProofs

/-! # Comments

    A comment is a line for the author of a file; for `fgets` it is a line up to the
    255th byte, and what follows is the next one.  `inert_iff` says which comments can be
    inserted anywhere without changing what a file means.

    Runs of the loop are compared by `outcome`, which forgets the number of the line:
    that number goes into messages only. -/

namespace WdComment

open CString Scanf WdClock WdTable WdClientID WdConfig WdConfigLine WdValue

/-- Blanks, `#`, and any text without newline and NUL. -/
structure Comment where
  text : List Byte
  form : ∃ sp rest, text = sp ++ 35 :: rest ∧ ∀ b ∈ sp, isspace b = true
  noNewline : (10 : Byte) ∉ text
  noNul : (0 : Byte) ∉ text

/-- Inserted anywhere between the lines of any file, at its ends too, the comment changes
    nothing. -/
def Inert (c : Comment) : Prop :=
  ∀ clock raws pre post, EndsLine pre →
    (parseConfig (some (pre ++ ((c.text ++ [10]) ++ post))) clock raws).toOption
      = (parseConfig (some (pre ++ post)) clock raws).toOption

/-- The same, only with lines before and behind the comment. -/
def InertBetween (c : Comment) : Prop :=
  ∀ clock raws pre post, EndsLine pre → pre ≠ [] → post ≠ [] →
    (parseConfig (some (pre ++ ((c.text ++ [10]) ++ post))) clock raws).toOption
      = (parseConfig (some (pre ++ post)) clock raws).toOption

theorem Inert.between {c : Comment} (h : Inert c) : InertBetween c :=
  fun clock raws pre post hpre _ _ => h clock raws pre post hpre

/-- The pieces that `fgets` makes of the line. -/
def pieces (c : Comment) : List (List Byte) := configLines (c.text ++ [10])

-- ── without the number of the line ────────────────────────────────────────────

/-- The same variables but for the number of the line. -/
def setLine (n : Nat) (st : Parse) : Parse := { st with lineNum := n }

theorem parseKeyValue_setLine (n : Nat) (st : Parse) (key val : List Byte) :
    (parseKeyValue (setLine n st) key val).toOption
      = (parseKeyValue st key val).toOption.map (setLine n) := by
  unfold parseKeyValue
  -- no test of the chain asks for the number of the line
  have hs : (setLine n st).sections = st.sections := rfl
  rw [hs]
  split_ifs
  all_goals (try cases parseBool val) <;> rfl

section Run

variable (clock : Nat → Timespec) (raws : Nat → Raw)

theorem parseSection_setLine (n : Nat) (st : Parse) (t name : List Byte) :
    (parseSection clock raws (setLine n st) t name).toOption
      = (parseSection clock raws st t name).toOption.map (setLine n) := by
  unfold parseSection
  have hs : (setLine n st).sections = st.sections := rfl
  rw [hs]
  split_ifs <;> rfl

theorem parseLine_setLine (n : Nat) (st : Parse) (line : List Byte) :
    (parseLine clock raws (setLine n st) line).toOption.map (setLine 0)
      = (parseLine clock raws st line).toOption.map (setLine 0) := by
  unfold parseLine
  dsimp only
  cases classify line with
  | skip => rfl
  | keyValue key val =>
      have h := parseKeyValue_setLine (n + 1) { st with lineNum := st.lineNum + 1 } key val
      dsimp only
      rw [show ({ setLine n st with lineNum := (setLine n st).lineNum + 1 } : Parse)
        = setLine (n + 1) { st with lineNum := st.lineNum + 1 } from rfl, h, Option.map_map]
      rfl
  | client t name =>
      have h := parseSection_setLine clock raws (n + 1) { st with lineNum := st.lineNum + 1 } t name
      dsimp only
      rw [show ({ setLine n st with lineNum := (setLine n st).lineNum + 1 } : Parse)
        = setLine (n + 1) { st with lineNum := st.lineNum + 1 } from rfl, h, Option.map_map]
      rfl
  | other t => rfl

/-- What the loop makes of some lines, without the number of the line. -/
def outcome (st : Parse) (lines : List (List Byte)) : Option Parse :=
  (Machine.tryRun (parseLine clock raws) st lines).toOption.map (setLine 0)

theorem outcome_cons (st : Parse) (line : List Byte) (lines : List (List Byte)) :
    outcome clock raws st (line :: lines)
      = (parseLine clock raws st line).toOption.bind fun s => outcome clock raws s lines := by
  unfold outcome
  rw [Machine.tryRun]
  cases parseLine clock raws st line <;> rfl

theorem outcome_setLine (n : Nat) (lines : List (List Byte)) :
    ∀ st, outcome clock raws (setLine n st) lines = outcome clock raws st lines := by
  induction lines generalizing n with
  | nil => intro st; rfl
  | cons line lines ih =>
      intro st
      have hforget : ∀ x : Option Parse, (x.bind fun s => outcome clock raws s lines)
          = (x.map (setLine 0)).bind fun s => outcome clock raws s lines := by
        intro x
        cases x with
        | none => rfl
        | some s => exact (ih 0 s).symm
      rw [outcome_cons, outcome_cons, hforget, hforget (parseLine clock raws st line).toOption,
        parseLine_setLine]

theorem outcome_append (lines lines' : List (List Byte)) :
    ∀ st, outcome clock raws st (lines ++ lines')
      = (outcome clock raws st lines).bind fun s => outcome clock raws s lines' := by
  induction lines with
  | nil => intro st; exact (outcome_setLine clock raws 0 lines' st).symm
  | cons line lines ih =>
      intro st
      rw [List.cons_append, outcome_cons, outcome_cons]
      cases parseLine clock raws st line with
      | error e => rfl
      | ok s => exact ih s

/-- Lines that are skipped change nothing. -/
theorem outcome_skipped {lines : List (List Byte)} (h : ∀ line ∈ lines, Skipped (trimmed line)) :
    ∀ st, outcome clock raws st lines = some (setLine 0 st) := by
  induction lines with
  | nil => intro st; rfl
  | cons line lines ih =>
      intro st
      have hclass := classify_skip_iff.mpr (h line List.mem_cons_self)
      have hstep : parseLine clock raws st line = .ok (setLine (st.lineNum + 1) st) := by
        unfold parseLine
        dsimp only
        rw [hclass]
        rfl
      rw [outcome_cons, hstep]
      exact ih (fun l hl => h l (List.mem_cons_of_mem line hl)) _

/-- The checks behind the loop. -/
def finish (st : Parse) : Option (Config × Table) :=
  if st.config.strictClients = true ∧ st.sections = 0 then none
  else if st.config.uniqueClients = true ∧ (duplicateName st.clients.slots).isSome = true then none
  else some (st.config, st.clients)

theorem parseConfig_toOption (text : List Byte) :
    (parseConfig (some text) clock raws).toOption
      = (outcome clock raws Parse.init (configLines text)).bind finish := by
  unfold parseConfig outcome
  dsimp only
  cases Machine.tryRun (parseLine clock raws) Parse.init (configLines text) with
  | error e => rfl
  | ok st =>
      show _ = finish st
      unfold finish
      dsimp only
      split
      · rfl
      by_cases hu : st.config.uniqueClients = true
      · rw [if_pos hu]
        cases duplicateName st.clients.slots with
        | none =>
            rw [if_neg fun h => Bool.false_ne_true h.2]
            rfl
        | some name =>
            rw [if_pos ⟨hu, rfl⟩]
            rfl
      · rw [if_neg hu, if_neg fun h => hu h.1]
        rfl

end Run

/-- A comment whose pieces are all skipped is inert. -/
theorem inert_of_skipped {c : Comment} (h : ∀ piece ∈ pieces c, Skipped (trimmed piece)) :
    Inert c := by
  intro clock raws pre post hpre
  have hlines : ∀ text, configLines (pre ++ text) = configLines pre ++ configLines text :=
    fun text => fgetsLines_append hpre text
  have hcomment : configLines ((c.text ++ [10]) ++ post) = pieces c ++ configLines post :=
    fgetsLines_append (Or.inr ⟨c.text, rfl⟩) post
  rw [parseConfig_toOption, parseConfig_toOption, hlines, hlines, hcomment, outcome_append,
    outcome_append]
  congr 1
  refine congrArg _ (funext fun st => ?_)
  rw [outcome_append, outcome_skipped clock raws h]
  exact outcome_setLine clock raws 0 (configLines post) st

/-- A comment that fits the buffer is. -/
theorem inert_of_short {c : Comment} (h : c.text.length ≤ 254) : Inert c := by
  refine inert_of_skipped fun piece hpiece => Or.inr ?_
  obtain ⟨sp, rest, htext, hsp⟩ := c.form
  have hone : pieces c = [c.text ++ [10]] :=
    fgetsLines_line c.noNewline (Or.inr rfl) (List.append_ne_nil_of_right_ne_nil _ nofun) (by omega)
  obtain rfl := List.mem_singleton.mp (hone ▸ hpiece)
  obtain ⟨t, ht⟩ := @trim_cons 35 rest rfl
  rw [trimmed_eol (Or.inr rfl), trimmed_of_no_nul c.noNul, htext, trim_blank_append hsp, ht]
  rfl

-- ── a piece that is not skipped shows in some file ────────────────────────────

/-- The setting of the key is what the value says. -/
structure InForce (key val : List Byte) (config : Config) : Prop where
  socket : key = bytes "socket_path" → config.socketPath = CStr.strncpy 108 val
  wd : key = wdTimeoutKey → config.wdTimeoutS = atoi val
  reboot : key = rebootTimeoutKey → config.rebootTimeoutS = atoi val
  strict : key = bytes "strict_clients" → some config.strictClients = parseBool val
  unique : key = bytes "unique_clients" → some config.uniqueClients = parseBool val

/-- The keys that may stand in front of the first section. -/
def globalKeys : List (List Byte) :=
  [bytes "socket_path", wdTimeoutKey, rebootTimeoutKey, bytes "strict_clients",
    bytes "unique_clients"]

variable {st st' : Parse} {key val : List Byte}

theorem parseKeyValue_inForce (h : parseKeyValue st key val = .ok st') :
    InForce key val st'.config := by
  cases parseKeyValue_assigns h with
  | socketPath =>
      exact ⟨fun _ => rfl, fun hk => absurd hk (by decide), fun hk => absurd hk (by decide),
        fun hk => absurd hk (by decide), fun hk => absurd hk (by decide)⟩
  | wdTimeout hr =>
      exact ⟨fun hk => absurd hk (by decide), fun _ => rfl, fun hk => absurd hk (by decide),
        fun hk => absurd hk (by decide), fun hk => absurd hk (by decide)⟩
  | rebootTimeout hr =>
      exact ⟨fun hk => absurd hk (by decide), fun hk => absurd hk (by decide), fun _ => rfl,
        fun hk => absurd hk (by decide), fun hk => absurd hk (by decide)⟩
  | strictClients v hv =>
      exact ⟨fun hk => absurd hk (by decide), fun hk => absurd hk (by decide),
        fun hk => absurd hk (by decide), fun _ => hv.symm, fun hk => absurd hk (by decide)⟩
  | uniqueClients v hv =>
      exact ⟨fun hk => absurd hk (by decide), fun hk => absurd hk (by decide),
        fun hk => absurd hk (by decide), fun hk => absurd hk (by decide), fun _ => hv.symm⟩
  | timeout hpos ht =>
      exact ⟨fun hk => absurd hk (by decide), fun hk => absurd hk (by decide),
        fun hk => absurd hk (by decide), fun hk => absurd hk (by decide),
        fun hk => absurd hk (by decide)⟩

theorem mem_globalKeys (h : parseKeyValue st key val = .ok st') (hs : st.sections = 0) :
    key ∈ globalKeys := by
  cases parseKeyValue_assigns h with
  | socketPath => decide
  | wdTimeout hr => decide
  | rebootTimeout hr => decide
  | strictClients v hv => decide
  | uniqueClients v hv => decide
  | timeout hpos ht => exact absurd hs (Nat.ne_of_gt hpos)

/-- A file that gives a setting another value than the default. -/
theorem exists_other {X : Type} [DecidableEq X] {setting : Config → X} {text : List Byte}
    (hfile : parsed (text ++ [10] ++ [10])
      (fun config _ => decide (setting config ≠ setting Parse.init.config)) = true)
    (hsame : ∀ config, InForce key val config → setting config = setting Parse.init.config) :
    ∃ body clock raws config t,
      parseConfig (some (body ++ [10] ++ [10])) clock raws = .ok (config, t) ∧
        ¬ InForce key val config := by
  obtain ⟨config, t, hparse, hne⟩ := exists_of_parsed hfile
  exact ⟨text, _, _, config, t, hparse,
    fun hforce => absurd (hsame config hforce) (of_decide_eq_true hne)⟩

/-- A value that happens to be the default is not in force in every file. -/
theorem not_in_every_file (hkey : key ∈ globalKeys) (hinit : InForce key val Parse.init.config) :
    ∃ body clock raws config t,
      parseConfig (some (body ++ [10] ++ [10])) clock raws = .ok (config, t) ∧
        ¬ InForce key val config := by
  unfold globalKeys at hkey
  simp only [List.mem_cons, List.not_mem_nil, or_false] at hkey
  rcases hkey with rfl | rfl | rfl | rfl | rfl
  · refine @exists_other _ _ _ _ Config.socketPath (bytes "socket_path=x") (by decide +kernel)
      fun config hforce => ?_
    rw [hforce.socket rfl, hinit.socket rfl]
  · refine @exists_other _ _ _ _ Config.wdTimeoutS (bytes "wd_timeout_s=20") (by decide +kernel)
      fun config hforce => ?_
    rw [hforce.wd rfl, hinit.wd rfl]
  · refine @exists_other _ _ _ _ Config.rebootTimeoutS (bytes "reboot_timeout_s=20")
      (by decide +kernel) fun config hforce => ?_
    rw [hforce.reboot rfl, hinit.reboot rfl]
  · refine @exists_other _ _ _ _ Config.strictClients (bytes "strict_clients=true\n[client a]")
      (by decide +kernel) fun config hforce => ?_
    exact Option.some.inj ((hforce.strict rfl).trans (hinit.strict rfl).symm)
  · refine @exists_other _ _ _ _ Config.uniqueClients (bytes "unique_clients=true")
      (by decide +kernel) fun config hforce => ?_
    exact Option.some.inj ((hforce.unique rfl).trans (hinit.unique rfl).symm)

variable {clock : Nat → Timespec} {raws : Nat → Raw}

/-- With an inert comment in front of its last line, a blank one, an accepted file is read
    to the same result. -/
theorem InertBetween.run {c : Comment} (h : InertBetween c) {body : List Byte} {config : Config}
    {t : Table} (hparse : parseConfig (some (body ++ [10] ++ [10])) clock raws = .ok (config, t)) :
    ∃ st, Machine.tryRun (parseLine clock raws) Parse.init
        (configLines (body ++ [10]) ++ (pieces c ++ [[10]])) = .ok st ∧
      st.config = config ∧ st.clients = t := by
  have hpre : EndsLine (body ++ [10]) := Or.inr ⟨body, rfl⟩
  have hsame := h clock raws (body ++ [10]) [10] hpre (by simp) (by simp)
  rw [hparse] at hsame
  have hcomment : parseConfig (some (body ++ [10] ++ ((c.text ++ [10]) ++ [10]))) clock raws
      = .ok (config, t) := by
    cases hc : parseConfig (some (body ++ [10] ++ ((c.text ++ [10]) ++ [10]))) clock raws with
    | error e => rw [hc] at hsame; exact nomatch hsame
    | ok r => rw [hc] at hsame; exact congrArg _ (Option.some.inj hsame)
  obtain ⟨st, hrun, hst⟩ := tryRun_of_parseConfig hcomment
  have hlines : configLines (body ++ [10] ++ ((c.text ++ [10]) ++ [10]))
      = configLines (body ++ [10]) ++ (pieces c ++ [[10]]) := by
    have hlast : configLines ((c.text ++ [10]) ++ [10]) = pieces c ++ configLines [10] :=
      fgetsLines_append (Or.inr ⟨c.text, rfl⟩) [10]
    rw [show configLines [10] = [[10]] from rfl] at hlast
    rw [← hlast]
    exact fgetsLines_append hpre _
  rw [hlines] at hrun
  exact ⟨st, hrun, hst⟩

/-- The last line that is not skipped leaves what the run leaves. -/
theorem last_line {a b : List (List Byte)} {q : List Byte}
    (hrun : Machine.tryRun (parseLine clock raws) Parse.init (a ++ q :: b) = .ok st)
    (hb : ∀ line ∈ b, Skipped (trimmed line)) :
    ∃ s s', parseLine clock raws s q = .ok s' ∧ s'.config = st.config ∧
      s'.sections = st.sections := by
  obtain ⟨s, -, hq⟩ := Machine.tryRun_append_ok.mp hrun
  rw [← List.singleton_append] at hq
  obtain ⟨s', hstep, hrest⟩ := Machine.tryRun_append_ok.mp hq
  rw [Machine.tryRun_singleton] at hstep
  have hout := outcome_skipped clock raws hb s'
  unfold outcome at hout
  rw [hrest] at hout
  have hsame : setLine 0 st = setLine 0 s' := Option.some.inj hout
  obtain ⟨hcfg, -, hsec, -⟩ := Parse.mk.inj hsame
  exact ⟨s, s', hstep, hcfg.symm, hsec.symm⟩

theorem exists_last_not {α : Type} {p : α → Prop} {l : List α} (h : ¬ ∀ x ∈ l, p x) :
    ∃ a x b, l = a ++ x :: b ∧ ¬ p x ∧ ∀ y ∈ b, p y := by
  induction l with
  | nil => exact absurd (List.forall_mem_nil p) h
  | cons x l ih =>
      by_cases hl : ∀ y ∈ l, p y
      · exact ⟨[], x, l, rfl, fun hx => h (List.forall_mem_cons.mpr ⟨hx, hl⟩), hl⟩
      · obtain ⟨a, y, b, rfl, hy, hb⟩ := ih hl
        exact ⟨x :: a, y, b, rfl, hy, hb⟩

theorem sections_eq_zero {lines : List (List Byte)}
    (hrun : Machine.tryRun (parseLine clock raws) Parse.init lines = .ok st)
    (hzero : st.clients = Table.zero) : st.sections = 0 := by
  have hinv := parse_inv hrun
  rw [hinv.count, List.length_eq_zero_iff]
  cases hnames : sectionNames lines with
  | nil => rfl
  | cons name names =>
      obtain ⟨c, hc, hann⟩ := hinv.announced 0 name (by rw [hnames]; rfl)
      rw [hzero] at hc
      obtain rfl := Option.some.inj hc
      exact nomatch hann.anounced

/-- A piece that is not skipped shows in some file. -/
theorem skipped_of_inertBetween {c : Comment} (h : InertBetween c) :
    ∀ piece ∈ pieces c, Skipped (trimmed piece) := by
  by_contra hno
  obtain ⟨a, q, b, hpieces, hq, hb⟩ := exists_last_not hno
  have hb' : ∀ line ∈ b ++ [[10]], Skipped (trimmed line) :=
    List.forall_mem_append.mpr ⟨hb, List.forall_mem_singleton.mpr (Or.inl rfl)⟩
  have hread : ∀ pre : List (List Byte), pre ++ (pieces c ++ [[10]])
      = (pre ++ a) ++ q :: (b ++ [[10]]) := by
    intro pre
    rw [hpieces]
    simp only [List.append_assoc, List.cons_append]
  -- between two blank lines, the comment must leave the defaults
  have hempty : parseConfig (some ([] ++ [10] ++ [10])) (fun _ => Timespec.zero)
      (fun _ => Vector.replicate 8 0) = .ok (Parse.init.config, Table.zero) := rfl
  obtain ⟨st, hrun, hcfg, hcl⟩ := h.run hempty
  have hsections := sections_eq_zero hrun hcl
  rw [hread] at hrun
  obtain ⟨s, s', hstep, hsame, hsec'⟩ := last_line hrun hb'
  have hs' : s'.sections = 0 := hsec'.trans hsections
  rcases parseLine_ok hstep with ⟨hclass, -⟩ | ⟨key, val, hclass, hkv⟩ | ⟨t, name, -, hsec⟩
  · exact hq (classify_skip_iff.mp hclass)
  · have hkey : key ∈ globalKeys := mem_globalKeys hkv ((parseKeyValue_ok hkv).1.symm.trans hs')
    have hinit : InForce key val Parse.init.config := by
      have hforce := parseKeyValue_inForce hkv
      rwa [hsame, hcfg] at hforce
    -- behind a file with another value of the setting, it must leave that value
    obtain ⟨body, clock, raws, config, t, hparse, hnot⟩ := not_in_every_file hkey hinit
    obtain ⟨st₂, hrun₂, rfl, -⟩ := h.run hparse
    rw [hread] at hrun₂
    obtain ⟨s₂, s₂', hstep₂, hsame₂, -⟩ := last_line hrun₂ hb'
    refine hnot (hsame₂ ▸ ?_)
    rcases parseLine_ok hstep₂ with
      ⟨hclass₂, -⟩ | ⟨key₂, val₂, hclass₂, hkv₂⟩ | ⟨t, name, hclass₂, -⟩
    · exact nomatch hclass.symm.trans hclass₂
    · obtain ⟨rfl, rfl⟩ := Line.keyValue.inj (hclass.symm.trans hclass₂)
      exact parseKeyValue_inForce hkv₂
    · exact nomatch hclass.symm.trans hclass₂
  · obtain ⟨-, -, hcount, -⟩ := parseSection_ok hsec
    exact Nat.succ_ne_zero _ (hcount.symm.trans hs')

/-- **COMMENTS**: a comment can be inserted between any two lines of any file, and also at
    its ends, without changing the outcome exactly if every piece that `fgets` makes of it
    is blank or begins with `#` once its blanks are stripped. -/
theorem inert_iff (c : Comment) :
    (InertBetween c ↔ ∀ piece ∈ pieces c, Skipped (trimmed piece)) ∧
      (Inert c ↔ ∀ piece ∈ pieces c, Skipped (trimmed piece)) :=
  ⟨⟨skipped_of_inertBetween, fun h => (inert_of_skipped h).between⟩,
    ⟨fun h => skipped_of_inertBetween h.between, inert_of_skipped⟩⟩

/-- A comment of 270 bytes: 255 for the first piece, and a setting behind them. -/
def longComment : Comment where
  text := 35 :: List.replicate 254 97 ++ bytes "wd_timeout_s=20"
  form := ⟨[], _, rfl, List.forall_mem_nil _⟩
  noNewline := by decide +kernel
  noNul := by decide +kernel

/-- **A COMMENT THAT SETS A TIMEOUT**: inserted in front of the only section. -/
theorem comment_sets_timeout :
    (∃ config t config' t',
      parseConfig (some (bytes "wd_timeout_s=10\n" ++ bytes "[client a]\n"))
        (fun _ => Timespec.zero) (fun _ => Vector.replicate 8 0) = .ok (config, t) ∧
      parseConfig (some (bytes "wd_timeout_s=10\n" ++ ((longComment.text ++ [10])
        ++ bytes "[client a]\n"))) (fun _ => Timespec.zero) (fun _ => Vector.replicate 8 0)
          = .ok (config', t') ∧
      config.wdTimeoutS = 10 ∧ config'.wdTimeoutS = 20) ∧ ¬ InertBetween longComment := by
  obtain ⟨config, t, hparse, hten⟩ := @exists_of_parsed
    (bytes "wd_timeout_s=10\n" ++ bytes "[client a]\n")
    (fun config _ => decide (config.wdTimeoutS = 10)) (by decide +kernel)
  obtain ⟨config', t', hparse', htwenty⟩ := @exists_of_parsed
    (bytes "wd_timeout_s=10\n" ++ ((longComment.text ++ [10]) ++ bytes "[client a]\n"))
    (fun config _ => decide (config.wdTimeoutS = 20)) (by decide +kernel)
  have hten := of_decide_eq_true hten
  have htwenty := of_decide_eq_true htwenty
  refine ⟨⟨config, t, config', t', hparse, hparse', hten, htwenty⟩, fun h => ?_⟩
  have hsame := h (fun _ => Timespec.zero) (fun _ => Vector.replicate 8 0)
    (bytes "wd_timeout_s=10\n") (bytes "[client a]\n") (Or.inr ⟨bytes "wd_timeout_s=10", rfl⟩)
    (by decide) (by decide)
  rw [hparse, hparse'] at hsame
  obtain ⟨rfl, -⟩ := Prod.mk.inj (Option.some.inj hsame)
  exact absurd (hten.symm.trans htwenty) (by decide)

end WdComment
