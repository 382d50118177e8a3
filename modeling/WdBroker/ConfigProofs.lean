import WdBroker.MachineProofs
import WdBroker.ClientIDProofs

/-! # Reading the configuration file: `parse_config`

    The file is read with `fgets` through a buffer of 256 bytes, each line is
    trimmed, and then tried as a `key = value` pair and as a `[client <name>]`
    section, in that order.  Every irregularity ends the process, so a parse is
    a run whose steps may fail.

    `parse_inv` is what the loop keeps: the timeouts in force are in range, the
    sections seen so far occupy the first slots in file order, and all other
    slots are as `memset` left them.  `parseConfig_ok` reads it off at the end,
    with the two checks that follow the loop. -/

namespace WdConfig

open CString Scanf WdClock WdTable WdClientID

def wdHwTimeoutDefaultS : Int := 10
def wdHwTimeoutMinS : Int := wdHwTimeoutDefaultS
def wdHwTimeoutMaxS : Int := 60
def wdRebootTimeoutDefaultS : Int := 60
def wdRebootTimeoutMinS : Int := 10
def wdRebootTimeoutMaxS : Int := 300
def socketPathDefault : List Byte := bytes "/run/wd-broker.sock"

/-- The reasons for which `parse_config` ends the process. -/
inductive ConfigError where
  | cannotOpen
  | watchdogTimeout (line : Nat)
  | rebootTimeout (line : Nat)
  | strictClients (line : Nat)
  | uniqueClients (line : Nat)
  | unexpectedTimeout (line : Nat)
  | clientTimeout (line : Nat)
  | unknownKey (key : List Byte) (line : Nat)
  | tooManyClients
  | clientName (line : Nat)
  | invalidLine (line : Nat) (text : List Byte)
  | noClientSection
  | duplicateName (name : List Byte)
deriving DecidableEq

/-- The message that `fatal_error` prints, for the file `filename`. -/
def ConfigError.message (filename : List Byte) : ConfigError → List Byte
  | .cannotOpen => bytes "Failed to open " ++ filename
  | .watchdogTimeout n =>
      bytes "Invalid watchdog timeout set in line " ++ decimal n ++ bytes ". Must be between " ++
        decimalInt wdHwTimeoutMinS ++ bytes " and " ++ decimalInt wdHwTimeoutMaxS ++
        bytes " seconds."
  | .rebootTimeout n =>
      bytes "Invalid reboot timeout set in line " ++ decimal n ++ bytes ". Must be between " ++
        decimalInt wdRebootTimeoutMinS ++ bytes " and " ++ decimalInt wdRebootTimeoutMaxS ++
        bytes " seconds."
  | .strictClients n => bytes "Invalid value for strict_clients in line " ++ decimal n
  | .uniqueClients n => bytes "Invalid value for unique_clients in line " ++ decimal n
  | .unexpectedTimeout n =>
      bytes "Unexpected client timeout set in line " ++ decimal n ++
        bytes " (must be set in a client section)"
  | .clientTimeout n =>
      bytes "Invalid client timeout in line " ++ decimal n ++ bytes ", must be between " ++
        decimal wdClientTimeoutMinMs ++ bytes " and " ++ decimal wdClientTimeoutMaxMs ++
        bytes " ms"
  | .unknownKey key n =>
      bytes "Unknown config key '" ++ key ++ bytes "' in line " ++ decimal n
  | .tooManyClients => bytes "Too many clients defined in " ++ filename
  | .clientName n => bytes "Invalid client name used in line " ++ decimal n
  | .invalidLine n text =>
      bytes "Invalid config in line: " ++ decimal n ++ bytes ": " ++ text ++ bytes "\n"
  | .noClientSection => bytes "No client section found in " ++ filename
  | .duplicateName name =>
      bytes "Duplicate client name '" ++ name ++ bytes "' in config file"

-- ── classifying a line ────────────────────────────────────────────────────────

/-- `"%63[^=]=%127[^\n]"`. -/
def keyValueFormat : List Directive :=
  [.set 63 fun b => b != 61, .lit 61, .set 127 fun b => b != 10]

/-- `"[client %63[^]]"`. -/
def sectionFormat : List Directive :=
  lits "[client" ++ [.space, .set 63 fun b => b != 93]

/-- What the tests of the loop body make of a line. -/
inductive Line where
  | skip
  | keyValue (key val : List Byte)
  | client (trimmed name : List Byte)
  | other (trimmed : List Byte)
deriving DecidableEq

/-- Trim the line, skip blank lines and comments, then try the two formats. -/
def classify (line : List Byte) : Line :=
  let trimmed := trim (cstr line)
  if trimmed = [] ∨ trimmed.head? = some 35 then .skip
  else
    match sscanf keyValueFormat trimmed with
    | [.str key, .str val] => .keyValue (trim key) (trim val)
    | _ =>
        match sscanf sectionFormat trimmed with
        | [.str name] => .client trimmed name
        | _ => .other trimmed

-- ── the loop ──────────────────────────────────────────────────────────────────

/-- The variables of the loop.  `sections` is `client_idx + 1`. -/
structure Parse where
  config : Config
  clients : Table
  sections : Nat
  lineNum : Nat

/-- Everything zeroed, and the defaults. -/
def Parse.init : Parse where
  config :=
    { socketPath := CStr.strncpy 108 socketPathDefault
      wdTimeoutS := wdHwTimeoutDefaultS
      rebootTimeoutS := wdRebootTimeoutDefaultS
      strictClients := false
      uniqueClients := false }
  clients := Table.zero
  sections := 0
  lineNum := 0

/-- `true`, `false`, or neither. -/
def parseBool (val : List Byte) : Option Bool :=
  if val = bytes "true" then some true
  else if val = bytes "false" then some false
  else none

/-- Conversion of an `int` to `unsigned int`. -/
def toUnsigned (z : Int) : Nat := (z % 2 ^ 32).toNat

/-- The chain of `strcmp` tests on the key. -/
def parseKeyValue (st : Parse) (key val : List Byte) : Except ConfigError Parse :=
  if key = bytes "socket_path" then
    .ok { st with config := { st.config with socketPath := CStr.strncpy 108 val } }
  else if key = bytes "wd_timeout_s" then
    if atoi val < wdHwTimeoutMinS ∨ atoi val > wdHwTimeoutMaxS then
      .error (.watchdogTimeout st.lineNum)
    else .ok { st with config := { st.config with wdTimeoutS := atoi val } }
  else if key = bytes "reboot_timeout_s" then
    if atoi val < wdRebootTimeoutMinS ∨ atoi val > wdRebootTimeoutMaxS then
      .error (.rebootTimeout st.lineNum)
    else .ok { st with config := { st.config with rebootTimeoutS := atoi val } }
  else if key = bytes "strict_clients" then
    match parseBool val with
    | some v => .ok { st with config := { st.config with strictClients := v } }
    | none => .error (.strictClients st.lineNum)
  else if key = bytes "unique_clients" then
    match parseBool val with
    | some v => .ok { st with config := { st.config with uniqueClients := v } }
    | none => .error (.uniqueClients st.lineNum)
  else if key = bytes "timeout_ms" then
    if st.sections = 0 then .error (.unexpectedTimeout st.lineNum)
    else if toUnsigned (atoi val) < wdClientTimeoutMinMs ∨
        toUnsigned (atoi val) > wdClientTimeoutMaxMs then .error (.clientTimeout st.lineNum)
    else
      .ok { st with
        clients := st.clients.update (st.sections - 1) fun c =>
          { c with timeoutMs := toUnsigned (atoi val) } }
  else .error (.unknownKey key st.lineNum)

/-- The assignments to the slot of a client section. -/
def announceSlot (name : List Byte) (raw : Raw) (now : Timespec) (c : Client) : Client :=
  { c with
    name := CStr.strncpy wdClientNameLen name
    clientID := makeClientID raw
    timeoutMs := 5 * 60 * 1000
    anounced := true
    active := false
    lastPing := now }

section Loop

/- The reading that `get_now` and the bytes that `make_clientID` obtain for the
   `i`-th client section. -/
variable (clock : Nat → Timespec) (raws : Nat → Raw)

/-- The client-section branch; `strlen("[client ]")` is 9. -/
def parseSection (st : Parse) (trimmed name : List Byte) : Except ConfigError Parse :=
  if st.sections ≥ wdMaxClients then .error .tooManyClients
  else if trimmed.length - name.length > 9 then .error (.clientName st.lineNum)
  else
    .ok { st with
      clients := st.clients.update st.sections
        (announceSlot name (raws st.sections) (clock st.sections))
      sections := st.sections + 1 }

/-- One turn of the loop. -/
def parseLine (st : Parse) (line : List Byte) : Except ConfigError Parse :=
  let st := { st with lineNum := st.lineNum + 1 }
  match classify line with
  | .skip => .ok st
  | .keyValue key val => parseKeyValue st key val
  | .client trimmed name => parseSection clock raws st trimmed name
  | .other trimmed => .error (.invalidLine st.lineNum trimmed)

end Loop

/-- The double loop over the announced clients: the first name that occurs
    again. -/
def duplicateName : List Client → Option (CStr wdClientNameLen)
  | [] => none
  | c :: cs =>
      if c.anounced && cs.any fun d => d.anounced && c.name == d.name then some c.name
      else duplicateName cs

/-- The lines of a configuration file as the loop sees them. -/
def configLines (text : List Byte) : List (List Byte) := fgetsLines 256 [] text

/-- `parse_config`; `file = none` when the file cannot be opened. -/
def parseConfig (file : Option (List Byte)) (clock : Nat → Timespec) (raws : Nat → Raw) :
    Except ConfigError (Config × Table) :=
  match file with
  | none => .error .cannotOpen
  | some text =>
      match Machine.tryRun (parseLine clock raws) Parse.init (configLines text) with
      | .error e => .error e
      | .ok st =>
          if st.config.strictClients ∧ st.sections = 0 then .error .noClientSection
          else if st.config.uniqueClients then
            match duplicateName st.clients.slots with
            | some name => .error (.duplicateName name.chars)
            | none => .ok (st.config, st.clients)
          else .ok (st.config, st.clients)

-- ── what the loop keeps ───────────────────────────────────────────────────────

/-- The two timeouts of the configuration are in their documented ranges. -/
def InRange (config : Config) : Prop :=
  (wdHwTimeoutMinS ≤ config.wdTimeoutS ∧ config.wdTimeoutS ≤ wdHwTimeoutMaxS) ∧
    (wdRebootTimeoutMinS ≤ config.rebootTimeoutS ∧ config.rebootTimeoutS ≤ wdRebootTimeoutMaxS)

/-- A client timeout in its documented range. -/
def TimeoutOk (t : Nat) : Prop := wdClientTimeoutMinMs ≤ t ∧ t ≤ wdClientTimeoutMaxMs

/-- The default of a client section is in range. -/
theorem defaultTimeout_ok : TimeoutOk (5 * 60 * 1000) := by
  unfold TimeoutOk
  decide

/-- The client name that a section line announces. -/
def sectionName (line : List Byte) : Option (CStr wdClientNameLen) :=
  match classify line with
  | .client _ name => some (CStr.strncpy wdClientNameLen name)
  | _ => none

/-- The section names of a list of lines, in order. -/
def sectionNames (lines : List (List Byte)) : List (CStr wdClientNameLen) :=
  lines.filterMap sectionName

/-- The slot of an announced client that has not registered. -/
structure Announced (name : CStr wdClientNameLen) (raw : Raw) (now : Timespec)
    (c : Client) : Prop where
  name_eq : c.name = name
  clientID_eq : c.clientID = makeClientID raw
  lastPing_eq : c.lastPing = now
  anounced : c.anounced = true
  inactive : c.active = false
  timeout : TimeoutOk c.timeoutMs
  pid_zero : c.pid = 0
  unchecked : c.checkPID = false

/-- The invariant of the loop, over the lines read so far. -/
structure ParseInv (clock : Nat → Timespec) (raws : Nat → Raw) (lines : List (List Byte))
    (st : Parse) : Prop where
  range : InRange st.config
  count : st.sections = (sectionNames lines).length
  fits : st.sections ≤ wdMaxClients
  announced : ∀ (i : Nat) name, (sectionNames lines)[i]? = some name →
    ∃ c, st.clients.slots[i]? = some c ∧ Announced name (raws i) (clock i) c
  rest : ∀ i : Nat, st.sections ≤ i → i < wdMaxClients →
    st.clients.slots[i]? = some Client.zero

variable {clock : Nat → Timespec} {raws : Nat → Raw} {st st' : Parse}

/-- What a key-value line can set. -/
inductive Assigns (st : Parse) (val : List Byte) : List Byte → Parse → Prop
  | socketPath :
      Assigns st val (bytes "socket_path")
        { st with config := { st.config with socketPath := CStr.strncpy 108 val } }
  | wdTimeout (h : wdHwTimeoutMinS ≤ atoi val ∧ atoi val ≤ wdHwTimeoutMaxS) :
      Assigns st val (bytes "wd_timeout_s")
        { st with config := { st.config with wdTimeoutS := atoi val } }
  | rebootTimeout (h : wdRebootTimeoutMinS ≤ atoi val ∧ atoi val ≤ wdRebootTimeoutMaxS) :
      Assigns st val (bytes "reboot_timeout_s")
        { st with config := { st.config with rebootTimeoutS := atoi val } }
  | strictClients (v : Bool) (h : parseBool val = some v) :
      Assigns st val (bytes "strict_clients")
        { st with config := { st.config with strictClients := v } }
  | uniqueClients (v : Bool) (h : parseBool val = some v) :
      Assigns st val (bytes "unique_clients")
        { st with config := { st.config with uniqueClients := v } }
  | timeout (hpos : 0 < st.sections) (h : TimeoutOk (toUnsigned (atoi val))) :
      Assigns st val (bytes "timeout_ms")
        { st with
          clients := st.clients.update (st.sections - 1) fun c =>
            { c with timeoutMs := toUnsigned (atoi val) } }

theorem parseKeyValue_assigns {key val : List Byte} (h : parseKeyValue st key val = .ok st') :
    Assigns st val key st' := by
  unfold parseKeyValue at h
  split at h
  · next hkey =>
      obtain rfl := Except.ok.inj h
      exact hkey ▸ .socketPath
  split at h
  · next hkey =>
      split at h
      · cases h
      · next hr =>
          obtain rfl := Except.ok.inj h
          rw [not_or, not_lt, gt_iff_lt, not_lt] at hr
          exact hkey ▸ .wdTimeout hr
  split at h
  · next hkey =>
      split at h
      · cases h
      · next hr =>
          obtain rfl := Except.ok.inj h
          rw [not_or, not_lt, gt_iff_lt, not_lt] at hr
          exact hkey ▸ .rebootTimeout hr
  split at h
  · next hkey =>
      split at h
      · next v hv =>
          obtain rfl := Except.ok.inj h
          exact hkey ▸ .strictClients v hv
      · cases h
  split at h
  · next hkey =>
      split at h
      · next v hv =>
          obtain rfl := Except.ok.inj h
          exact hkey ▸ .uniqueClients v hv
      · cases h
  split at h
  · next hkey =>
      split at h
      · cases h
      split at h
      · cases h
      · next hsec hr =>
          obtain rfl := Except.ok.inj h
          rw [not_or, not_lt, gt_iff_lt, not_lt] at hr
          exact hkey ▸ .timeout (Nat.pos_of_ne_zero hsec) hr
  · cases h

/-- A key-value line changes a setting within its range, or the timeout of the
    last section within its. -/
theorem parseKeyValue_ok {key val : List Byte} (h : parseKeyValue st key val = .ok st') :
    st'.sections = st.sections ∧
      ((st'.clients = st.clients ∧ (InRange st.config → InRange st'.config)) ∨
        (st'.config = st.config ∧ 0 < st.sections ∧ ∃ t, TimeoutOk t ∧
          st'.clients = st.clients.update (st.sections - 1) fun c => { c with timeoutMs := t })) := by
  cases parseKeyValue_assigns h with
  | socketPath => exact ⟨rfl, Or.inl ⟨rfl, id⟩⟩
  | wdTimeout hr => exact ⟨rfl, Or.inl ⟨rfl, fun hin => ⟨hr, hin.2⟩⟩⟩
  | rebootTimeout hr => exact ⟨rfl, Or.inl ⟨rfl, fun hin => ⟨hin.1, hr⟩⟩⟩
  | strictClients v hv => exact ⟨rfl, Or.inl ⟨rfl, id⟩⟩
  | uniqueClients v hv => exact ⟨rfl, Or.inl ⟨rfl, id⟩⟩
  | timeout hpos ht => exact ⟨rfl, Or.inr ⟨rfl, hpos, _, ht, rfl⟩⟩

/-- A section line takes the next slot. -/
theorem parseSection_ok {trimmed name : List Byte}
    (h : parseSection clock raws st trimmed name = .ok st') :
    st.sections < wdMaxClients ∧ st'.config = st.config ∧ st'.sections = st.sections + 1 ∧
      st'.clients = st.clients.update st.sections
        (announceSlot name (raws st.sections) (clock st.sections)) := by
  unfold parseSection at h
  split at h
  · exact nomatch h
  split at h
  · exact nomatch h
  · next hmax _ =>
      obtain rfl := Except.ok.inj h
      exact ⟨not_le.mp hmax, rfl, rfl, rfl⟩

/-- What one turn of the loop can do. -/
theorem parseLine_ok {line : List Byte} (h : parseLine clock raws st line = .ok st') :
    (classify line = .skip ∧ st' = { st with lineNum := st.lineNum + 1 }) ∨
      (∃ key val, classify line = .keyValue key val ∧
        parseKeyValue { st with lineNum := st.lineNum + 1 } key val = .ok st') ∨
      (∃ trimmed name, classify line = .client trimmed name ∧
        parseSection clock raws { st with lineNum := st.lineNum + 1 } trimmed name = .ok st') := by
  unfold parseLine at h
  dsimp only at h
  cases hline : classify line with
  | skip =>
      rw [hline] at h
      exact Or.inl ⟨rfl, (Except.ok.inj h).symm⟩
  | keyValue key val =>
      rw [hline] at h
      exact Or.inr (Or.inl ⟨key, val, rfl, h⟩)
  | client trimmed name =>
      rw [hline] at h
      exact Or.inr (Or.inr ⟨trimmed, name, rfl, h⟩)
  | other trimmed =>
      rw [hline] at h
      exact nomatch h

theorem sectionNames_snoc (lines : List (List Byte)) (line : List Byte) :
    sectionNames (lines ++ [line]) = sectionNames lines ++ (sectionName line).toList := by
  unfold sectionNames
  rw [List.filterMap_append]
  cases h : sectionName line <;> simp [h]

/-- A line that is no section line leaves the invariant's names alone. -/
theorem ParseInv.of_not_section {lines : List (List Byte)} {line : List Byte}
    (hnone : sectionName line = none) (h : ParseInv clock raws lines st') :
    ParseInv clock raws (lines ++ [line]) st' := by
  have heq : sectionNames (lines ++ [line]) = sectionNames lines := by
    rw [sectionNames_snoc, hnone]
    exact List.append_nil _
  exact { h with count := heq ▸ h.count, announced := heq ▸ h.announced }

/-- Changing the timeout of the last section keeps the invariant. -/
theorem ParseInv.setTimeout {lines : List (List Byte)} {t : Nat} (ht : TimeoutOk t)
    (hpos : 0 < st.sections) (h : ParseInv clock raws lines st)
    (hcfg : st'.config = st.config) (hsec : st'.sections = st.sections)
    (hcl : st'.clients = st.clients.update (st.sections - 1) fun c => { c with timeoutMs := t }) :
    ParseInv clock raws lines st' where
  range := hcfg ▸ h.range
  count := hsec ▸ h.count
  fits := hsec ▸ h.fits
  announced := by
    intro i name hi
    obtain ⟨c, hc, hann⟩ := h.announced i name hi
    rw [hcl]
    by_cases hlast : st.sections - 1 = i
    · rw [hlast, Table.update_self, hc]
      exact ⟨_, rfl, { hann with timeout := ht }⟩
    · rw [Table.update_ne _ _ hlast]
      exact ⟨c, hc, hann⟩
  rest := by
    intro i hi hmax
    rw [hsec] at hi
    rw [hcl, Table.update_ne _ _ (by omega)]
    exact h.rest i hi hmax

/-- A section line extends the announced prefix by one slot. -/
theorem ParseInv.announce {lines : List (List Byte)} {line trimmed name : List Byte}
    (hline : classify line = .client trimmed name) (h : ParseInv clock raws lines st)
    (hmax : st.sections < wdMaxClients) (hcfg : st'.config = st.config)
    (hsec : st'.sections = st.sections + 1)
    (hcl : st'.clients = st.clients.update st.sections
      (announceSlot name (raws st.sections) (clock st.sections))) :
    ParseInv clock raws (lines ++ [line]) st' := by
  have hname : sectionName line = some (CStr.strncpy wdClientNameLen name) := by
    unfold sectionName
    rw [hline]
  have heq : sectionNames (lines ++ [line])
      = sectionNames lines ++ [CStr.strncpy wdClientNameLen name] := by
    rw [sectionNames_snoc, hname]
    rfl
  refine ⟨hcfg ▸ h.range, ?_, ?_, ?_, ?_⟩
  · rw [hsec, h.count, heq, List.length_append, List.length_singleton]
  · omega
  · intro i nm hi
    rw [heq] at hi
    rw [hcl]
    by_cases hnew : st.sections = i
    · subst hnew
      rw [h.count, List.getElem?_concat_length] at hi
      obtain rfl := Option.some.inj hi
      rw [Table.update_self, h.rest _ (Nat.le_refl _) hmax]
      exact ⟨_, rfl, rfl, rfl, rfl, rfl, rfl, defaultTimeout_ok, rfl, rfl⟩
    · have hlt : i < (sectionNames lines).length := by
        have hlen := (List.getElem?_eq_some_iff.mp hi).1
        rw [List.length_append, List.length_singleton, ← h.count] at hlen
        rw [← h.count]
        omega
      rw [List.getElem?_append_left hlt] at hi
      rw [Table.update_ne _ _ hnew]
      exact h.announced i nm hi
  · intro i hi hlt
    rw [hsec] at hi
    rw [hcl, Table.update_ne _ _ (by omega)]
    exact h.rest i (by omega) hlt

/-- One turn of the loop keeps the invariant. -/
theorem parseLine_inv {lines : List (List Byte)} {line : List Byte}
    (h : ParseInv clock raws lines st) (hstep : parseLine clock raws st line = .ok st') :
    ParseInv clock raws (lines ++ [line]) st' := by
  have h' : ParseInv clock raws lines { st with lineNum := st.lineNum + 1 } := { h with }
  rcases parseLine_ok hstep with ⟨hline, rfl⟩ | ⟨key, val, hline, hkv⟩ | ⟨t, name, hline, hsec⟩
  · exact h'.of_not_section (by unfold sectionName; rw [hline])
  · refine ParseInv.of_not_section (by unfold sectionName; rw [hline]) ?_
    obtain ⟨hsec, ⟨hcl, hrange⟩ | ⟨hcfg, hpos, t, ht, hcl⟩⟩ := parseKeyValue_ok hkv
    · exact ⟨hrange h'.range, hsec ▸ h'.count, hsec ▸ h'.fits, hcl ▸ h'.announced,
        hcl ▸ hsec ▸ h'.rest⟩
    · exact h'.setTimeout ht hpos hcfg hsec hcl
  · obtain ⟨hmax, hcfg, hsec, hcl⟩ := parseSection_ok hsec
    exact h'.announce hline hmax hcfg hsec hcl

theorem parse_init (clock : Nat → Timespec) (raws : Nat → Raw) :
    ParseInv clock raws [] Parse.init where
  range := by unfold InRange; decide
  count := rfl
  fits := Nat.zero_le _
  announced := fun i name hi => nomatch hi
  rest := by
    intro i _ hi
    exact List.getElem?_replicate_of_lt hi

/-- **THE LOOP INVARIANT** after the whole file. -/
theorem parse_inv {lines : List (List Byte)}
    (h : Machine.tryRun (parseLine clock raws) Parse.init lines = .ok st) :
    ParseInv clock raws lines st :=
  Machine.tryRun_invariant (P := ParseInv clock raws)
    (fun _ _ _ _ hinv hstep => parseLine_inv hinv hstep) lines [] Parse.init st
    (parse_init clock raws) h

-- ── the names of section lines ────────────────────────────────────────────────

/-- A section name is the bytes behind `[client` and blanks: at least one, at
    most 63, no closing bracket. -/
theorem classify_client {line trimmed name : List Byte}
    (h : classify line = .client trimmed name) :
    name ≠ [] ∧ name.length ≤ 63 ∧ (0 : Byte) ∉ name := by
  unfold classify at h
  dsimp only at h
  split at h
  · cases h
  split at h
  · cases h
  split at h
  · next hscan =>
      obtain ⟨rfl, rfl⟩ := Line.client.inj h
      obtain ⟨rest, htrim, hrest⟩ := sscanf_lits hscan
      rw [sscanf] at hrest
      obtain ⟨t, rest', hsplit, hv, -, hne, hlen, -⟩ := sscanf_set hrest
      obtain rfl := Value.str.inj hv
      refine ⟨hne, hlen, fun h0 => cstr_no_nul line (trim_subset _ ?_)⟩
      rw [htrim]
      refine List.mem_append_right _ ((List.dropWhile_sublist isspace).subset ?_)
      rw [hsplit]
      exact List.mem_append_left _ h0
  · cases h

/-- Announced names are not empty. -/
theorem sectionName_ne_nil {line : List Byte} {name : CStr wdClientNameLen}
    (h : sectionName line = some name) : name.chars ≠ [] := by
  unfold sectionName at h
  split at h
  · next trimmed nm hline =>
      obtain ⟨hne, hlen, hnul⟩ := classify_client hline
      have hlt : nm.length < wdClientNameLen := Nat.lt_succ_of_le hlen
      rw [← Option.some.inj h, CStr.strncpy_chars hlt hnul]
      exact hne
  · exact nomatch h

-- ── the checks behind the loop ────────────────────────────────────────────────

/-- No duplicate found: the names of announced slots differ pairwise. -/
theorem duplicateName_none {cs : List Client} (h : duplicateName cs = none) :
    cs.Pairwise fun c d => c.anounced = true → d.anounced = true → c.name ≠ d.name := by
  induction cs with
  | nil => exact List.Pairwise.nil
  | cons c cs ih =>
      rw [duplicateName] at h
      split at h
      · exact nomatch h
      · next hdup =>
          refine List.Pairwise.cons ?_ (ih h)
          intro d hd hc hann hname
          refine hdup ?_
          rw [hc, Bool.true_and]
          exact List.any_eq_true.mpr ⟨d, hd, by simp [hann, hname]⟩

/-- What an accepted configuration file gives: the settings and the announced
    slots, one per section line and in file order, in front of zeroed slots. -/
structure Accepted (clock : Nat → Timespec) (raws : Nat → Raw) (text : List Byte)
    (config : Config) (t : Table) : Prop where
  range : InRange config
  fits : (sectionNames (configLines text)).length ≤ wdMaxClients
  announced : ∀ (i : Nat) name, (sectionNames (configLines text))[i]? = some name →
    ∃ c, t.slots[i]? = some c ∧ Announced name (raws i) (clock i) c
  rest : ∀ i : Nat, (sectionNames (configLines text)).length ≤ i → i < wdMaxClients →
    t.slots[i]? = some Client.zero
  strict : config.strictClients = true → sectionNames (configLines text) ≠ []
  unique : config.uniqueClients = true → (sectionNames (configLines text)).Nodup

/-- Names that differ slot by slot form a list without duplicates. -/
theorem ParseInv.names_nodup {lines : List (List Byte)} (h : ParseInv clock raws lines st)
    (hdup : duplicateName st.clients.slots = none) : (sectionNames lines).Nodup := by
  refine List.pairwise_iff_getElem.mpr ?_
  intro i j hi hj hij heq
  obtain ⟨c, hc, hci⟩ := h.announced i _ (List.getElem?_eq_getElem hi)
  obtain ⟨d, hd, hdj⟩ := h.announced j _ (List.getElem?_eq_getElem hj)
  obtain ⟨hil, hcl⟩ := List.getElem?_eq_some_iff.mp hc
  obtain ⟨hjl, hdl⟩ := List.getElem?_eq_some_iff.mp hd
  have hne := List.pairwise_iff_getElem.mp (duplicateName_none hdup) i j hil hjl hij
  rw [hcl, hdl] at hne
  exact hne hci.anounced hdj.anounced (hci.name_eq.trans (heq.trans hdj.name_eq.symm))

/-- **WHAT `parse_config` ACCEPTS**. -/
theorem parseConfig_ok {file : Option (List Byte)} {config : Config} {t : Table}
    (h : parseConfig file clock raws = .ok (config, t)) :
    ∃ text, file = some text ∧ Accepted clock raws text config t := by
  unfold parseConfig at h
  cases file with
  | none => exact nomatch h
  | some text =>
      refine ⟨text, rfl, ?_⟩
      dsimp only at h
      split at h
      · exact nomatch h
      · next st hrun =>
          have hinv := parse_inv hrun
          have mk : (st.config, st.clients) = (config, t) →
              (st.config.uniqueClients = true → duplicateName st.clients.slots = none) →
              ¬ (st.config.strictClients = true ∧ st.sections = 0) →
              Accepted clock raws text config t := by
            intro heq hdup hstrict
            obtain ⟨rfl, rfl⟩ := Prod.mk.inj heq
            refine ⟨hinv.range, hinv.count ▸ hinv.fits, hinv.announced, hinv.count ▸ hinv.rest,
              ?_, fun hu => hinv.names_nodup (hdup hu)⟩
            intro hs hnil
            refine hstrict ⟨hs, ?_⟩
            rw [hinv.count, hnil]
            rfl
          split at h
          · exact nomatch h
          · next hstrict =>
              split at h
              · split at h
                · exact nomatch h
                · next hdup => exact mk (Except.ok.inj h) (fun _ => hdup) hstrict
              · next hu => exact mk (Except.ok.inj h) (fun hu' => absurd hu' hu) hstrict

end WdConfig
