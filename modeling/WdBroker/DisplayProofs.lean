import WdBroker.UnregisterProofs

/-! # What wd-ctrl status shows

    The tool tells a client row from a setting by one character: whatever line has an `=`
    in it is a setting.  REGISTER admits that character in a name, so a registered client
    can end up among the settings, or nowhere (`countP_isRow_le`).

    `printStatus_statusLines` is the whole listing of a table without such names;
    `status_shows_iff` says that these are the tables whose clients are all shown.

    A process ID is read back as `int`; that it is one (`PidsOk`) comes from the kernel,
    which hands the broker a `pid_t`. -/

namespace WdDisplay

open CString Scanf WdClock WdTable WdClientID WdStatus WdConfig WdCommand WdReach WdEncoding
open WdCtrl WdUnregister

-- ── the branch status ─────────────────────────────────────────────────────────

/-- What one call of `printf` or `fputs` puts on stdout. -/
inductive Printed where
  | tableHeader
  | row (id : List Byte) (pid : Int) (name : List Byte) (timeout : Nat) (checkPid : Bool)
  | line (text : List Byte)
  | setting (key val : List Byte)
deriving DecidableEq

/-- `"%16s %d %63s %u %d"`. -/
def lineFormat : List Directive :=
  [.str 16, .space, .int, .space, .str 63, .space, .uint, .space, .int]

/-- `print_line_formatted`. -/
def printLineFormatted (line : List Byte) : Printed :=
  match sscanf lineFormat line with
  | [.str id, .int pid, .str name, .uint timeout, .int checkPid] =>
      .row id pid name timeout (checkPid ≠ 0)
  | _ => .line line

/-- `"%63[^=]=%63s"`. -/
def settingFormat : List Directive := [.set 63 (· != 61), .lit 61, .str 63]

/-- The loop over the lines, with `has_client_rows`. -/
def printStatus (hasClientRows : Bool) : List (List Byte) → List Printed
  | [] => []
  | line :: lines =>
      if 61 ∈ line then
        match sscanf settingFormat line with
        | [.str key, .str val] => .setting key val :: printStatus hasClientRows lines
        | _ => printStatus hasClientRows lines
      else if hasClientRows then printLineFormatted line :: printStatus true lines
      else .tableHeader :: printLineFormatted line :: printStatus true lines

/-- `%-Ns`. -/
def padded (width : Nat) (s : List Byte) : List Byte :=
  s ++ List.replicate (width - s.length) 32

/-- Five columns of the table. -/
def columns (id pid name timeout check : List Byte) : List Byte :=
  padded 18 id ++ bytes " " ++ padded 6 pid ++ bytes " " ++ padded 20 name ++ bytes " " ++
    padded 13 timeout ++ bytes " " ++ padded 8 check ++ bytes "\n"

def Printed.text : Printed → List Byte
  | .tableHeader =>
      bytes "\n" ++ columns (bytes "clientID") (bytes "PID") (bytes "Name")
        (bytes "Timeout (ms)") (bytes "pidCheck") ++ List.replicate 69 45 ++ bytes "\n"
  | .row id pid name timeout checkPid =>
      columns id (decimalInt pid) name (decimal timeout)
        (if checkPid then bytes "on" else bytes "off")
  | .line text => text
  | .setting key val => padded 18 key ++ bytes ": " ++ val ++ bytes "\n"

/-- What `wd-ctrl status` prints, call by call. -/
def ctrlPrints (status : Exchange) : List Printed :=
  let (len, buf) := sendAndReceive status
  if len ≤ 0 then [] else printStatus false (splitLines buf)

/-- `wd-ctrl status`. -/
def statusOutcome (status : Exchange) : WdCtrl.Outcome where
  requests := [cmdStatus]
  out := (ctrlPrints status).flatMap Printed.text
  err := []
  success := decide (0 < (sendAndReceive status).1)

-- ── the listing of a table ────────────────────────────────────────────────────

/-- The settings of the header: key and value. -/
def headerFields (config : Config) (activeClients : Nat) : List (List Byte × List Byte) :=
  [(bytes "daemon_version", packageVersion),
   (bytes "protocol_version", socketProtVersion),
   (bytes "wd_timeout_s", decimalInt config.wdTimeoutS),
   (bytes "reboot_timeout_s", decimalInt config.rebootTimeoutS),
   (bytes "strict_clients", boolText config.strictClients),
   (bytes "unique_clients", boolText config.uniqueClients),
   (bytes "active_clients", decimal activeClients)]

def settings (config : Config) (clients : List Client) : List Printed :=
  (headerFields config (clients.countP Client.active)).map fun f => .setting f.1 f.2

/-- The table row of a client. -/
def shownRow (c : Client) : Printed :=
  .row c.clientID.chars c.pid c.name.chars c.timeoutMs c.checkPID

/-- The table, with its header above the first row. -/
def shownTable (cs : List Client) : List Printed :=
  if cs.isEmpty then [] else .tableHeader :: cs.map shownRow

/-- The settings, then the live slots in slot order. -/
def listing (config : Config) (clients : List Client) : List Printed :=
  settings config clients ++ shownTable (clients.filter Client.live)

def Printed.isRow : Printed → Bool
  | .row .. => true
  | _ => false

def Printed.isSetting : Printed → Bool
  | .setting .. => true
  | _ => false

/-- One table row for each live slot, in slot order, and no other; and no setting that is
    not one of the header. -/
structure Shows (config : Config) (clients : List Client) (items : List Printed) : Prop where
  rows : items.filter Printed.isRow = (clients.filter Client.live).map shownRow
  settings : items.filter Printed.isSetting = settings config clients

variable {config : Config} {clients cs : List Client} {c : Client}

theorem filter_shownTable (cs : List Client) :
    (shownTable cs).filter Printed.isRow = cs.map shownRow ∧
      (shownTable cs).filter Printed.isSetting = [] := by
  cases cs with
  | nil => exact ⟨rfl, rfl⟩
  | cons c cs =>
      have hrows : ((c :: cs).map shownRow).filter Printed.isRow = (c :: cs).map shownRow :=
        List.filter_eq_self.mpr (List.forall_mem_map.mpr fun _ _ => rfl)
      have hsettings : ((c :: cs).map shownRow).filter Printed.isSetting = [] :=
        List.filter_eq_nil_iff.mpr (List.forall_mem_map.mpr fun _ _ => Bool.false_ne_true)
      exact ⟨hrows, hsettings⟩

theorem filter_settings (config : Config) (clients : List Client) :
    (settings config clients).filter Printed.isRow = [] ∧
      (settings config clients).filter Printed.isSetting = settings config clients := ⟨rfl, rfl⟩

/-- The listing shows every client. -/
theorem shows_listing (config : Config) (clients : List Client) :
    Shows config clients (listing config clients) := by
  obtain ⟨hrows, hnone⟩ := filter_shownTable (clients.filter Client.live)
  obtain ⟨hnorow, hsettings⟩ := filter_settings config clients
  unfold listing
  constructor
  · rw [List.filter_append, hnorow, hrows, List.nil_append]
  · rw [List.filter_append, hsettings, hnone, List.append_nil]

-- ── the lines of the reply ────────────────────────────────────────────────────

/-- A key and a value that fit `"%63[^=]=%63s"`. -/
structure FieldOk (f : List Byte × List Byte) : Prop where
  key : f.1 ≠ [] ∧ 61 ∉ f.1 ∧ f.1.length ≤ 63
  value : f.2 ≠ [] ∧ (∀ b ∈ f.2, isspace b = false) ∧ f.2.length ≤ 63

def fieldLine (f : List Byte × List Byte) : List Byte := f.1 ++ (61 :: f.2)

/-- Settings are shown as they were written. -/
theorem printStatus_fields {fields : List (List Byte × List Byte)} (h : ∀ f ∈ fields, FieldOk f)
    (hasClientRows : Bool) (lines : List (List Byte)) :
    printStatus hasClientRows (fields.map fieldLine ++ lines)
      = (fields.map fun f => .setting f.1 f.2) ++ printStatus hasClientRows lines := by
  induction fields with
  | nil => rfl
  | cons f fields ih =>
      obtain ⟨⟨hkey, heq, hkeylen⟩, hvalue, hword, hvaluelen⟩ := h f List.mem_cons_self
      have hset : ∀ b ∈ f.1, (b != 61) = true := fun b hb =>
        bne_iff_ne.mpr fun h61 => heq (h61 ▸ hb)
      have hval := @sscanf_str_word 63 [] [] f.2 [] (List.forall_mem_nil _) hvalue hword hvaluelen
        (Or.inr (by rintro b ⟨⟩))
      rw [List.nil_append, List.append_nil] at hval
      have hscan : sscanf settingFormat (fieldLine f) = [.str f.1, .str f.2] := by
        unfold settingFormat fieldLine
        rw [sscanf_set_run hkey hset hkeylen (Or.inr (by rintro b ⟨⟩; rfl)), sscanf, if_pos rfl,
          hval]
        rfl
      have hmem : 61 ∈ fieldLine f := List.mem_append_right _ List.mem_cons_self
      rw [List.map_cons, List.cons_append, printStatus, if_pos hmem, hscan,
        ih fun g hg => h g (List.mem_cons_of_mem f hg)]
      rfl

theorem headerLines_eq (config : Config) (n : Nat) :
    headerLines config n = (headerFields config n).map fieldLine := rfl

theorem length_decimal_le {n : Nat} (h : n < 10 ^ 62) : (decimal n).length ≤ 62 := by
  rw [decimal, List.length_map, Nat.length_toDigits_le_iff (by decide) (by decide)]
  exact h

theorem length_decimalInt_le {z : Int} (h : z.natAbs < 10 ^ 62) : (decimalInt z).length ≤ 63 := by
  unfold decimalInt
  split
  · exact Nat.succ_le_succ (length_decimal_le h)
  · exact Nat.le_succ_of_le (length_decimal_le h)

theorem headerFields_ok (hrange : InRange config) {n : Nat} (hn : n ≤ wdMaxClients) :
    ∀ f ∈ headerFields config n, FieldOk f := by
  have hword : ∀ f ∈ headerFields config n, ∀ b ∈ f.2, isspace b = false := by
    intro f hf b hb
    have hplain := headerLines_plain config n (fieldLine f) (List.mem_map_of_mem hf)
    exact (hplain.2 b (List.mem_append_right _ (List.mem_cons_of_mem _ hb))).2
  have hkeys : ∀ f ∈ headerFields config n, f.1 ≠ [] ∧ 61 ∉ f.1 ∧ f.1.length ≤ 63 := by
    unfold headerFields
    simp only [List.forall_mem_cons]
    exact ⟨by decide, by decide, by decide, by decide, by decide, by decide, by decide,
      List.forall_mem_nil _⟩
  have hvalues : ∀ f ∈ headerFields config n, f.2 ≠ [] ∧ f.2.length ≤ 63 := by
    have hint : ∀ z : Int, 0 ≤ z → z ≤ 300 → decimalInt z ≠ [] ∧ (decimalInt z).length ≤ 63 := by
      intro z h0 hmax
      refine ⟨?_, length_decimalInt_le (by omega)⟩
      unfold decimalInt
      rw [if_neg (Int.not_lt.mpr h0)]
      exact decimal_ne_nil _
    have hbool : ∀ b : Bool, boolText b ≠ [] ∧ (boolText b).length ≤ 63 := by
      intro b
      cases b <;> decide
    have hcount : decimal n ≠ [] ∧ (decimal n).length ≤ 63 :=
      ⟨decimal_ne_nil n, Nat.le_succ_of_le (length_decimal_le (Nat.lt_of_le_of_lt hn (by decide)))⟩
    obtain ⟨⟨hwd, hwdmax⟩, hreboot, hrebootmax⟩ := hrange
    unfold headerFields
    simp only [List.forall_mem_cons]
    exact ⟨by decide, by decide,
      hint _ (Int.le_trans (by decide) hwd) (Int.le_trans hwdmax (by decide)),
      hint _ (Int.le_trans (by decide) hreboot) (Int.le_trans hrebootmax (by decide)),
      hbool _, hbool _, hcount, List.forall_mem_nil _⟩
  exact fun f hf => ⟨hkeys f hf, (hvalues f hf).1, hword f hf, (hvalues f hf).2⟩

/-- A row has an `=` only in its name. -/
theorem mem_rowLine (hid : IsClientID c.clientID) : 61 ∈ rowLine c ↔ 61 ∈ c.name.chars := by
  have hhex : 61 ∉ c.clientID.chars := fun h => absurd (hid.2 61 h) (by decide)
  have hnat : ∀ n, 61 ∉ decimal n := fun n h => absurd (decimal_isdigit n 61 h) (by decide)
  have hint : ∀ z, 61 ∉ decimalInt z := by
    intro z h
    unfold decimalInt at h
    split at h
    · exact (List.mem_cons.mp h).elim (by decide) (hnat _)
    · exact hnat _ h
  have hflag : 61 ∉ flagText c := by
    unfold flagText
    cases c.checkPID <;> decide
  have hfront : 61 ∉ rowFront c := by
    unfold rowFront
    simp [hhex, hint]
  have hback : 61 ∉ rowBack c := by
    unfold rowBack
    simp only [List.mem_cons, List.mem_append, not_or]
    exact ⟨by decide, hnat _, by decide, hflag⟩
  unfold rowLine
  simp [hfront, hback]

theorem printLineFormatted_rowLine (h : RowOk c) :
    printLineFormatted (rowLine c) = shownRow c := by
  have hflag : sscanf [.space, .int] (32 :: flagText c) = [.int (if c.checkPID then 1 else 0)] := by
    unfold flagText
    cases c.checkPID <;> decide
  unfold printLineFormatted lineFormat
  rw [scan_row h [.space, .int], hflag]
  show Printed.row _ _ _ _ _ = shownRow c
  unfold shownRow
  cases c.checkPID <;> rfl

/-- Without an `=` in the names, every row is shown in the table. -/
theorem printStatus_rows (h : ∀ c ∈ cs, RowOk c ∧ 61 ∉ c.name.chars) :
    printStatus false (cs.map rowLine) = shownTable cs := by
  have hstep : ∀ c ∈ cs, 61 ∉ rowLine c ∧ printLineFormatted (rowLine c) = shownRow c :=
    fun c hc => ⟨fun h61 => (h c hc).2 ((mem_rowLine (h c hc).1.clientID).mp h61),
      printLineFormatted_rowLine (h c hc).1⟩
  -- below the header of the table
  have hbelow : ∀ ds : List Client, (∀ d ∈ ds, d ∈ cs) →
      printStatus true (ds.map rowLine) = ds.map shownRow := by
    intro ds hds
    induction ds with
    | nil => rfl
    | cons d ds ih =>
        obtain ⟨hno, hshow⟩ := hstep d (hds d List.mem_cons_self)
        rw [List.map_cons, printStatus, if_neg hno, if_pos rfl, hshow,
          ih fun e he => hds e (List.mem_cons_of_mem d he)]
        rfl
  cases cs with
  | nil => rfl
  | cons c cs =>
      obtain ⟨hno, hshow⟩ := hstep c List.mem_cons_self
      rw [List.map_cons, printStatus, if_neg hno, if_neg Bool.false_ne_true, hshow,
        hbelow cs fun d hd => List.mem_cons_of_mem c hd]
      rfl

/-- **THE LISTING**: without an `=` in the names, the settings and then the table. -/
theorem printStatus_statusLines (hrange : InRange config) (hsize : clients.length ≤ wdMaxClients)
    (h : ∀ c ∈ clients, c.live = true → RowOk c ∧ 61 ∉ c.name.chars) :
    printStatus false (statusLines config clients) = listing config clients := by
  have hcount : clients.countP Client.active ≤ wdMaxClients :=
    Nat.le_trans List.countP_le_length hsize
  unfold statusLines listing
  rw [headerLines_eq, printStatus_fields (headerFields_ok hrange hcount), printStatus_rows]
  · rfl
  · intro c hc
    obtain ⟨hmem, hlive⟩ := List.mem_filter.mp hc
    exact h c hmem hlive

/-- **A LINE WITH AN `=` IS NO ROW**: the rows shown are at most the lines without it. -/
theorem countP_isRow_le (lines : List (List Byte)) :
    ∀ hasClientRows, (printStatus hasClientRows lines).countP Printed.isRow
      ≤ lines.countP fun line => decide (61 ∉ line) := by
  induction lines with
  | nil => intro _; exact Nat.le_refl 0
  | cons line lines ih =>
      intro hasClientRows
      have hitem : ∀ p : Printed, (p :: printStatus true lines).countP Printed.isRow
          ≤ (lines.countP fun line => decide (61 ∉ line)) + 1 := by
        intro p
        rw [List.countP_cons]
        have := ih true
        split <;> omega
      rw [printStatus]
      by_cases h61 : 61 ∈ line
      · rw [if_pos h61, List.countP_cons_of_neg (by simpa using h61)]
        split
        · exact (List.countP_cons_of_neg (by exact Bool.false_ne_true)).trans_le (ih _)
        · exact ih _
      · rw [if_neg h61, List.countP_cons_of_pos (by simpa using h61)]
        cases hasClientRows with
        | true => exact hitem _
        | false => exact (List.countP_cons_of_neg (by exact Bool.false_ne_true)).trans_le (hitem _)

/-- If all rows are shown, no name has an `=`. -/
theorem no_eq_of_rows (hid : ∀ c ∈ clients, c.live = true → IsClientID c.clientID)
    (h : (printStatus false (statusLines config clients)).filter Printed.isRow
      = (clients.filter Client.live).map shownRow) :
    ∀ c ∈ clients, c.live = true → 61 ∉ c.name.chars := by
  have hle := countP_isRow_le (statusLines config clients) false
  have hheader : (headerLines config (clients.countP Client.active)).countP
      (fun line => decide (61 ∉ line)) = 0 := by
    rw [List.countP_eq_zero, headerLines_eq]
    refine List.forall_mem_map.mpr fun f _ => ?_
    have hmem : 61 ∈ fieldLine f := List.mem_append_right _ List.mem_cons_self
    simpa using hmem
  rw [List.countP_eq_length_filter, h, List.length_map, statusLines, List.countP_append, hheader,
    Nat.zero_add, List.countP_map] at hle
  have hall := List.countP_eq_length.mp (Nat.le_antisymm List.countP_le_length hle)
  intro c hc hlive
  have hno := of_decide_eq_true (hall c (List.mem_filter.mpr ⟨hc, hlive⟩))
  exact fun h61 => hno ((mem_rowLine (hid c hc hlive)).mpr h61)

-- ── reachable tables ──────────────────────────────────────────────────────────

/-- A `pid_t`. -/
def IsPid (pid : Int) : Prop := -2 ^ 31 ≤ pid ∧ pid < 2 ^ 31

/-- The peer is a process. -/
def FromProcess (r : Request) : Prop := ∀ creds, r.creds = some creds → IsPid creds.pid

/-- Reached from an accepted configuration file by some commands of processes. -/
def ReachedByProcesses (b : Broker) : Prop :=
  ∃ file clock raws b₀ rs, boot file clock raws = .ok b₀ ∧ (∀ r ∈ rs, FromProcess r) ∧
    b = commands b₀ rs

theorem ReachedByProcesses.reachable {b : Broker} (h : ReachedByProcesses b) : Reachable b := by
  obtain ⟨file, clock, raws, b₀, rs, hboot, -, rfl⟩ := h
  exact ⟨file, clock, raws, b₀, rs, hboot, rfl⟩

/-- All slots hold process IDs. -/
def PidsOk (b : Broker) : Prop := ∀ c ∈ b.clients.slots, IsPid c.pid

theorem pidsOk_boot {file : Option (List Byte)} {clock : Nat → Timespec} {raws : Nat → Raw}
    {b : Broker} (h : boot file clock raws = .ok b) : PidsOk b := by
  refine forall_slots_boot h ⟨by decide, by decide⟩ fun _ hann => ?_
  rw [hann.pid_zero]
  exact ⟨by decide, by decide⟩

theorem pidsOk_command (b : Broker) (r : Request) (hr : FromProcess r) (h : PidsOk b) :
    PidsOk (command b r) := by
  refine forall_slots_command h (fun _ hc => hc) (fun creds args c hreq _ => ?_)
    (fun _ hc => hc) fun _ hc => hc
  obtain ⟨s, hcreds, -, -⟩ := hreq
  exact hr creds hcreds

theorem pidsOk_of_reached {b : Broker} (h : ReachedByProcesses b) : PidsOk b := by
  obtain ⟨file, clock, raws, b₀, rs, hboot, hrs, rfl⟩ := h
  exact Machine.run_invariant_mem command pidsOk_command rs b₀ hrs (pidsOk_boot hboot)

/-- Some REGISTER command is accepted under this name. -/
def RegisterName (name : CStr wdClientNameLen) : Prop :=
  ∃ r creds args, Registers r creds args ∧ args.name = name

theorem plainWord_of_registerName {name : CStr wdClientNameLen} (h : RegisterName name) :
    PlainWord name.chars := by
  obtain ⟨r, creds, args, hreq, rfl⟩ := h
  exact (registers_ok hreq).2

theorem rowOk_of_reached {b : Broker} (hb : ReachedByProcesses b)
    (hnames : ∀ c ∈ b.clients.slots, c.live = true → RegisterName c.name) :
    ∀ c ∈ b.clients.slots, c.live = true → RowOk c := by
  have hwf := wellFormed_of_reachable hb.reachable
  have hpids := pidsOk_of_reached hb
  intro c hc hlive
  obtain ⟨hne, hplain⟩ := plainWord_of_registerName (hnames c hc hlive)
  have htimeout : c.timeoutMs ≤ wdClientTimeoutMaxMs := ((hwf.slots c hc).timeout hlive).2
  exact ⟨(hwf.slots c hc).clientID hlive, hpids c hc, ⟨hne, fun b hb => (hplain b hb).2⟩,
    Nat.lt_of_le_of_lt htimeout (by decide)⟩

-- ── the tool and the broker ───────────────────────────────────────────────────

section Reached

variable {b : Broker} {r : Request}

/-- What the tool prints of the broker's STATUS reply. -/
theorem ctrlPrints_status (hb : ReachedByProcesses b)
    (hnames : ∀ c ∈ b.clients.slots, c.live = true → RegisterName c.name)
    (hlen : (statusMsg b.config b.clients.slots).offset ≤ 4095) :
    ctrlPrints (.reads (.packet (statusReply b.config b.clients.slots)))
      = printStatus false (statusLines b.config b.clients.slots) := by
  have hrows := rowOk_of_reached hb hnames
  obtain ⟨hpos, hlines⟩ := split_status (Nat.le_of_eq b.clients.size)
    (fun c hc hlive => (hrows c hc hlive).oneLine) hlen
  unfold ctrlPrints
  dsimp only
  rw [if_neg (Int.not_le.mpr hpos), hlines]

/-- Without an `=` in the names, that is the listing. -/
theorem ctrlPrints_listing (hb : ReachedByProcesses b)
    (hnames : ∀ c ∈ b.clients.slots, c.live = true → RegisterName c.name)
    (hlen : (statusMsg b.config b.clients.slots).offset ≤ 4095)
    (hno : ∀ c ∈ b.clients.slots, c.live = true → 61 ∉ c.name.chars) :
    ctrlPrints (.reads (.packet (statusReply b.config b.clients.slots)))
      = listing b.config b.clients.slots := by
  have hwf := wellFormed_of_reachable hb.reachable
  have hrows := rowOk_of_reached hb hnames
  rw [ctrlPrints_status hb hnames hlen]
  exact printStatus_statusLines hwf.range (Nat.le_of_eq b.clients.size)
    fun c hc hlive => ⟨hrows c hc hlive, hno c hc hlive⟩

/-- **THE OUTPUT OF STATUS**, byte for byte. -/
theorem statusOutcome_out (hb : ReachedByProcesses b)
    (hnames : ∀ c ∈ b.clients.slots, c.live = true → RegisterName c.name)
    (hlen : (statusMsg b.config b.clients.slots).offset ≤ 4095)
    (hno : ∀ c ∈ b.clients.slots, c.live = true → 61 ∉ c.name.chars) :
    (statusOutcome (.reads (.packet (statusReply b.config b.clients.slots)))).out
      = (listing b.config b.clients.slots).flatMap Printed.text :=
  congrArg (List.flatMap Printed.text) (ctrlPrints_listing hb hnames hlen hno)

/-- **WHAT STATUS SHOWS**: of a reachable table whose names REGISTER admits and whose
    reply fits the tool's buffer, `wd-ctrl status` shows every client exactly if no live
    name has an `=` in it. -/
theorem status_shows_iff (hb : ReachedByProcesses b) (hr : FromCtrl r)
    (hnames : ∀ c ∈ b.clients.slots, c.live = true → RegisterName c.name)
    (hlen : (statusMsg b.config b.clients.slots).offset ≤ 4095) :
    ∃ reply, (handleCommand b r).replies = [reply] ∧
      (Shows b.config b.clients.slots (ctrlPrints (.reads (.packet reply.bytes))) ↔
        ∀ c ∈ b.clients.slots, c.live = true → 61 ∉ c.name.chars) := by
  have hrows := rowOk_of_reached hb hnames
  refine ⟨.buffer (statusMsg b.config b.clients.slots), ?_, ?_⟩
  · rw [handleCommand_asksStatus (asksStatus_ctrl hr)]
    rfl
  show Shows _ _ (ctrlPrints (.reads (.packet (statusReply b.config b.clients.slots)))) ↔ _
  constructor
  · intro hshows
    rw [ctrlPrints_status hb hnames hlen] at hshows
    exact no_eq_of_rows (fun c hc hlive => (hrows c hc hlive).clientID) hshows.rows
  · intro hno
    rw [ctrlPrints_listing hb hnames hlen hno]
    exact shows_listing b.config b.clients.slots

end Reached

/-- A REGISTER of a client that is not root, with 5000 ms. -/
def registerRequest (name : List Byte) : Request :=
  ⟨some ⟨1001, 1000⟩, .packet (bytes "REGISTER " ++ name ++ bytes " 5000\n"), Timespec.zero,
    Vector.replicate 8 1⟩

/-- It is the only command. -/
def oneClient (name : List Byte) : Broker :=
  commands ⟨Table.zero, Parse.init.config, true, false⟩ [registerRequest name]

theorem oneClient_reached (name : List Byte) : ReachedByProcesses (oneClient name) := by
  refine ⟨_, _, _, _, [registerRequest name], boot_empty, fun r hr creds hcreds => ?_, rfl⟩
  obtain rfl := List.mem_singleton.mp hr
  obtain rfl := Option.some.inj hcreds
  exact ⟨by decide, by decide⟩

/-- The broker has registered the client under that name, and its STATUS reply fits the
    tool's buffer. -/
def Registered (name : List Byte) : Prop :=
  (registerRequest name).buf = some (cmdRegister ++ (name ++ bytes " 5000\n")) ∧
    parseRegister (cmdRegister ++ (name ++ bytes " 5000\n"))
      = .ok ⟨CStr.strncpy wdClientNameLen name, 5000, true⟩ ∧
    ((oneClient name).clients.slots.filter Client.live).map (·.name)
      = [CStr.strncpy wdClientNameLen name] ∧
    (statusMsg (oneClient name).config (oneClient name).clients.slots).offset ≤ 4095

instance (name : List Byte) : Decidable (Registered name) := inferInstanceAs (Decidable (_ ∧ _))

theorem Registered.names {name : List Byte} (h : Registered name) :
    ∀ c ∈ (oneClient name).clients.slots, c.live = true → RegisterName c.name := by
  obtain ⟨hbuf, hparse, hlive, -⟩ := h
  intro c hc hl
  have hmem : c.name ∈ ((oneClient name).clients.slots.filter Client.live).map (·.name) :=
    List.mem_map_of_mem (List.mem_filter.mpr ⟨hc, hl⟩)
  rw [hlive] at hmem
  exact ⟨registerRequest name, ⟨1001, 1000⟩, _, ⟨_, rfl, hbuf, hparse⟩,
    (List.mem_singleton.mp hmem).symm⟩

theorem status_shows_iff_one :
    ∃ reply, (handleCommand (oneClient (bytes "a")) ctrlStatus).replies = [reply] ∧
      (Shows (oneClient (bytes "a")).config (oneClient (bytes "a")).clients.slots
          (ctrlPrints (.reads (.packet reply.bytes))) ↔
        ∀ c ∈ (oneClient (bytes "a")).clients.slots, c.live = true → 61 ∉ c.name.chars) := by
  have hreg : Registered (bytes "a") := by decide +kernel
  exact status_shows_iff (oneClient_reached _) ⟨⟨1, 0⟩, rfl, rfl, rfl⟩ hreg.names hreg.2.2.2

/-- The tool prints these items for the table with that client alone, and they do not show
    it. -/
def ShownAs (name : List Byte) (items : List Printed) : Prop :=
  ctrlPrints (.reads (.packet
      (statusReply (oneClient name).config (oneClient name).clients.slots)))
    = settings (oneClient name).config (oneClient name).clients.slots ++ items ∧
  ¬ Shows (oneClient name).config (oneClient name).clients.slots
    (settings (oneClient name).config (oneClient name).clients.slots ++ items)

/-- **A CLIENT AMONG THE SETTINGS**: `a=b` is shown as the value `b` of a setting, and a
    client with enough characters in front of the `=` is not shown at all. -/
theorem client_shown_as_setting :
    (Registered (bytes "a=b") ∧ ReachedByProcesses (oneClient (bytes "a=b")) ∧
      ShownAs (bytes "a=b") [.setting (bytes "0101010101010101 1001 a") (bytes "b")]) ∧
    Registered (List.replicate 42 97 ++ bytes "=b") ∧
      ReachedByProcesses (oneClient (List.replicate 42 97 ++ bytes "=b")) ∧
      ShownAs (List.replicate 42 97 ++ bytes "=b") [] := by
  have hnot : ∀ {name : List Byte} {items : List Printed}, Registered name →
      items.filter Printed.isRow = [] →
      ¬ Shows (oneClient name).config (oneClient name).clients.slots
        (settings (oneClient name).config (oneClient name).clients.slots ++ items) := by
    intro name items hreg hitems hshows
    have hrows := hshows.rows
    rw [List.filter_append, (filter_settings _ _).1, hitems] at hrows
    have hnone := List.map_eq_nil_iff.mp hrows.symm
    have hone := hreg.2.2.1
    rw [hnone] at hone
    exact nomatch hone
  have hsetting : Registered (bytes "a=b") := by decide +kernel
  have hnowhere : Registered (List.replicate 42 97 ++ bytes "=b") := by decide +kernel
  exact ⟨⟨hsetting, oneClient_reached _, by decide +kernel, hnot hsetting rfl⟩,
    hnowhere, oneClient_reached _, by decide +kernel, hnot hnowhere rfl⟩

end WdDisplay
