import WdBroker.EncodingProofs
import WdBroker.TokensProofs

/-! # The control tool reads the STATUS reply

    `wd-ctrl` shares no code with the encoder of the STATUS reply.  It cuts the reply into
    lines with `strtok_r` and takes for the row of a client whatever line matches
    `"%16s %d %63s %u"`.  `split_status` says which lines it gets, `scan_front` how far
    the scan of a row is certain whatever the name is; `status_rows_decode` is the round
    trip for names without blanks.

    Here the branch `unregister` of `main` is a function of the two exchanges. -/

namespace WdCtrl

open CString Scanf Snprintf Tokens WdTable WdClientID WdStatus WdCommand WdEncoding

def bufSize : Nat := 4096
def maxLines : Nat := wdMaxClients + 10

-- ── the two exchanges with the broker ─────────────────────────────────────────

/-- A system call before the answer fails, or `read_with_timeout` is reached. -/
inductive Exchange where
  | fails
  | reads (incoming : Incoming)

/-- `send_and_receive`: the result, and the bytes of the answer. -/
def sendAndReceive : Exchange → Int × List Byte
  | .fails => (-1, [])
  | .reads incoming => readWithTimeout bufSize incoming

/-- The calls of `strtok_r(buf, "\n", …)`, as long as there is room in `lines`. -/
def splitLines (buf : List Byte) : List (List Byte) :=
  (tokens (· == 10) (cstr buf)).take (maxLines - 1)

/-- What a run of the tool leaves behind: the commands given to `send_and_receive`, the
    text on stdout and stderr, and whether it exits with `EXIT_SUCCESS`. -/
structure Outcome where
  requests : List (List Byte)
  out : List Byte
  err : List Byte
  success : Bool
deriving DecidableEq

/-- `fatal_error`. -/
def fatalError (requests : List (List Byte)) (message : List Byte) : Outcome :=
  ⟨requests, [], bytes "Error: " ++ message ++ bytes "\n", false⟩

-- ── unregister ────────────────────────────────────────────────────────────────

/-- The fields of a client row. -/
structure Row where
  id : List Byte
  pid : Int
  name : List Byte
  timeout : Nat
deriving DecidableEq

/-- `"%16s %d %63s %u"`. -/
def rowFormat : List Directive :=
  [.str 16, .space, .int, .space, .str 63, .space, .uint]

/-- All four fields are assigned. -/
def scanRow (line : List Byte) : Option Row :=
  match sscanf rowFormat line with
  | [.str id, .int pid, .str name, .uint timeout] => some ⟨id, pid, name, timeout⟩
  | _ => none

/-- `id_candidate`, `found` and `match_count`. -/
structure Search where
  idCandidate : CStr wdClientIDLen
  found : Bool
  matchCount : Nat
deriving DecidableEq

def Search.init : Search := ⟨CStr.empty wdClientIDLen, false, 0⟩

/-- The loop over the lines, with its `break`. -/
def search (client : List Byte) : List (List Byte) → Search → Search
  | [], s => s
  | line :: lines, s =>
      match scanRow line with
      | none => search client lines s
      | some row =>
          if client = row.id then
            { s with idCandidate := CStr.strncpy wdClientIDLen row.id, found := true }
          else if client = row.name then
            search client lines
              ⟨CStr.strncpy wdClientIDLen row.id, true, s.matchCount + 1⟩
          else search client lines s

/-- The branch `unregister`; the command is built in `cmd[128]`. -/
def unregister (client : List Byte) (lines : List (List Byte)) (second : Exchange) : Outcome :=
  let s := search client lines Search.init
  if s.matchCount > 1 then
    fatalError [] (bytes "Client name '" ++ client ++ bytes "' is not unique, use the clientID.\n")
  else if !s.found then
    fatalError [] (bytes "Unknown client (" ++ client ++ bytes ").\n")
  else
    let cmd := (cmdUnregister ++ (s.idCandidate.chars ++ bytes "\n")).take 127
    let (len, buf) := sendAndReceive second
    if len ≤ 0 then ⟨[cmd], [], [], false⟩
    else if strncmpEq (cstr buf) (bytes "OK") 2 then
      ⟨[cmd], bytes "Client '" ++ client ++ bytes "' unregistered successfully.\n", [], true⟩
    else if strncmpEq (cstr buf) (bytes "ERROR") 5 then
      ⟨[cmd], [], bytes "Server Error: " ++ cstr (buf.drop 6) ++ bytes "\n", false⟩
    else fatalError [cmd] (bytes "Unexpected server response.\n")

/-- `wd-ctrl unregister <client>`: the STATUS exchange, and the branch. -/
def ctrlUnregister (client : List Byte) (status second : Exchange) : Outcome :=
  let (len, buf) := sendAndReceive status
  if len ≤ 0 then ⟨[cmdStatus], [], [], false⟩
  else
    let o := unregister client (splitLines buf) second
    { o with requests := cmdStatus :: o.requests }

-- ── the lines of the reply ────────────────────────────────────────────────────

/-- The STATUS reply as it is written. -/
def statusReply (config : Config) (clients : List Client) : List Byte :=
  (Reply.buffer (statusMsg config clients)).bytes

/-- The header without the newlines. -/
def headerLines (config : Config) (activeClients : Nat) : List (List Byte) :=
  [bytes "daemon_version=" ++ packageVersion,
   bytes "protocol_version=" ++ socketProtVersion,
   bytes "wd_timeout_s=" ++ decimalInt config.wdTimeoutS,
   bytes "reboot_timeout_s=" ++ decimalInt config.rebootTimeoutS,
   bytes "strict_clients=" ++ boolText config.strictClients,
   bytes "unique_clients=" ++ boolText config.uniqueClients,
   bytes "active_clients=" ++ decimal activeClients]

/-- The row of a client, up to its name, and behind it. -/
def rowFront (c : Client) : List Byte := c.clientID.chars ++ (32 :: (decimalInt c.pid ++ [32]))

def rowBack (c : Client) : List Byte :=
  32 :: (decimal c.timeoutMs ++ (32 :: if c.checkPID then bytes "1" else bytes "0"))

def rowLine (c : Client) : List Byte := rowFront c ++ (c.name.chars ++ rowBack c)

theorem statusHeader_eq (config : Config) (n : Nat) :
    statusHeader config n = (headerLines config n).map (· ++ [10]) := rfl

theorem statusRow_eq (c : Client) : statusRow c = rowLine c ++ [10] := by
  unfold statusRow rowLine rowFront rowBack
  simp only [List.append_assoc, List.cons_append, List.nil_append]
  rfl

/-- The lines of a STATUS reply. -/
def statusLines (config : Config) (clients : List Client) : List (List Byte) :=
  headerLines config (clients.countP Client.active) ++ (clients.filter Client.live).map rowLine

variable {config : Config} {clients : List Client} {c : Client}

theorem statusReply_eq (hlen : (statusMsg config clients).offset ≤ 4095) :
    statusReply config clients = ((statusLines config clients).map (· ++ [10])).flatten := by
  have htexts : statusTexts config clients = (statusLines config clients).map (· ++ [10]) := by
    unfold statusTexts statusLines
    rw [statusHeader_eq, List.map_append, List.map_map]
    exact congrArg _ (List.map_congr_left fun c _ => statusRow_eq c)
  have hoff : (statusMsg config clients).offset = (statusTexts config clients).flatten.length := by
    unfold statusMsg
    rw [appendAll_offset]
    exact Nat.zero_add _
  have hdata : (statusMsg config clients).data = (statusTexts config clients).flatten := by
    have hfit : (Buf.empty 4096).offset + (statusTexts config clients).flatten.length
        < (Buf.empty 4096).size :=
      show 0 + (statusTexts config clients).flatten.length < 4096 by omega
    exact (appendAll_data _ _ hfit).trans (List.nil_append _)
  unfold statusReply Reply.bytes
  dsimp only
  rw [hdata, hoff, List.take_length, htexts]

/-- Neither newline nor NUL. -/
def InLine (s : List Byte) : Prop := (10 : Byte) ∉ s ∧ (0 : Byte) ∉ s

theorem InLine.append {a b : List Byte} (ha : InLine a) (hb : InLine b) : InLine (a ++ b) :=
  ⟨fun h => (List.mem_append.mp h).elim ha.1 hb.1, fun h => (List.mem_append.mp h).elim ha.2 hb.2⟩

theorem inLine_of_plain {s : List Byte} (h : ∀ b ∈ s, isprint b = true ∧ isspace b = false) :
    InLine s :=
  ⟨fun h10 => absurd (h 10 h10).2 (by decide), fun h0 => absurd (h 0 h0).1 (by decide)⟩

theorem isprint_of_isdigit : ∀ b, isdigit b = true → isprint b = true := by
  grind [isdigit, isprint]

theorem decimal_plain (n : Nat) : ∀ b ∈ decimal n, isprint b = true ∧ isspace b = false :=
  fun b hb => ⟨isprint_of_isdigit b (decimal_isdigit n b hb), decimal_not_isspace n b hb⟩

theorem decimalInt_plain (z : Int) : ∀ b ∈ decimalInt z, isprint b = true ∧ isspace b = false := by
  unfold decimalInt
  split
  · exact List.forall_mem_cons.mpr ⟨by decide, decimal_plain _⟩
  · exact decimal_plain _

/-- A key, `=` and a value without blanks. -/
theorem plainWord_key {key value : List Byte}
    (hkey : (!key.isEmpty && key.all fun b => isprint b && !isspace b) = true)
    (hvalue : ∀ b ∈ value, isprint b = true ∧ isspace b = false) : PlainWord (key ++ value) := by
  simp only [Bool.and_eq_true, Bool.not_eq_true', List.all_eq_true, List.isEmpty_eq_false_iff]
    at hkey
  exact ⟨List.append_ne_nil_of_left_ne_nil hkey.1 _, List.forall_mem_append.mpr ⟨hkey.2, hvalue⟩⟩

/-- Header lines have no blanks. -/
theorem headerLines_plain (config : Config) (n : Nat) :
    ∀ line ∈ headerLines config n, PlainWord line := by
  have hbool : ∀ b : Bool, ∀ x ∈ boolText b, isprint x = true ∧ isspace x = false := by
    intro b
    have hall : (boolText b).all (fun b => isprint b && !isspace b) = true := by
      cases b <;> decide
    simpa using hall
  have hversion : PlainWord (bytes "daemon_version=" ++ packageVersion) := by
    refine plainWord_key (by decide) ?_
    have hall : packageVersion.all (fun b => isprint b && !isspace b) = true := by decide
    simpa using hall
  have hprot : PlainWord (bytes "protocol_version=" ++ socketProtVersion) := by
    refine plainWord_key (by decide) ?_
    have hall : socketProtVersion.all (fun b => isprint b && !isspace b) = true := by decide
    simpa using hall
  unfold headerLines
  simp only [List.forall_mem_cons]
  exact ⟨hversion, hprot, plainWord_key (by decide) (decimalInt_plain _),
    plainWord_key (by decide) (decimalInt_plain _), plainWord_key (by decide) (hbool _),
    plainWord_key (by decide) (hbool _), plainWord_key (by decide) (decimal_plain _),
    List.forall_mem_nil _⟩

theorem rowLine_inLine (hid : IsClientID c.clientID) (hname : (10 : Byte) ∉ c.name.chars) :
    InLine (rowLine c) := by
  have hblank : InLine [32] := ⟨by decide, by decide⟩
  have hid' : InLine c.clientID.chars := by
    refine ⟨fun h => ?_, c.clientID.noNul⟩
    exact absurd (not_isspace_of_isxdigit 10 (isxdigit_of_isLowerHex 10 (hid.2 10 h))) (by decide)
  have hflag : InLine (if c.checkPID then bytes "1" else bytes "0") := by
    cases c.checkPID <;> exact ⟨by decide, by decide⟩
  unfold rowLine rowFront rowBack
  refine (hid'.append (hblank.append ((inLine_of_plain (decimalInt_plain _)).append hblank))).append
    (InLine.append ⟨hname, c.name.noNul⟩ (hblank.append ((inLine_of_plain (decimal_plain _)).append
      (hblank.append hflag))))

/-- What the rows need to stay on their lines. -/
structure OneLine (c : Client) : Prop where
  clientID : IsClientID c.clientID
  name : (10 : Byte) ∉ c.name.chars

theorem statusLines_inLine (h : ∀ c ∈ clients, c.live = true → OneLine c) :
    ∀ line ∈ statusLines config clients, line ≠ [] ∧ InLine line := by
  intro line hline
  rcases List.mem_append.mp hline with hhead | hrow
  · have hplain := headerLines_plain config _ line hhead
    exact ⟨hplain.1, inLine_of_plain hplain.2⟩
  · obtain ⟨c, hc, rfl⟩ := List.mem_map.mp hrow
    obtain ⟨hmem, hlive⟩ := List.mem_filter.mp hc
    obtain ⟨hid, hname⟩ := h c hmem hlive
    refine ⟨?_, rowLine_inLine hid hname⟩
    unfold rowLine rowFront
    simp

/-- **THE LINES OF A REPLY** that fits the buffer: `wd-ctrl` gets them all, the header and
    one for each live slot. -/
theorem split_status (hsize : clients.length ≤ wdMaxClients)
    (h : ∀ c ∈ clients, c.live = true → OneLine c)
    (hlen : (statusMsg config clients).offset ≤ 4095) :
    0 < (sendAndReceive (.reads (.packet (statusReply config clients)))).1 ∧
      splitLines (sendAndReceive (.reads (.packet (statusReply config clients)))).2
        = statusLines config clients := by
  have hlines := @statusLines_inLine config clients h
  have hbytes : (statusReply config clients).length ≤ 4095 := by
    refine Nat.le_trans ?_ hlen
    unfold statusReply Reply.bytes
    exact List.length_take_le _ _
  have hread : sendAndReceive (.reads (.packet (statusReply config clients)))
      = (((statusReply config clients).length : Int), statusReply config clients) := by
    unfold sendAndReceive readWithTimeout bufSize
    dsimp only
    rw [List.take_of_length_le hbytes]
  have hnul : (0 : Byte) ∉ statusReply config clients := by
    rw [statusReply_eq hlen]
    intro h0
    obtain ⟨text, htext, h0⟩ := List.mem_flatten.mp h0
    obtain ⟨line, hline, rfl⟩ := List.mem_map.mp htext
    rcases List.mem_append.mp h0 with h0 | h0
    · exact (hlines line hline).2.2 h0
    · exact absurd (List.mem_singleton.mp h0) (by decide)
  have htokens : tokens (· == 10) (statusReply config clients) = statusLines config clients := by
    rw [statusReply_eq hlen]
    refine tokens_lines rfl fun line hline => ⟨(hlines line hline).1, fun x hx => ?_⟩
    exact beq_eq_false_iff_ne.mpr fun heq => (hlines line hline).2.1 (heq ▸ hx)
  have hcount : (statusLines config clients).length ≤ maxLines - 1 := by
    unfold statusLines headerLines maxLines
    rw [List.length_append, List.length_map]
    have := List.length_filter_le Client.live clients
    simp only [List.length_cons, List.length_nil]
    unfold wdMaxClients at *
    omega
  rw [hread]
  refine ⟨?_, ?_⟩
  · have hpos : statusReply config clients ≠ [] := by
      rw [statusReply_eq hlen]
      exact nofun
    have := List.length_pos_iff.mpr hpos
    show (0 : Int) < (statusReply config clients).length
    omega
  · unfold splitLines
    rw [cstr_eq_self hnul, htokens, List.take_of_length_le hcount]

-- ── rows ──────────────────────────────────────────────────────────────────────

/-- A line without blanks is no row unless its seventeenth character begins a number that
    ends before the line does. -/
theorem scanRow_eq_none {line : List Byte} (hword : ∀ b ∈ line, isspace b = false)
    (h : ∀ r, scanNumeral (line.drop 16) = some r → r.2.2 = []) : scanRow line = none := by
  cases hline : line with
  | nil => rfl
  | cons b bs =>
      rw [← hline]
      have hne : line.take 16 ≠ [] := by rw [hline]; exact nofun
      have hend : (line.take 16).length = 16 ∨ ∀ b ∈ (line.drop 16).head?, isspace b = true := by
        rcases Nat.lt_or_ge line.length 16 with hlt | hge
        · rw [List.drop_eq_nil_of_le (Nat.le_of_lt hlt)]
          exact Or.inr (by simp)
        · exact Or.inl (List.length_take_of_le hge)
      have hread := @sscanf_str_word 16 [.space, .int, .space, .str 63, .space, .uint] []
        (line.take 16) (line.drop 16) (List.forall_mem_nil _) hne
        (fun b hb => hword b (List.mem_of_mem_take hb)) (List.length_take_le _ _) hend
      rw [List.nil_append, List.take_append_drop] at hread
      have hskip : (line.drop 16).dropWhile isspace = line.drop 16 := by
        refine List.dropWhile_eq_self_iff.mpr fun hpos => ?_
        rw [hword _ (List.mem_of_mem_drop (List.getElem_mem hpos))]
        exact Bool.false_ne_true
      unfold scanRow rowFormat
      rw [hread, sscanf_space_int, sscanf, hskip]
      cases hscan : scanNumeral (line.drop 16) with
      | none => rfl
      | some r =>
          obtain ⟨neg, digits, rest⟩ := r
          obtain rfl : rest = [] := h _ hscan
          rfl

/-- Digits are a number to their end. -/
theorem scanNumeral_digits {s : List Byte} (hs : ∀ b ∈ s, isdigit b = true) :
    ∀ r, scanNumeral s = some r → r.2.2 = [] := by
  rintro ⟨neg, ds, rest⟩ hscan
  obtain ⟨sign, rfl, -, -, -, hend⟩ := scanNumeral_some hscan
  cases rest with
  | nil => rfl
  | cons b rest =>
      have hb := hs b (by simp)
      rw [hend b rfl] at hb
      exact Bool.noConfusion hb

/-- **NO HEADER LINE IS A ROW**, whatever its value. -/
theorem scanRow_header (config : Config) (n : Nat) :
    ∀ line ∈ headerLines config n, scanRow line = none := by
  have hplain := headerLines_plain config n
  unfold headerLines at hplain ⊢
  simp only [List.forall_mem_cons] at hplain ⊢
  obtain ⟨-, -, hwd, hreboot, -, -, hactive, -⟩ := hplain
  have hdigits : ∀ z : Int, ∀ b ∈ (decimalInt z).drop 3, isdigit b = true := by
    intro z b hb
    unfold decimalInt at hb
    split at hb
    · exact decimal_isdigit _ b (List.mem_of_mem_drop hb)
    · exact decimal_isdigit _ b (List.mem_of_mem_drop hb)
  refine ⟨by decide, by decide, ?_, ?_, ?_, ?_, ?_, List.forall_mem_nil _⟩
  · -- the key and the `=` are 13 characters
    refine scanRow_eq_none (fun b hb => (hwd.2 b hb).2) ?_
    exact scanNumeral_digits (hdigits config.wdTimeoutS)
  · -- the key is 16 characters: the number would have to begin with `=`
    refine scanRow_eq_none (fun b hb => (hreboot.2 b hb).2) fun r hscan => ?_
    have hnone : scanNumeral (61 :: decimalInt config.rebootTimeoutS) = none := rfl
    exact nomatch hnone.symm.trans hscan
  · cases config.strictClients <;> decide
  · cases config.uniqueClients <;> decide
  · refine scanRow_eq_none (fun b hb => (hactive.2 b hb).2) ?_
    exact scanNumeral_digits fun b hb => decimal_isdigit _ b (List.mem_of_mem_drop hb)

/-- The ID and the PID of a row are read as they were written, whatever the format
    reads from the name on. -/
theorem scan_front (hid : IsClientID c.clientID) (ds : List Directive) (rest : List Byte) :
    ∃ pid, sscanf (.str 16 :: .space :: .int :: .space :: .str 63 :: ds) (rowFront c ++ rest)
        = .str c.clientID.chars :: .int pid :: sscanf (.str 63 :: ds) (32 :: rest) ∧
      (-2 ^ 31 ≤ c.pid → c.pid < 2 ^ 31 → pid = c.pid) := by
  have hword : ∀ b ∈ c.clientID.chars, isspace b = false := fun b hb =>
    not_isspace_of_isxdigit b (isxdigit_of_isLowerHex b (hid.2 b hb))
  obtain ⟨pid, hpid, hrange⟩ := @sscanf_int_decimal (.space :: .str 63 :: ds) [32]
    (32 :: rest) c.pid isspace_blank (by rintro b ⟨⟩; rfl)
  refine ⟨pid, ?_, hrange⟩
  have hread := @sscanf_str_word 16 (.space :: .int :: .space :: .str 63 :: ds) []
    c.clientID.chars (32 :: (decimalInt c.pid ++ (32 :: rest))) (List.forall_mem_nil _)
    (fun h => by have := hid.1; rw [h] at this; exact absurd this (by decide)) hword
    (Nat.le_of_eq hid.1) (Or.inl hid.1)
  unfold rowFront
  rw [List.append_assoc, List.cons_append, List.append_assoc, List.singleton_append,
    ← List.nil_append (c.clientID.chars ++ _), hread, sscanf_space_int]
  exact congrArg _ (hpid.trans (congrArg _ (sscanf_space_str 63 _ _)))

/-- What a table holds for the row of a slot. -/
structure RowOk (c : Client) : Prop where
  clientID : IsClientID c.clientID
  pid : -2 ^ 31 ≤ c.pid ∧ c.pid < 2 ^ 31
  name : c.name.chars ≠ [] ∧ ∀ b ∈ c.name.chars, isspace b = false
  timeout : c.timeoutMs < 2 ^ 32

theorem RowOk.oneLine (h : RowOk c) : OneLine c :=
  ⟨h.clientID, fun h10 => absurd (h.name.2 10 h10) (by decide)⟩

/-- The row of a slot. -/
def rowOf (c : Client) : Row := ⟨c.clientID.chars, c.pid, c.name.chars, c.timeoutMs⟩

/-- `checkPID` as the row has it. -/
def flagText (c : Client) : List Byte := if c.checkPID then bytes "1" else bytes "0"

/-- The first four fields of a row are read as they were written. -/
theorem scan_row (h : RowOk c) (ds : List Directive) :
    sscanf (.str 16 :: .space :: .int :: .space :: .str 63 :: .space :: .uint :: ds) (rowLine c)
      = .str c.clientID.chars :: .int c.pid :: .str c.name.chars :: .uint c.timeoutMs ::
          sscanf ds (32 :: flagText c) := by
  obtain ⟨pid, hfront, hpid⟩ := scan_front h.clientID (.space :: .uint :: ds)
    (c.name.chars ++ rowBack c)
  obtain rfl := hpid h.pid.1 h.pid.2
  have hname := @sscanf_str_word 63 (.space :: .uint :: ds) [32] c.name.chars (rowBack c)
    isspace_blank h.name.1 h.name.2 (Nat.le_of_lt_succ c.name.fits)
    (Or.inr (by rintro b ⟨⟩; rfl))
  have htimeout := @sscanf_uint_decimal ds [32] (32 :: flagText c) c.timeoutMs isspace_blank
    h.timeout (by rintro b ⟨⟩; rfl)
  unfold rowLine
  rw [hfront, ← List.singleton_append (x := (32 : Byte)), hname, sscanf_space_uint]
  unfold rowBack
  rw [← List.singleton_append (x := (32 : Byte))]
  exact congrArg (fun vs => Value.str _ :: .int _ :: .str _ :: vs) htimeout

theorem scanRow_rowLine (h : RowOk c) : scanRow (rowLine c) = some (rowOf c) := by
  unfold scanRow rowFormat
  rw [scan_row h []]
  rfl

/-- **STATUS ROWS DECODE BACK TO THE TABLE**: of the lines that `wd-ctrl` gets, exactly the
    rows of the live slots match, in slot order and with their values, and no header line
    ever does. -/
theorem status_rows_decode (config : Config) (t : Table)
    (h : ∀ c ∈ t.slots, c.live = true → RowOk c)
    (hlen : (statusMsg config t.slots).offset ≤ 4095) :
    splitLines (sendAndReceive (.reads (.packet (statusReply config t.slots)))).2
        = headerLines config (t.slots.countP Client.active)
          ++ (t.slots.filter Client.live).map rowLine ∧
      (splitLines (sendAndReceive (.reads (.packet (statusReply config t.slots)))).2).filterMap
        scanRow = (t.slots.filter Client.live).map rowOf ∧
      ∀ config' n, ∀ line ∈ headerLines config' n, scanRow line = none := by
  have hlines := (split_status (Nat.le_of_eq t.size)
    (fun c hc hlive => (h c hc hlive).oneLine) hlen).2
  have hrows : ((t.slots.filter Client.live).map rowLine).filterMap scanRow
      = (t.slots.filter Client.live).map rowOf := by
    rw [List.filterMap_map, ← List.filterMap_eq_map]
    refine List.filterMap_congr fun c hc => ?_
    obtain ⟨hmem, hlive⟩ := List.mem_filter.mp hc
    exact scanRow_rowLine (h c hmem hlive)
  refine ⟨hlines, ?_, scanRow_header⟩
  rw [hlines, statusLines, List.filterMap_append,
    List.filterMap_eq_nil_iff.mpr (scanRow_header _ _), hrows, List.nil_append]

/-- A registered client, and a table that holds it. -/
def plainClient : Client :=
  { Client.zero with
    clientID := makeClientID (Vector.replicate 8 0)
    name := CStr.strncpy wdClientNameLen (bytes "a")
    pid := 7
    timeoutMs := 5000
    active := true }

def plainTable : Table := Table.zero.update 3 fun _ => plainClient

theorem status_rows_decode_plain :
    (splitLines (sendAndReceive (.reads (.packet
      (statusReply WdConfig.Parse.init.config plainTable.slots)))).2).filterMap scanRow
        = [⟨bytes "0000000000000000", 7, bytes "a", 5000⟩] := by
  have hlive : plainTable.slots.filter Client.live = [plainClient] := by decide
  have hok : ∀ c ∈ plainTable.slots, c.live = true → RowOk c := by
    intro c hc hl
    have hmem := List.mem_filter.mpr ⟨hc, hl⟩
    rw [hlive] at hmem
    obtain rfl := List.mem_singleton.mp hmem
    have hname : plainClient.name.chars.all (fun b => !isspace b) = true := by decide
    exact ⟨makeClientID_isClientID _, by decide, ⟨by decide, by simpa using hname⟩, by decide⟩
  have h := (status_rows_decode WdConfig.Parse.init.config plainTable hok (by decide)).2.1
  rw [hlive] at h
  exact h

end WdCtrl
