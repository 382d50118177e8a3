import WdBroker.DisplayProofs
import WdBroker.LibrarySessionProofs
import WdBroker.SupervisionProofs

/-! # `wd-ctrl` as a whole

    `main` of the control tool from its options to its exit, as a program over the calls
    that it makes, and the broker that serves others meanwhile.  Every command begins with
    a STATUS of its own; `reboot` and `unregister` send a second one, and the tool reads
    both answers into the same buffer.

    * `tool_sends` — what it may send, whatever it is told: nothing unless it runs as
      root, STATUS first, and then REBOOT or the UNREGISTER of a client in the answer;
    * `tool_truthful` — if it exits with success then the broker has done what was asked
      for and the tool has printed what it did; if not, then nothing the broker has
      answered has changed anything. -/

namespace WdTool

open CString Scanf Snprintf WdClock WdTable WdClientID WdStatus WdConfig WdCommand WdReach WdReplies
open WdSupervision WdCtrl WdUnregister WdDisplay WdLibrary Program Prog

-- ── options and texts ─────────────────────────────────────────────────────────

/-- What `getopt_long` returns. -/
inductive Opt where
  | help
  | version
  | socketPath (arg : List Byte)
  | unknown

/-- What a run leaves behind: the text on stdout and stderr, and whether it exits with
    `EXIT_SUCCESS`. -/
structure Report where
  out : List Byte
  err : List Byte
  success : Bool

/-- `print_help`. -/
def printHelp : List Byte :=
  bytes "Usage: wd-ctrl [OPTIONS] <command>\n" ++
  bytes "\nOptions:\n" ++
  bytes "  --help                      Show this help message and exit\n" ++
  bytes "  --version                   Show version information and exit\n" ++
  bytes "  --socket-path <path>        Use custom socket path (default: " ++
  socketPathDefault ++ bytes ")\n" ++
  bytes "\nCommands:\n" ++
  bytes "  reboot                      Trigger the reboot failsafe\n" ++
  bytes "  status                      Show the current wd-broker status\n" ++
  bytes "  unregister <clientID|name>  Unregister a client by its ID or name\n" ++
  bytes "\nExamples:\n" ++
  bytes "  wd-ctrl status\n" ++
  bytes "  wd-ctrl unregister 4f3c0d9e8a1b4f21\n" ++
  bytes "  wd-ctrl --socket-path /run/custom.sock status\n" ++
  bytes "\n"

/-- `fatal_error`, behind what is on stderr already. -/
def fatal (err message : List Byte) : Report :=
  ⟨[], err ++ (bytes "Error: " ++ message ++ bytes "\n"), false⟩

/-- The loop over the options: the socket path, or the end of the process. -/
def parseOptions : List Byte → List Opt → Except Report (List Byte)
  | path, [] => .ok path
  | _, .help :: _ => .error ⟨printHelp, [], true⟩
  | _, .version :: _ => .error ⟨bytes "wd-ctrl v" ++ packageVersion ++ bytes "\n", [], true⟩
  | _, .socketPath arg :: rest => parseOptions arg rest
  | _, .unknown :: _ => .error ⟨printHelp, [], false⟩

-- ── the exchanges ─────────────────────────────────────────────────────────────

/-- `send_and_receive` up to its result: what it prints to stderr, and how it went. -/
def sendAndReceive (socketPath cmd : List Byte) : Lib (List Byte × Exchange) := do
  let sock ← call .socket
  match sock with
  | none => do
      let e ← call .strerror
      pure (bytes "Error: socket() failed: " ++ e ++ bytes "\n", .fails)
  | some sock => do
      let connected ← call (.connect sock (socketPath.take (wdClientSockpathLen - 1)))
      if connected then do
        let sent ← call (.write sock cmd)
        if sent then do
          let incoming ← call (.read sock)
          call (.close sock)
          pure ([], .reads incoming)
        else do
          let e ← call .strerror
          call (.close sock)
          pure (bytes "Failed to send request to server: " ++ e ++ bytes "\n", .fails)
      else do
        let e ← call .strerror
        call (.close sock)
        pure (bytes "Cannot connect to server at " ++ socketPath ++ bytes ": " ++ e ++ bytes "\n",
          .fails)

/-- The result of `send_and_receive`, and the bytes of the answer. -/
def received (ex : Exchange) : Int × List Byte := WdCtrl.sendAndReceive ex

/-- `buf` behind an exchange: what is read is stored with a NUL, over what was there. -/
def store (buf : List Byte) (ex : Exchange) : List Byte :=
  if (received ex).2 = [] then buf
  else (received ex).2 ++ 0 :: buf.drop ((received ex).2.length + 1)

/-- `buf` behind `n` calls of `strtok_r(…, "\n", …)`: each ends its token with a NUL. -/
def strtokR : Nat → List Byte → List Byte
  | 0, buf => buf
  | n + 1, buf =>
      let rest := buf.dropWhile (· == 10)
      let token := rest.takeWhile fun b => b != 10 && b != 0
      match rest.drop token.length with
      | 10 :: more => buf.takeWhile (· == 10) ++ token ++ 0 :: strtokR n more
      | _ => buf

-- ── the commands ──────────────────────────────────────────────────────────────

/-- The branch `reboot`, behind its exchange. -/
def rebootReport (err buf : List Byte) : Report :=
  if strncmpEq (cstr buf) (bytes "OK") 2 then
    ⟨bytes "Reboot failsafe activated, timeout: " ++ decimalInt (atoi (cstr (buf.drop 3))) ++
      bytes " seconds.\n", err, true⟩
  else fatal err (bytes "Unexpected server response.\n")

/-- The branch `unregister`, behind its exchange. -/
def unregisterReport (client buf : List Byte) : Report :=
  if strncmpEq (cstr buf) (bytes "OK") 2 then
    ⟨bytes "Client '" ++ client ++ bytes "' unregistered successfully.\n", [], true⟩
  else if strncmpEq (cstr buf) (bytes "ERROR") 5 then
    ⟨[], bytes "Server Error: " ++ cstr (buf.drop 6) ++ bytes "\n", false⟩
  else fatal [] (bytes "Unexpected server response.\n")

/-- The branch `unregister`. -/
def unregisterClient (path client buf : List Byte) (lines : List (List Byte)) : Lib Report :=
  let s := search client lines Search.init
  if s.matchCount > 1 then
    pure (fatal []
      (bytes "Client name '" ++ client ++ bytes "' is not unique, use the clientID.\n"))
  else if !s.found then
    pure (fatal [] (bytes "Unknown client (" ++ client ++ bytes ").\n"))
  else do
    let (err, second) ←
      sendAndReceive path ((cmdUnregister ++ (s.idCandidate.chars ++ bytes "\n")).take 127)
    if (received second).1 ≤ 0 then pure ⟨[], err, false⟩
    else pure (unregisterReport client (store buf second))

/-- The command in `argv[optind]`, with the lines of the STATUS reply. -/
def runCommand (path buf : List Byte) (lines : List (List Byte)) (word : List Byte)
    (rest : List (List Byte)) : Lib Report :=
  if word = bytes "reboot" then do
    let (err, second) ← sendAndReceive path cmdReboot
    pure (rebootReport err (store buf second))
  else if word = bytes "status" then
    pure ⟨(printStatus false lines).flatMap Printed.text, [], true⟩
  else
    match decide (word = bytes "unregister"), rest with
    | true, client :: _ => unregisterClient path client buf lines
    | _, _ => pure ⟨printHelp, bytes "Error: Invalid arguments.\n\n", false⟩

/-- `main`, with the options and the other arguments apart. -/
def toolMain (euid : Nat) (opts : List Opt) (args : List (List Byte)) : Lib Report :=
  match parseOptions socketPathDefault opts with
  | .error report => pure report
  | .ok path =>
      if euid ≠ 0 then pure (fatal [] (bytes "Only root is allowed to control wd-broker.\n"))
      else
        match args with
        | [] => pure ⟨printHelp, bytes "Error: Missing command.\n\n", false⟩
        | word :: rest => do
            let (err, status) ← sendAndReceive path cmdStatus
            if (received status).1 ≤ 0 then pure ⟨[], err, false⟩
            else
              let lines := splitLines (received status).2
              let buf := store (List.replicate bufSize 0) status
              runCommand path (strtokR (lines.length + 1) buf) lines word rest

-- ── one exchange ──────────────────────────────────────────────────────────────

variable {calls : Calls} {path cmd err buf : List Byte} {ex : Exchange} {report : Report}

/-- Nothing was read. -/
def Unread (ex : Exchange) : Prop := (received ex).1 ≤ 0 ∧ (received ex).2 = []

theorem received_packet {data : List Byte} (h : data ≠ []) :
    0 < (received (.reads (.packet data))).1 ∧
      (received (.reads (.packet data))).2 = data.take (bufSize - 1) ∧
      data.take (bufSize - 1) ≠ [] := by
  have hpos := List.length_pos_iff.mpr h
  have hlen : 0 < (data.take (bufSize - 1)).length := by
    rw [List.length_take]
    exact lt_min (by decide) hpos
  exact ⟨Int.natCast_pos.mpr hlen, rfl, List.length_pos_iff.mp hlen⟩

theorem unread_of_unanswered {incoming : Incoming} (h : Unanswered incoming) :
    Unread (.reads incoming) := by
  cases incoming with
  | selectFails => exact ⟨by decide, rfl⟩
  | silent => exact ⟨by decide, rfl⟩
  | readFails => exact ⟨by decide, rfl⟩
  | packet data =>
      obtain rfl := h data rfl
      exact ⟨by decide, rfl⟩

/-- **ONE EXCHANGE**: without an answer nothing was read, and nothing is stored. -/
theorem exec_sendAndReceive
    (h : Exec (sendAndReceive path cmd) calls (.done (err, ex))) :
    (Unread ex ∧ NoAnswer calls) ∨
      ∃ data, data ≠ [] ∧ ex = .reads (.packet data) ∧ err = [] ∧ Exchanged cmd data calls := by
  unfold sendAndReceive at h
  obtain ⟨sock, rest, rfl, h₁⟩ := exec_ask_bind.mp h
  cases sock with
  | none =>
      obtain ⟨e, rest, rfl, h₂⟩ := exec_ask_bind.mp h₁
      obtain ⟨rfl, heq⟩ := exec_pure_done.mp h₂
      obtain ⟨-, rfl⟩ := Prod.mk.inj heq
      exact Or.inl ⟨⟨by decide, rfl⟩, noAnswer_of_ops (by simp)⟩
  | some sock =>
      obtain ⟨connected, rest, rfl, h₂⟩ := exec_ask_bind.mp h₁
      cases connected with
      | false =>
          obtain ⟨e, rest, rfl, h₃⟩ := exec_ask_bind.mp h₂
          obtain ⟨_, rest, rfl, h₄⟩ := exec_ask_bind.mp h₃
          obtain ⟨rfl, heq⟩ := exec_pure_done.mp h₄
          obtain ⟨-, rfl⟩ := Prod.mk.inj heq
          exact Or.inl ⟨⟨by decide, rfl⟩, noAnswer_of_ops (by simp)⟩
      | true =>
          obtain ⟨sent, rest, rfl, h₃⟩ := exec_ask_bind.mp h₂
          cases sent with
          | false =>
              obtain ⟨e, rest, rfl, h₄⟩ := exec_ask_bind.mp h₃
              obtain ⟨_, rest, rfl, h₅⟩ := exec_ask_bind.mp h₄
              obtain ⟨rfl, heq⟩ := exec_pure_done.mp h₅
              obtain ⟨-, rfl⟩ := Prod.mk.inj heq
              exact Or.inl ⟨⟨by decide, rfl⟩, noAnswer_of_ops (by simp)⟩
          | true =>
              obtain ⟨incoming, rest, rfl, h₄⟩ := exec_ask_bind.mp h₃
              obtain ⟨_, rest, rfl, h₅⟩ := exec_ask_bind.mp h₄
              obtain ⟨rfl, heq⟩ := exec_pure_done.mp h₅
              obtain ⟨rfl, rfl⟩ := Prod.mk.inj heq
              by_cases hans : Unanswered incoming
              · refine Or.inl ⟨unread_of_unanswered hans, fun fd' incoming' hmem => ?_⟩
                obtain ⟨rfl, rfl⟩ : fd' = sock ∧ incoming' = incoming := by simpa using hmem
                exact hans
              · unfold Unanswered at hans
                push Not at hans
                obtain ⟨data, rfl, hdata⟩ := hans
                exact Or.inr ⟨data, hdata, rfl, rfl,
                  [⟨.socket, some sock⟩, ⟨.connect sock _, true⟩], sock,
                  noAnswer_of_ops (by simp), rfl⟩

-- ── the buffer ────────────────────────────────────────────────────────────────

/-- `strtok_r` leaves the beginning of the first token where it is. -/
theorem strtokR_front {x y : Byte} (hx : x ≠ 10 ∧ x ≠ 0) (hy : y ≠ 10 ∧ y ≠ 0) (n : Nat)
    (buf : List Byte) : ∃ more, strtokR n (x :: y :: buf) = x :: y :: more := by
  cases n with
  | zero => exact ⟨buf, rfl⟩
  | succ n =>
      have hskip : (x :: y :: buf).dropWhile (· == 10) = x :: y :: buf :=
        List.dropWhile_cons_of_neg (by simpa using hx.1)
      have hdelims : (x :: y :: buf).takeWhile (· == 10) = [] :=
        List.takeWhile_cons_of_neg (by simpa using hx.1)
      have htoken : (x :: y :: buf).takeWhile (fun b => b != 10 && b != 0)
          = x :: y :: buf.takeWhile fun b => b != 10 && b != 0 := by
        rw [List.takeWhile_cons_of_pos (by simpa using hx),
          List.takeWhile_cons_of_pos (by simpa using hy)]
      unfold strtokR
      dsimp only
      rw [hskip, hdelims, htoken]
      split
      · exact ⟨_, rfl⟩
      · exact ⟨buf, rfl⟩

/-- A STATUS reply, of whatever length, begins with `da`. -/
theorem statusReply_front (config : Config) (clients : List Client) :
    ∃ more, statusReply config clients = 100 :: 97 :: more := by
  obtain ⟨texts, htexts⟩ : ∃ texts, statusTexts config clients =
      (bytes "daemon_version=" ++ packageVersion ++ bytes "\n") :: texts := ⟨_, rfl⟩
  obtain ⟨d, hd⟩ := appendAll_prefix texts
    ((Buf.empty 4096).appendf (bytes "daemon_version=" ++ packageVersion ++ bytes "\n"))
  have hdata : (statusMsg config clients).data = 100 :: 97 :: (((bytes "daemon_version=" ++
      packageVersion ++ bytes "\n").drop 2) ++ d) := by
    unfold statusMsg
    rw [htexts]
    exact hd.symm
  have hoff : (statusMsg config clients).offset = texts.flatten.length + 21 := by
    unfold statusMsg
    rw [appendAll_offset, htexts, List.flatten_cons, List.length_append]
    show 0 + (21 + texts.flatten.length) = texts.flatten.length + 21
    omega
  show ∃ more, (statusMsg config clients).data.take (statusMsg config clients).offset = _
  rw [hdata, hoff]
  exact ⟨_, rfl⟩

/-- Without an answer to REBOOT the buffer still begins as the STATUS reply does. -/
theorem rebootReport_unread {data : List Byte} (hfront : ∃ more, data = 100 :: 97 :: more)
    (hex : Unread ex) (n : Nat) :
    (rebootReport err (store (strtokR n
      (store (List.replicate bufSize 0) (.reads (.packet data)))) ex)).success = false := by
  obtain ⟨more, rfl⟩ := hfront
  have hstore : ∃ rest, store (List.replicate bufSize 0) (.reads (.packet (100 :: 97 :: more)))
      = 100 :: 97 :: rest := by
    obtain ⟨-, hgot, hne⟩ := @received_packet (100 :: 97 :: more) (List.cons_ne_nil _ _)
    unfold store
    rw [hgot, if_neg hne]
    exact ⟨_, rfl⟩
  obtain ⟨rest, hrest⟩ := hstore
  obtain ⟨rest', hrest'⟩ := @strtokR_front 100 97 (by decide) (by decide) n rest
  have hsame : ∀ buf, store buf ex = buf := fun buf => if_pos hex.2
  have hcstr : cstr (100 :: 97 :: rest') = 100 :: 97 :: cstr rest' :=
    cstr_append (a := [100, 97]) (by decide)
  rw [hrest, hrest', hsame, rebootReport, hcstr]
  rfl

/-- The broker's answer to REBOOT, in whatever buffer. -/
theorem rebootReport_ok {n : Nat} (hn : n < 2 ^ 31) :
    rebootReport [] (store buf (.reads (.packet (bytes "OK, " ++ decimal n ++ bytes "\n"))))
      = ⟨bytes "Reboot failsafe activated, timeout: " ++ decimal n ++ bytes " seconds.\n", [],
        true⟩ := by
  have hdata : bytes "OK, " ++ decimal n ++ bytes "\n"
      = bytes "OK," ++ (32 :: (decimal n ++ bytes "\n")) := List.append_assoc _ _ _
  rw [hdata]
  obtain ⟨-, hgot, hne⟩ := @received_packet (bytes "OK," ++ (32 :: (decimal n ++ bytes "\n")))
    (by simp [bytes])
  have hfit : (bytes "OK," ++ (32 :: (decimal n ++ bytes "\n"))).length ≤ bufSize - 1 := by
    have hlen := @length_decimal_le n (by omega)
    simp only [List.length_append, List.length_cons]
    show 3 + ((decimal n).length + 1 + 1) ≤ 4095
    omega
  rw [List.take_of_length_le hfit] at hgot hne
  obtain ⟨rest, hrest⟩ : ∃ rest,
      store buf (.reads (.packet (bytes "OK," ++ (32 :: (decimal n ++ bytes "\n")))))
        = bytes "OK," ++ (32 :: (decimal n ++ bytes "\n") ++ 0 :: rest) := by
    unfold store
    rw [hgot, if_neg hne, List.append_assoc]
    exact ⟨_, rfl⟩
  have hnul : (0 : Byte) ∉ 32 :: (decimal n ++ bytes "\n") := by
    intro h0
    rcases List.mem_cons.mp h0 with h0 | h0
    · cases h0
    rcases List.mem_append.mp h0 with h0 | h0
    · exact absurd (decimal_isdigit n 0 h0) (by decide)
    · exact absurd h0 (by decide)
  -- what `buf + 3` points to
  have hread : atoi (cstr (32 :: (decimal n ++ bytes "\n") ++ 0 :: rest)) = n := by
    have hend : ∀ b ∈ (bytes "\n" ++ cstr (0 :: rest)).head?, isdigit b = false := by
      intro b hb
      obtain rfl := Option.some.inj hb
      rfl
    rw [cstr_append hnul, List.cons_append, List.append_assoc]
    exact @atoi_decimal_append [32] _ n isspace_blank hn hend
  have hint : decimalInt n = decimal n := if_neg (Int.not_lt.mpr (Int.natCast_nonneg n))
  unfold rebootReport
  rw [hrest, cstr_append (show (0 : Byte) ∉ bytes "OK," by decide),
    List.drop_left' (show (bytes "OK,").length = 3 from rfl), hread, hint]
  exact if_pos rfl

-- ── what the broker answers ───────────────────────────────────────────────────

variable {creds : Ucred} {b : Broker} {q r : Request} {reply : Reply} {rs : List Request}

/-- Root's STATUS is answered with the table, and changes nothing. -/
theorem status_answer (hroot : creds.uid = 0) (hcreds : q.creds = some creds)
    (hpacket : q.incoming = .packet cmdStatus) (hreply : (handleCommand b q).replies = [reply]) :
    FromCtrl q ∧ WdReach.command b q = b ∧
      reply.bytes = statusReply b.config b.clients.slots := by
  have hctrl : FromCtrl q := ⟨creds, hcreds, hroot, hpacket⟩
  have hhandle := @handleCommand_asksStatus b q (asksStatus_ctrl hctrl)
  refine ⟨hctrl, congrArg Outcome.broker hhandle, ?_⟩
  rw [hhandle] at hreply
  obtain rfl := List.singleton_inj.mp hreply
  rfl

/-- Root's REBOOT is answered with the timeout. -/
theorem reboot_answer (hroot : creds.uid = 0) (hcreds : r.creds = some creds)
    (hpacket : r.incoming = .packet cmdReboot) (hreply : (handleCommand b r).replies = [reply]) :
    Reboots r ∧
      reply = .text (bytes "OK, " ++ decimalInt b.config.rebootTimeoutS ++ bytes "\n") := by
  have hbuf : r.buf = some (cmdReboot ++ []) :=
    buf_of_packet hpacket (by decide) (by decide) (by decide)
  have hextra : hasExtra 15 (cmdReboot ++ []) cmdReboot = false :=
    (hasExtra_eq_false (by decide)).mpr (List.forall_mem_nil _)
  refine ⟨⟨creds, [], hcreds, hroot, hbuf, List.forall_mem_nil _⟩, ?_⟩
  rw [handleCommand_reboot hcreds hbuf, handleReboot, hextra, hroot] at hreply
  exact (List.singleton_inj.mp hreply).symm

theorem length_unregisterCmd (id : CStr wdClientIDLen) : (unregisterCmd id.chars).length ≤ 127 := by
  have hlen : id.chars.length < 17 := id.fits
  unfold unregisterCmd
  rw [List.length_append, List.length_append]
  show 11 + (id.chars.length + 1) ≤ 127
  omega

/-- `cmd[128]` holds the whole command. -/
theorem take_unregisterCmd (id : CStr wdClientIDLen) :
    (cmdUnregister ++ (id.chars ++ bytes "\n")).take 127 = unregisterCmd id.chars :=
  List.take_of_length_le (length_unregisterCmd id)

/-- The packet of an UNREGISTER, as it is read. -/
theorem buf_unregisterCmd {id : CStr wdClientIDLen}
    (hpacket : r.incoming = .packet (unregisterCmd id.chars)) :
    r.buf = some (cmdUnregister ++ (id.chars ++ bytes "\n")) := by
  refine buf_of_packet hpacket (by simp [cmdUnregister, bytes]) (length_unregisterCmd id) ?_
  intro h0
  rcases List.mem_append.mp h0 with h0 | h0
  · exact absurd h0 (by decide)
  rcases List.mem_append.mp h0 with h0 | h0
  · exact id.noNul h0
  · exact absurd h0 (by decide)

/-- An UNREGISTER is refused, or it releases the slot of a live client that is named. -/
theorem unregister_answer {id : CStr wdClientIDLen} (hcreds : r.creds = some creds)
    (hpacket : r.incoming = .packet (unregisterCmd id.chars))
    (hreply : (handleCommand b r).replies = [reply]) :
    (∃ msg, IsError msg ∧ reply = .text msg ∧ WdReach.command b r = b) ∨
      ∃ (s : List Byte) (i : Nat) (c : Client), reply = .text (bytes "OK" ++ s) ∧
        b.clients.slots[i]? = some c ∧ c.live = true ∧
        Names (id.chars ++ bytes "\n") c.clientID ∧ Unregisters r creds c.clientID ∧
        WdReach.command b r = { b with clients := b.clients.update i unregisterSlot } := by
  have hbuf := buf_unregisterCmd hpacket
  rcases reply_cases (Or.inr (Or.inr ⟨_, hbuf⟩)) hreply with
    ⟨msg, hmsg, rfl, hsame⟩ | ⟨s, rfl, hevent⟩
  · exact Or.inl ⟨msg, hmsg, rfl, congrArg Outcome.broker hsame⟩
  · obtain ⟨i, c, hslot, hlive, hnames, hdone⟩ :=
      @performed_id creds b ⟨CStr.empty _, CStr.empty _, id, CStr.empty _⟩
        ⟨CStr.empty _, CStr.empty _, id, CStr.empty _⟩ .unregister cmdUnregister r
        (Or.inr ⟨rfl, rfl⟩) hbuf hevent
    exact Or.inr ⟨s, i, c, rfl, hslot, hlive, hnames, ⟨_, hcreds, hbuf, hnames⟩, hdone⟩

/-- The string in the buffer is the one that was read. -/
theorem cstr_store {data : List Byte} (hdata : data ≠ []) :
    cstr (store buf (.reads (.packet data))) = cstr (data.take (bufSize - 1)) := by
  obtain ⟨-, hgot, hne⟩ := received_packet hdata
  unfold store
  rw [hgot, if_neg hne]
  by_cases h0 : (0 : Byte) ∈ data.take (bufSize - 1)
  · exact cstr_append_of_mem h0
  · rw [cstr_append h0, cstr_eq_self h0]
    exact List.append_nil _

/-- What is printed about an UNREGISTER says what the broker has answered. -/
theorem unregisterReport_packet (client : List Byte) {data : List Byte} (hdata : data ≠ []) :
    (bytes "OK" <+: data → unregisterReport client (store buf (.reads (.packet data))) =
      ⟨bytes "Client '" ++ client ++ bytes "' unregistered successfully.\n", [], true⟩) ∧
    (¬ bytes "OK" <+: data →
      (unregisterReport client (store buf (.reads (.packet data)))).success = false) := by
  have hok : strncmpEq (cstr (store buf (.reads (.packet data)))) (bytes "OK") 2 = true ↔
      bytes "OK" <+: data := by
    rw [cstr_store hdata]
    exact begins_iff (by decide) (by decide)
  unfold unregisterReport
  constructor
  · exact fun h => if_pos (hok.mpr h)
  · intro h
    rw [if_neg (mt hok.mp h)]
    split <;> rfl

-- ── the second exchange ───────────────────────────────────────────────────────

variable {sent : Option (List Byte)} {data a : List Byte} {lines : List (List Byte)}

/-- `reboot`: it succeeds on the answer of a broker that reboots, and on nothing else. -/
theorem reboot_carried {rest : List (List Byte)} {n : Nat} (hroot : creds.uid = 0)
    (hb : WellFormed b) (hfront : ∃ more, data = 100 :: 97 :: more)
    (hexec : Exec (runCommand path
      (strtokR n (store (List.replicate bufSize 0) (.reads (.packet data)))) lines
      (bytes "reboot") rest) calls (.done report))
    (htalk : Talks creds b sent calls rs) :
    (report.success = true → ∃ before r after, rs = before ++ r :: after ∧
      r.creds = some creds ∧ Reboots r ∧
      report.out = bytes "Reboot failsafe activated, timeout: " ++
        decimalInt b.config.rebootTimeoutS ++ bytes " seconds.\n") ∧
    (report.success = false → Harmless creds b calls rs) := by
  unfold runCommand at hexec
  rw [if_pos rfl] at hexec
  obtain ⟨first, ⟨err, ex⟩, last, rfl, hsend, hlast⟩ := exec_bind_done.mp hexec
  obtain ⟨rfl, rfl⟩ := exec_pure_done.mp hlast
  rw [List.append_nil] at htalk ⊢
  rcases exec_sendAndReceive hsend with ⟨hun, hno⟩ | ⟨data', hdata', rfl, rfl, hex⟩
  · have hfail := @rebootReport_unread err ex data hfront hun n
    refine ⟨fun hok => ?_, fun _ => harmless_of_noAnswer hno⟩
    rw [hfail] at hok
    exact Bool.noConfusion hok
  · obtain ⟨before, r, after, reply, rfl, hcreds, hpacket, hreply, rfl⟩ :=
      exchanged_handled hex htalk hdata'
    obtain ⟨hreboots, rfl⟩ := reboot_answer hroot hcreds hpacket hreply
    rw [commands_config]
    -- the timeout is a number that `atoi` reads back
    obtain ⟨k, hk, hsmall⟩ : ∃ k : Nat, b.config.rebootTimeoutS = k ∧ k < 2 ^ 31 := by
      obtain ⟨-, hlo, hhi⟩ := hb.range
      unfold wdRebootTimeoutMinS at hlo
      unfold wdRebootTimeoutMaxS at hhi
      exact ⟨b.config.rebootTimeoutS.toNat, by omega, by omega⟩
    have hint : decimalInt b.config.rebootTimeoutS = decimal k := by
      rw [hk]
      exact if_neg (Int.not_lt.mpr (Int.natCast_nonneg k))
    have hreport := @rebootReport_ok (strtokR n
      (store (List.replicate bufSize 0) (.reads (.packet data)))) k hsmall
    rw [show (Reply.text (bytes "OK, " ++ decimalInt b.config.rebootTimeoutS ++ bytes "\n")).bytes
      = bytes "OK, " ++ decimal k ++ bytes "\n" by rw [hint]; rfl, hreport, hint]
    exact ⟨fun _ => ⟨before, r, after, rfl, hcreds, hreboots, rfl⟩, fun hno => Bool.noConfusion hno⟩

/-- `unregister`: it succeeds if the broker has released a slot of the ID that was found. -/
theorem unregister_carried
    (hexec : Exec (unregisterClient path a buf lines) calls (.done report))
    (htalk : Talks creds b sent calls rs) :
    (report.success = true → ∃ (before : List Request) (r : Request) (after : List Request)
        (id : CStr wdClientIDLen) (i : Nat) (c : Client), rs = before ++ r :: after ∧
      addressed a (keys lines) = some id.chars ∧ Names (id.chars ++ bytes "\n") c.clientID ∧
      Unregisters r creds c.clientID ∧ (commands b before).clients.slots[i]? = some c ∧
      c.live = true ∧ WdReach.command (commands b before) r =
        { commands b before with
          clients := (commands b before).clients.update i unregisterSlot } ∧
      report.out = bytes "Client '" ++ a ++ bytes "' unregistered successfully.\n") ∧
    (report.success = false → Harmless creds b calls rs) := by
  -- the search, and the command that is built from it
  have hfound : addressed a (keys lines) =
      if (search a lines Search.init).matchCount ≤ 1 ∧ (search a lines Search.init).found = true
      then some (search a lines Search.init).idCandidate.chars else none := by
    rw [search_eq]
    rfl
  unfold unregisterClient at hexec
  generalize search a lines Search.init = s at hexec hfound
  dsimp only at hexec
  split at hexec
  · obtain ⟨rfl, rfl⟩ := exec_pure_done.mp hexec
    exact ⟨fun hok => Bool.noConfusion hok,
      fun _ => harmless_of_noAnswer (noAnswer_of_ops (by simp))⟩
  next hcount =>
  split at hexec
  · obtain ⟨rfl, rfl⟩ := exec_pure_done.mp hexec
    exact ⟨fun hok => Bool.noConfusion hok,
      fun _ => harmless_of_noAnswer (noAnswer_of_ops (by simp))⟩
  next hfind =>
  rw [if_pos ⟨Nat.not_lt.mp hcount, by simpa using hfind⟩] at hfound
  rw [take_unregisterCmd] at hexec
  obtain ⟨first, ⟨err, ex⟩, last, rfl, hsend, hlast⟩ := exec_bind_done.mp hexec
  dsimp only at hlast
  rcases exec_sendAndReceive hsend with ⟨hun, hno⟩ | ⟨data, hdata, rfl, rfl, hex⟩
  · rw [if_pos hun.1] at hlast
    obtain ⟨rfl, rfl⟩ := exec_pure_done.mp hlast
    rw [List.append_nil]
    exact ⟨fun hok => Bool.noConfusion hok, fun _ => harmless_of_noAnswer hno⟩
  · rw [if_neg (Int.not_le.mpr (received_packet hdata).1)] at hlast
    obtain ⟨rfl, rfl⟩ := exec_pure_done.mp hlast
    rw [List.append_nil] at htalk ⊢
    obtain ⟨before, r, after, reply, rfl, hcreds, hpacket, hreply, rfl⟩ :=
      exchanged_handled hex htalk hdata
    obtain ⟨hyes, hno⟩ := @unregisterReport_packet buf a _ hdata
    rcases unregister_answer hcreds hpacket hreply with
      ⟨msg, hmsg, rfl, hsame⟩ | ⟨text, i, c, rfl, hslot, hlive, hnames, hreq, hdone⟩
    · rw [hno (not_ok_of_isError hmsg)]
      exact ⟨fun hok => Bool.noConfusion hok,
        fun _ => harmless_exchanged hex hcreds hpacket hreply rfl hsame⟩
    · rw [hyes ⟨text, rfl⟩]
      exact ⟨fun _ => ⟨before, r, after, s.idCandidate, i, c, rfl, hfound, hnames, hreq, hslot,
        hlive, hdone, rfl⟩, fun hno => Bool.noConfusion hno⟩

-- ── a run of the tool ─────────────────────────────────────────────────────────

/-- **A RUN**: it gets no answer to its STATUS, and fails; or it goes on with the answer. -/
theorem exec_toolMain {euid : Nat} {opts : List Opt} {args : List (List Byte)}
    (hpath : parseOptions socketPathDefault opts = .ok path)
    (h : Exec (toolMain euid opts args) calls (.done report)) :
    (report.success = false ∧ NoAnswer calls) ∨
      ∃ word rest data first second, euid = 0 ∧ args = word :: rest ∧ calls = first ++ second ∧
        data ≠ [] ∧ Exchanged cmdStatus data first ∧
        Exec (runCommand path (strtokR ((splitLines (data.take (bufSize - 1))).length + 1)
          (store (List.replicate bufSize 0) (.reads (.packet data))))
          (splitLines (data.take (bufSize - 1))) word rest) second (.done report) := by
  unfold toolMain at h
  rw [hpath] at h
  dsimp only at h
  split at h
  · obtain ⟨rfl, rfl⟩ := exec_pure_done.mp h
    exact Or.inl ⟨rfl, noAnswer_of_ops (by simp)⟩
  next heuid =>
  cases args with
  | nil =>
      obtain ⟨rfl, rfl⟩ := exec_pure_done.mp h
      exact Or.inl ⟨rfl, noAnswer_of_ops (by simp)⟩
  | cons word rest =>
      obtain ⟨first, ⟨err, status⟩, second, rfl, hsend, hsecond⟩ := exec_bind_done.mp h
      dsimp only at hsecond
      rcases exec_sendAndReceive hsend with ⟨hun, hno⟩ | ⟨data, hdata, rfl, rfl, hex⟩
      · rw [if_pos hun.1] at hsecond
        obtain ⟨rfl, rfl⟩ := exec_pure_done.mp hsecond
        rw [List.append_nil]
        exact Or.inl ⟨rfl, hno⟩
      · rw [if_neg (Int.not_le.mpr (received_packet hdata).1), (received_packet hdata).2.1]
          at hsecond
        exact Or.inr ⟨word, rest, data, first, second, not_not.mp heuid, rfl, rfl, hdata, hex,
          hsecond⟩

/-- What a run that exits with success stands for, and what it has printed. -/
inductive Carried (creds : Ucred) (b : Broker) (rs : List Request) :
    List (List Byte) → List Byte → Prop
  | status {rest : List (List Byte)} {before after : List Request} {q : Request}
      (hrs : rs = before ++ q :: after) (hq : FromCtrl q) :
      Carried creds b rs (bytes "status" :: rest) (statusOutcome (.reads (.packet
        (statusReply (commands b before).config (commands b before).clients.slots)))).out
  | reboot {rest : List (List Byte)} {before after : List Request} {r : Request}
      (hrs : rs = before ++ r :: after) (hcreds : r.creds = some creds) (hr : Reboots r) :
      Carried creds b rs (bytes "reboot" :: rest)
        (bytes "Reboot failsafe activated, timeout: " ++ decimalInt b.config.rebootTimeoutS ++
          bytes " seconds.\n")
  | unregister {a : List Byte} {rest : List (List Byte)} {before mid after : List Request}
      {q r : Request} {i : Nat} {c : Client} (hrs : rs = before ++ q :: (mid ++ r :: after))
      (hq : FromCtrl q) (hr : Unregisters r creds c.clientID)
      (hslot : (commands b (before ++ q :: mid)).clients.slots[i]? = some c)
      (hlive : c.live = true)
      (hdone : WdReach.command (commands b (before ++ q :: mid)) r =
        { commands b (before ++ q :: mid) with
          clients := (commands b (before ++ q :: mid)).clients.update i unregisterSlot })
      (hmeant : (statusMsg (commands b before).config (commands b before).clients.slots).offset
          ≤ 4095 → Clear (commands b before).clients.slots a →
        intended (commands b before).clients.slots a = some c.clientID.chars) :
      Carried creds b rs (bytes "unregister" :: a :: rest)
        (bytes "Client '" ++ a ++ bytes "' unregistered successfully.\n")

theorem statusOutcome_packet {data : List Byte} (hdata : data ≠ []) :
    (statusOutcome (.reads (.packet data))).out =
      (printStatus false (splitLines (data.take (bufSize - 1)))).flatMap Printed.text := by
  have hpos := (received_packet hdata).1
  have hprints : ctrlPrints (.reads (.packet data)) =
      printStatus false (splitLines (data.take (bufSize - 1))) :=
    if_neg (Int.not_le.mpr hpos)
  unfold statusOutcome
  rw [hprints]

/-- The ID that is meant is that of a live client. -/
theorem intended_live {clients : List Client} {x : List Byte} (h : intended clients a = some x) :
    ∃ c ∈ clients, c.live = true ∧ c.clientID.chars = x := by
  unfold intended at h
  split at h
  · next hany =>
    obtain ⟨c, hc, hid⟩ := List.any_eq_true.mp hany
    obtain ⟨hmem, hlive⟩ := List.mem_filter.mp hc
    exact ⟨c, hmem, hlive, (of_decide_eq_true hid).trans (Option.some.inj h)⟩
  · obtain ⟨c, hc, hid⟩ := Option.map_eq_some_iff.mp h
    have hmem : c ∈ (clients.filter Client.live).filter fun c => c.name.chars = a :=
      only_eq_some_iff.mp hc ▸ List.mem_singleton_self c
    obtain ⟨hc', hlive⟩ := List.mem_filter.mp (List.mem_filter.mp hmem).1
    exact ⟨c, hc', hlive, hid⟩

theorem reachable_commands (hb : Reachable b) (rs : List Request) : Reachable (commands b rs) := by
  obtain ⟨file, clock, raws, b₀, rs₀, hboot, rfl⟩ := hb
  exact ⟨file, clock, raws, b₀, rs₀ ++ rs, hboot, (commands_append b₀ rs₀ rs).symm⟩

/-- The client that is released is the one that was meant. -/
theorem released_intended {c : Client} {id : CStr wdClientIDLen} (hb : Reachable b)
    (hlen : (statusMsg b.config b.clients.slots).offset ≤ 4095) (hclear : Clear b.clients.slots a)
    (haddr : addressed a (keys (splitLines ((statusReply b.config b.clients.slots).take
      (bufSize - 1)))) = some id.chars)
    (hnames : Names (id.chars ++ bytes "\n") c.clientID) :
    intended b.clients.slots a = some c.clientID.chars := by
  have hnamed := named_of_reachable hb
  have hone : ∀ c ∈ b.clients.slots, c.live = true → OneLine c := fun c hc hlive =>
    ⟨(hnamed c hc hlive).clientID, (hnamed c hc hlive).line⟩
  obtain ⟨-, hlines⟩ := split_status (Nat.le_of_eq b.clients.size) hone hlen
  have hint : intended b.clients.slots a = some id.chars := by
    rw [← (addressed_eq_intended_iff hnamed).mpr hclear, ← haddr]
    have hsplit : splitLines ((statusReply b.config b.clients.slots).take (bufSize - 1))
      = statusLines b.config b.clients.slots := hlines
    rw [hsplit, keys_statusLines hnamed]
    rfl
  obtain ⟨c', hmem, hlive, hid⟩ := intended_live hint
  obtain rfl : c'.clientID = id := CStr.ext hid
  have hself := @names_of_isClientID _ (hnamed c' hmem hlive).clientID [] (bytes "\n")
    (List.forall_mem_nil _) (List.forall_mem_singleton.mpr rfl)
  rw [hint, Names.unique hnames hself]

/-- **THE TOOL SPEAKS THE TRUTH**: let `wd-ctrl` run to its end as any user, with any
    command, while the broker serves whomever it likes, also between the two exchanges,
    and any call of the tool may fail.  If it exits with success, the broker has answered
    its STATUS, or rebooted, or released one slot that was live up to then: that of the
    client that was meant, if the reply fits the buffer and the argument is clear.  If it
    does not, nothing that the broker has answered to it has changed anything. -/
theorem tool_truthful {opts : List Opt} {args : List (List Byte)} (hb : Reachable b)
    (hpath : parseOptions socketPathDefault opts = .ok path)
    (hexec : Exec (toolMain creds.uid opts args) calls (.done report))
    (htalk : Talks creds b none calls rs) :
    (report.success = true → Carried creds b rs args report.out) ∧
      (report.success = false → Harmless creds b calls rs) := by
  rcases exec_toolMain hpath hexec with
    ⟨hfail, hno⟩ | ⟨word, rest, data, first, second, hroot, rfl, rfl, hdata, hex, hsecond⟩
  · refine ⟨fun hok => ?_, fun _ => harmless_of_noAnswer hno⟩
    rw [hfail] at hok
    exact Bool.noConfusion hok
  obtain ⟨asked, rs₂, sent', rfl, htalk₁, htalk₂⟩ := talks_split first htalk
  obtain ⟨before, q, between, reply, rfl, hcreds, hpacket, hreply, rfl⟩ :=
    exchanged_handled hex htalk₁ hdata
  obtain ⟨hctrl, hsame, hbytes⟩ := status_answer hroot hcreds hpacket hreply
  have hfirst : Harmless creds b first (before ++ q :: between ++ rs₂) := by
    rw [List.append_assoc]
    exact harmless_exchanged hex hcreds hpacket hreply rfl hsame
  have hwell : WellFormed (commands b (before ++ q :: between)) :=
    wellFormed_commands (wellFormed_of_reachable hb) _
  by_cases hreboot : word = bytes "reboot"
  · subst hreboot
    obtain ⟨hyes, hno⟩ := reboot_carried hroot hwell
      (hbytes ▸ statusReply_front _ _) hsecond htalk₂
    refine ⟨fun hok => ?_, fun hfail => harmless_append hfirst (hno hfail)⟩
    obtain ⟨before₂, r, after, rfl, hcreds₂, hr, hout⟩ := hyes hok
    rw [commands_config] at hout
    rw [hout]
    exact .reboot (List.append_assoc _ before₂ (r :: after)).symm hcreds₂ hr
  unfold runCommand at hsecond
  rw [if_neg hreboot] at hsecond
  by_cases hstatus : word = bytes "status"
  · subst hstatus
    rw [if_pos rfl] at hsecond
    obtain ⟨rfl, rfl⟩ := exec_pure_done.mp hsecond
    refine ⟨fun _ => ?_, fun hfail => Bool.noConfusion hfail⟩
    dsimp only
    rw [← statusOutcome_packet hdata, hbytes, List.append_assoc]
    exact .status rfl hctrl
  rw [if_neg hstatus] at hsecond
  split at hsecond
  · next client rest' hword =>
    obtain rfl := of_decide_eq_true hword
    obtain ⟨hyes, hno⟩ := unregister_carried hsecond htalk₂
    refine ⟨fun hok => ?_, fun hfail => harmless_append hfirst (hno hfail)⟩
    obtain ⟨before₂, r, after, id, i, c, rfl, haddr, hnames, hr, hslot, hlive, hdone, hout⟩ :=
      hyes hok
    have hstate : before ++ q :: between ++ before₂ = before ++ q :: (between ++ before₂) := by
      rw [List.append_assoc, List.cons_append]
    rw [← commands_append, hstate] at hslot hdone
    rw [hbytes] at haddr
    rw [hout]
    refine @Carried.unregister creds b _ client rest' before (between ++ before₂) after q r i c ?_
      hctrl hr hslot hlive hdone fun hlen hclear => ?_
    · simp only [List.append_assoc, List.cons_append]
    · exact released_intended (reachable_commands hb before) hlen hclear haddr hnames
  · obtain ⟨rfl, rfl⟩ := exec_pure_done.mp hsecond
    refine ⟨fun hok => Bool.noConfusion hok, fun _ => ?_⟩
    exact harmless_append hfirst (harmless_of_noAnswer (noAnswer_of_ops (by simp)))

-- ── what it sends ─────────────────────────────────────────────────────────────

/-- The packets that were written, or should have been. -/
def written (calls : Calls) : List (List Byte) :=
  calls.filterMap fun c => match c.1 with
    | .write _ data => some data
    | _ => none

/-- A row of the reply bears the argument, as its ID or as its name, and this ID. -/
def Listed (data client : List Byte) (id : List Byte) : Prop :=
  ∃ line ∈ splitLines (data.take (bufSize - 1)), ∃ row, scanRow line = some row ∧ row.id = id ∧
    (client = row.id ∨ client = row.name)

/-- STATUS at first; then, with an answer to it, the command in the arguments. -/
def Sendable (args : List (List Byte)) (before : Calls) (cmd : List Byte) : Prop :=
  (written before = [] ∧ cmd = cmdStatus) ∨
    (written before = [cmdStatus] ∧ ∃ fd data, data ≠ [] ∧ ⟨.read fd, .packet data⟩ ∈ before ∧
      ((∃ rest, args = bytes "reboot" :: rest ∧ cmd = cmdReboot) ∨
        ∃ client rest id, args = bytes "unregister" :: client :: rest ∧ Listed data client id ∧
          cmd = unregisterCmd id))

/-- The circumstances of a call, looking back. -/
def Sends (opts : List Opt) (args : List (List Byte)) (euid : Nat) (h : Calls) : Op → Prop
  | .connect _ p => ∃ path, parseOptions socketPathDefault opts = .ok path ∧
      p = path.take (wdClientSockpathLen - 1)
  | .write _ cmd => euid = 0 ∧ Sendable args h.reverse cmd
  | _ => True

variable {h : Calls} {opts : List Opt} {args : List (List Byte)} {euid : Nat}

theorem written_cons (c : Call Op Ans) (h : Calls) :
    written (c :: h).reverse = written h.reverse ++ written [c] := by
  unfold written
  rw [List.reverse_cons, List.filterMap_append]

theorem not_received_fails : ¬ 0 < (received .fails).1 := by decide

/-- An exchange writes its command in the circumstances in which it begins, less the
    calls that make the connection. -/
theorem safe_sendAndReceive (hpath : parseOptions socketPathDefault opts = .ok path)
    (hcmd : ∀ h' : Calls, written h'.reverse = written h.reverse → h ⊆ h' →
      euid = 0 ∧ Sendable args h'.reverse cmd) :
    Safe (Sends opts args euid) (fun h' (a : List Byte × Exchange) => h ⊆ h' ∧
      (0 < (received a.2).1 → written h'.reverse = written h.reverse ++ [cmd] ∧
        ∃ fd data, data ≠ [] ∧ a.2 = .reads (.packet data) ∧ ⟨.read fd, .packet data⟩ ∈ h'))
      never h (sendAndReceive path cmd) := by
  unfold sendAndReceive
  refine safe_bind.mpr (safe_ask.mpr ⟨trivial, fun sock => ?_⟩)
  cases sock with
  | none =>
      refine safe_bind.mpr (safe_ask.mpr ⟨trivial, fun e => ?_⟩)
      refine ⟨fun x hx => by simp [hx], fun hpos => absurd hpos not_received_fails⟩
  | some sock =>
      refine safe_bind.mpr (safe_ask.mpr ⟨⟨path, hpath, rfl⟩, fun connected => ?_⟩)
      cases connected with
      | false =>
          refine safe_bind.mpr (safe_ask.mpr ⟨trivial, fun e => ?_⟩)
          refine safe_bind.mpr (safe_ask.mpr ⟨trivial, fun _ => ?_⟩)
          exact ⟨fun x hx => by simp [hx], fun hpos => absurd hpos not_received_fails⟩
      | true =>
          have hwritten : written (⟨.connect sock (path.take (wdClientSockpathLen - 1)), true⟩ ::
              ⟨.socket, some sock⟩ :: h : Calls).reverse = written h.reverse := by
            rw [written_cons, written_cons]
            exact (List.append_nil _).trans (List.append_nil _)
          have hnow := hcmd _ hwritten fun x hx => by simp [hx]
          refine safe_bind.mpr (safe_ask.mpr ⟨hnow, fun sent => ?_⟩)
          cases sent with
          | false =>
              refine safe_bind.mpr (safe_ask.mpr ⟨trivial, fun e => ?_⟩)
              refine safe_bind.mpr (safe_ask.mpr ⟨trivial, fun _ => ?_⟩)
              exact ⟨fun x hx => by simp [hx], fun hpos => absurd hpos not_received_fails⟩
          | true =>
              refine safe_bind.mpr (safe_ask.mpr ⟨trivial, fun incoming => ?_⟩)
              refine safe_bind.mpr (safe_ask.mpr ⟨trivial, fun _ => ?_⟩)
              refine ⟨fun x hx => by simp [hx], fun hpos => ⟨?_, ?_⟩⟩
              · rw [written_cons, written_cons, written_cons, hwritten]
                exact (List.append_nil _).trans (List.append_nil _)
              · obtain ⟨data, hdata, rfl, -⟩ := read_packet hpos
                exact ⟨sock, data, hdata, rfl, by simp⟩

/-- The ID of a row is a word of at most sixteen bytes of its line. -/
theorem scanRow_id {line : List Byte} {row : Row} (h : scanRow line = some row) :
    row.id.length ≤ 16 ∧ row.id ⊆ line := by
  unfold scanRow at h
  split at h
  · next id pid name timeout hscan =>
    obtain rfl := Option.some.inj h
    obtain ⟨sp, t, rest, rfl, hid, -, -, hlen, -⟩ := sscanf_str hscan
    obtain rfl := Value.str.inj hid
    exact ⟨hlen, fun x hx => by simp [hx]⟩
  · cases h

/-- What the search finds stands in a row that bears the argument. -/
theorem search_found {client : List Byte} {lines : List (List Byte)} :
    ∀ {s : Search}, (search client lines s).found = true →
      (s.found = true ∧ (search client lines s).idCandidate = s.idCandidate) ∨
        ∃ line ∈ lines, ∃ row, scanRow line = some row ∧ (client = row.id ∨ client = row.name) ∧
          (search client lines s).idCandidate = CStr.strncpy wdClientIDLen row.id := by
  induction lines with
  | nil => exact fun h => Or.inl ⟨h, rfl⟩
  | cons line lines ih =>
      intro s h
      have hlater : ∀ {s' : Search}, (search client lines s').found = true →
          (s'.found = true ∧ (search client lines s').idCandidate = s'.idCandidate) ∨
            ∃ line' ∈ line :: lines, ∃ row, scanRow line' = some row ∧
              (client = row.id ∨ client = row.name) ∧
              (search client lines s').idCandidate = CStr.strncpy wdClientIDLen row.id := by
        intro s' h'
        rcases ih h' with hsame | ⟨line', hmem, hrow⟩
        · exact Or.inl hsame
        · exact Or.inr ⟨line', List.mem_cons_of_mem line hmem, hrow⟩
      rw [search] at h ⊢
      cases hrow : scanRow line with
      | none =>
          rw [hrow] at h
          exact hlater h
      | some row =>
          rw [hrow] at h
          dsimp only at h ⊢
          by_cases hid : client = row.id
          · rw [if_pos hid] at h ⊢
            exact Or.inr ⟨line, List.mem_cons_self, row, hrow, Or.inl hid, rfl⟩
          rw [if_neg hid] at h ⊢
          by_cases hname : client = row.name
          · rw [if_pos hname] at h ⊢
            rcases hlater h with ⟨-, hsame⟩ | hfound
            · exact Or.inr ⟨line, List.mem_cons_self, row, hrow, Or.inr hname, hsame⟩
            · exact Or.inr hfound
          · rw [if_neg hname] at h ⊢
            exact hlater h

theorem listed_of_found {client : List Byte}
    (h : (search client (splitLines (data.take (bufSize - 1))) Search.init).found = true) :
    Listed data client
      (search client (splitLines (data.take (bufSize - 1))) Search.init).idCandidate.chars := by
  rcases search_found h with ⟨hno, -⟩ | ⟨line, hline, row, hrow, hclient, hid⟩
  · exact Bool.noConfusion hno
  · obtain ⟨hlen, hsub⟩ := scanRow_id hrow
    have hnul : (0 : Byte) ∉ row.id := fun h0 =>
      cstr_no_nul _ (Tokens.tokens_subset line (List.mem_of_mem_take hline) (hsub h0))
    refine ⟨line, hline, row, hrow, ?_, hclient⟩
    rw [hid]
    exact (CStr.strncpy_chars (Nat.lt_succ_of_le hlen) hnul).symm

/-- The branches, with an answer to STATUS. -/
theorem safe_runCommand {word : List Byte} {rest : List (List Byte)} {fd : Nat}
    (hroot : euid = 0) (hpath : parseOptions socketPathDefault opts = .ok path)
    (hwritten : written h.reverse = [cmdStatus]) (hdata : data ≠ [])
    (hread : ⟨.read fd, .packet data⟩ ∈ h) :
    Safe (Sends opts (word :: rest) euid) (fun _ _ => True) never h
      (runCommand path buf (splitLines (data.take (bufSize - 1))) word rest) := by
  have hsent : ∀ cmd, ((∃ rest', word :: rest = bytes "reboot" :: rest' ∧ cmd = cmdReboot) ∨
      ∃ client rest' id, word :: rest = bytes "unregister" :: client :: rest' ∧
        Listed data client id ∧ cmd = unregisterCmd id) →
      ∀ h' : Calls, written h'.reverse = written h.reverse → h ⊆ h' →
        euid = 0 ∧ Sendable (word :: rest) h'.reverse cmd := by
    intro cmd hcmd h' hsame hsub
    exact ⟨hroot, Or.inr ⟨hsame.trans hwritten, fd, data, hdata,
      List.mem_reverse.mpr (hsub hread), hcmd⟩⟩
  unfold runCommand
  split
  · next hword =>
    refine safe_bind.mpr ((safe_sendAndReceive hpath (hsent cmdReboot
      (Or.inl ⟨rest, by rw [hword], rfl⟩))).mono fun _ _ _ => trivial)
  split
  · trivial
  split
  · next client rest' hword =>
    obtain rfl := of_decide_eq_true hword
    have hlisted := @listed_of_found data client
    unfold unregisterClient
    generalize search client _ Search.init = s at hlisted ⊢
    dsimp only
    split
    · trivial
    split
    · trivial
    next hfound =>
    rw [take_unregisterCmd]
    refine safe_bind.mpr ((safe_sendAndReceive hpath (hsent _ (Or.inr ⟨client, rest', _, rfl,
      hlisted (by simpa using hfound), rfl⟩))).mono fun _ a _ => ?_)
    split <;> trivial
  · trivial

/-- The whole of `main`. -/
theorem safe_toolMain (euid : Nat) (opts : List Opt) (args : List (List Byte)) :
    Safe (Sends opts args euid) (fun _ _ => True) never [] (toolMain euid opts args) := by
  unfold toolMain
  split
  · trivial
  next path hpath =>
  split
  · trivial
  next heuid =>
  have hroot : euid = 0 := not_not.mp heuid
  cases args with
  | nil => trivial
  | cons word rest =>
      have hfirst : ∀ h' : Calls, written h'.reverse = [] → ([] : Calls) ⊆ h' →
          euid = 0 ∧ Sendable (word :: rest) h'.reverse cmdStatus :=
        fun h' hsame _ => ⟨hroot, Or.inl ⟨hsame, rfl⟩⟩
      refine safe_bind.mpr ((safe_sendAndReceive (h := []) hpath hfirst).mono fun h a hpost => ?_)
      obtain ⟨err, status⟩ := a
      dsimp only at hpost ⊢
      split
      · trivial
      next hlen =>
      obtain ⟨hwritten, fd, data, hdata, rfl, hread⟩ := hpost.2 (Int.not_le.mp hlen)
      rw [(received_packet hdata).2.1]
      exact safe_runCommand hroot hpath hwritten hdata hread

/-- **WHAT IS SENT**: in every run of `wd-ctrl`, up to any point and whatever it is told,
    a packet is written only as root; it is STATUS, and nothing was written before, or it
    is the second, behind an answer to the first, and is what the arguments ask for: REBOOT,
    or UNREGISTER with the ID of a row of that answer that bears the argument.  All
    connections are made to the path that the options give. -/
theorem tool_sends {e : Status Empty Report} (hexec : Exec (toolMain euid opts args) calls e) :
    (∀ before fd cmd sent after, calls = before ++ ⟨.write fd cmd, sent⟩ :: after →
      euid = 0 ∧ Sendable args before cmd) ∧
    ∀ before fd p connected after, calls = before ++ ⟨.connect fd p, connected⟩ :: after →
      ∃ path, parseOptions socketPathDefault opts = .ok path ∧
        p = path.take (wdClientSockpathLen - 1) := by
  constructor
  · intro before fd cmd sent after hcalls
    have hpre := safe_calls hexec (safe_toolMain euid opts args) before (.write fd cmd) sent after
      hcalls
    rwa [List.append_nil, Sends, List.reverse_reverse] at hpre
  · intro before fd p connected after hcalls
    exact safe_calls hexec (safe_toolMain euid opts args) before (.connect fd p) connected after
      hcalls

-- ── wd-ctrl unregister a ──────────────────────────────────────────────────────

theorem exec_exchange_read (path cmd data : List Byte) :
    Exec (sendAndReceive path cmd) (exchange (path.take (wdClientSockpathLen - 1)) cmd data)
      (.done ([], .reads (.packet data))) :=
  exec_ask_bind.mpr ⟨some 3, _, rfl, exec_ask_bind.mpr ⟨true, _, rfl,
    exec_ask_bind.mpr ⟨true, _, rfl, exec_ask_bind.mpr ⟨.packet data, _, rfl,
      exec_ask_bind.mpr ⟨(), [], rfl, .done _⟩⟩⟩⟩⟩

/-- The run in which one row is found and the broker answers `OK`. -/
theorem exec_unregistered {client answer : List Byte} {id : CStr wdClientIDLen} (hdata : data ≠ [])
    (hanswer : answer ≠ [])
    (hsearch : search client (splitLines (data.take (bufSize - 1))) Search.init = ⟨id, true, 1⟩)
    (hok : bytes "OK" <+: answer) :
    Exec (toolMain 0 [] [bytes "unregister", client])
      (exchange socketPathDefault cmdStatus data ++
        exchange socketPathDefault (unregisterCmd id.chars) answer)
      (.done ⟨bytes "Client '" ++ client ++ bytes "' unregistered successfully.\n", [], true⟩) := by
  have hfirst := exec_exchange_read socketPathDefault cmdStatus data
  have hsecond := exec_exchange_read socketPathDefault (unregisterCmd id.chars) answer
  refine exec_bind_done.mpr ⟨_, _, _, rfl, hfirst, ?_⟩
  dsimp only
  rw [if_neg (Int.not_le.mpr (received_packet hdata).1), (received_packet hdata).2.1]
  unfold runCommand
  rw [if_neg (by decide), if_neg (by decide)]
  show Exec (unregisterClient _ client _ _) _ _
  unfold unregisterClient
  rw [hsearch]
  dsimp only
  rw [if_neg (by decide), if_neg (by decide), take_unregisterCmd]
  refine exec_bind_done.mpr ⟨_, _, [], (List.append_nil _).symm, hsecond, ?_⟩
  dsimp only
  rw [if_neg (Int.not_le.mpr (received_packet hanswer).1),
    (unregisterReport_packet client hanswer).1 hok]
  exact .done _

def webBroker : Broker := oneClient (bytes "a")

def webID : CStr wdClientIDLen := makeClientID (Vector.replicate 8 1)

/-- A packet from root. -/
def fromRoot (cmd : List Byte) : Request :=
  ⟨some ⟨7, 0⟩, .packet cmd, Timespec.zero, Vector.replicate 8 0⟩

def webRequests : List Request := [fromRoot cmdStatus, fromRoot (unregisterCmd webID.chars)]

def webCalls : Calls :=
  exchange socketPathDefault cmdStatus (statusReply webBroker.config webBroker.clients.slots) ++
    (exchange socketPathDefault (unregisterCmd webID.chars) (bytes "OK\n") ++ [])

theorem exec_webCalls : Exec (toolMain 0 [] [bytes "unregister", bytes "a"]) webCalls
    (.done ⟨bytes "Client 'a' unregistered successfully.\n", [], true⟩) := by
  unfold webCalls
  rw [List.append_nil]
  obtain ⟨more, hfront⟩ := statusReply_front webBroker.config webBroker.clients.slots
  exact exec_unregistered (by rw [hfront]; exact List.cons_ne_nil _ _) (by decide)
    (by decide +kernel) ⟨bytes "\n", rfl⟩

theorem talks_webCalls : Talks ⟨7, 0⟩ webBroker none webCalls webRequests := by
  have hstatus : handleCommand webBroker (fromRoot cmdStatus) =
      answer webBroker (.buffer (statusMsg webBroker.config webBroker.clients.slots)) :=
    handleCommand_asksStatus (asksStatus_ctrl ⟨⟨7, 0⟩, rfl, rfl, rfl⟩)
  have hfirst : (handleCommand webBroker (fromRoot cmdStatus)).replies =
      [.buffer (statusMsg webBroker.config webBroker.clients.slots)] := by
    rw [hstatus]
    rfl
  have hsecond : (handleCommand webBroker (fromRoot (unregisterCmd webID.chars))).replies =
      [.text (bytes "OK\n")] := by
    decide +kernel
  have hsame : WdReach.command webBroker (fromRoot cmdStatus) = webBroker :=
    (@status_answer ⟨7, 0⟩ webBroker _ _ rfl rfl rfl hfirst).2.1
  have htalk : Talks ⟨7, 0⟩ (WdReach.command webBroker (fromRoot cmdStatus)) none
      (exchange socketPathDefault (unregisterCmd webID.chars)
        (Reply.text (bytes "OK\n")).bytes ++ [])
      [fromRoot (unregisterCmd webID.chars)] := by
    rw [hsame]
    exact talks_answered rfl rfl hsecond trivial
  exact talks_answered rfl rfl hfirst htalk

theorem webBroker_reachable : Reachable webBroker := (oneClient_reached (bytes "a")).reachable

theorem tool_truthful_unregister : Carried ⟨7, 0⟩ webBroker webRequests
    [bytes "unregister", bytes "a"] (bytes "Client 'a' unregistered successfully.\n") :=
  (tool_truthful webBroker_reachable rfl exec_webCalls talks_webCalls).1 rfl

theorem tool_sends_unregister :
    Sendable [bytes "unregister", bytes "a"] (webCalls.take 7) (unregisterCmd webID.chars) :=
  ((tool_sends exec_webCalls).1 (webCalls.take 7) 3 _ true (webCalls.drop 8) rfl).2

end WdTool
