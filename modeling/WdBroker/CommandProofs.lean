import WdBroker.ClientIDProofs
import WdBroker.StatusProofs

/-! # One command: `handle_command`

    Each accepted connection carries one command.  What the kernel and the clock
    contribute to a call is its `Request`: the peer's credentials, what the read
    delivers, the clock reading and the raw bytes of a new ID (a call takes at
    most one of each).  The branches follow the source; the `Outcome` is the
    broker's new state and what was written to the socket, with two ghost fields
    that no branch reads: the slot event the command amounts to, and the ID that
    `make_clientID` returned.

    `handled` is the one inversion lemma: a command leaves table and
    configuration alone, or it registers, refreshes or frees exactly one slot,
    under the guards that the constructor lists.  Every invariant is derived
    from it. -/

namespace WdCommand

open CString Scanf Snprintf WdClock WdTable WdClientID WdStatus

def cmdRegister : List Byte := bytes "REGISTER "
def cmdPing : List Byte := bytes "PING "
def cmdUnregister : List Byte := bytes "UNREGISTER "
def cmdReboot : List Byte := bytes "REBOOT"
def cmdStatus : List Byte := bytes "STATUS"
def cmdVersion : List Byte := bytes "VERSION"

-- ── what a call sees ──────────────────────────────────────────────────────────

/-- `struct ucred`, as far as it is read. -/
structure Ucred where
  pid : Int
  uid : Nat
deriving DecidableEq

/-- What `select` and `read` do on a connection: `select` fails, times out, or
    reports data; the read then fails or delivers a packet (an empty one is the
    end of the stream). -/
inductive Incoming where
  | selectFails
  | silent
  | readFails
  | packet (data : List Byte)
deriving DecidableEq

/-- `read_with_timeout`: the result, and the bytes stored in the buffer.  A
    sequenced packet is cut to the size of the buffer less one. -/
def readWithTimeout (bufferSize : Nat) : Incoming → Int × List Byte
  | .selectFails => (-1, [])
  | .silent => (0, [])
  | .readFails => (-1, [])
  | .packet data => ((data.take (bufferSize - 1)).length, data.take (bufferSize - 1))

/-- The environment of one call of `handle_command`; `creds = none` when
    `getsockopt` fails. -/
structure Request where
  creds : Option Ucred
  incoming : Incoming
  now : Timespec
  raw : Raw

/-- `buf[128]` after a read of positive length, as a C string. -/
def Request.buf (r : Request) : Option (List Byte) :=
  let (len, data) := readWithTimeout 128 r.incoming
  if len ≤ 0 then none else some (cstr data)

theorem Request.buf_no_nul {r : Request} {buf : List Byte} (h : r.buf = some buf) :
    (0 : Byte) ∉ buf := by
  unfold Request.buf at h
  simp only at h
  split at h
  · exact nomatch h
  · obtain rfl := Option.some.inj h
    exact cstr_no_nul _

/-- A packet that fits the buffer and has no NUL is read as it is. -/
theorem buf_of_packet {r : Request} {data : List Byte} (hr : r.incoming = .packet data)
    (hne : data ≠ []) (hlen : data.length ≤ 127) (hnul : (0 : Byte) ∉ data) :
    r.buf = some data := by
  have hpos : ¬ ((data.length : Int) ≤ 0) := by
    have := List.length_pos_iff.mpr hne
    omega
  unfold Request.buf readWithTimeout
  rw [hr]
  dsimp only
  rw [List.take_of_length_le hlen, if_neg hpos, cstr_eq_self hnul]

/-- What is read of a packet that begins with a keyword begins with the keyword. -/
theorem buf_of_keyword {r : Request} {cmd rest : List Byte}
    (hr : r.incoming = .packet (cmd ++ rest)) (hne : cmd ≠ []) (hlen : cmd.length ≤ 127) (hnul : (0 : Byte) ∉ cmd) :
    r.buf = some (cmd ++ cstr (rest.take (127 - cmd.length))) := by
  have htake : (cmd ++ rest).take 127 = cmd ++ rest.take (127 - cmd.length) := by
    rw [List.take_append, List.take_of_length_le hlen]
  have hpos : ¬ (((cmd ++ rest.take (127 - cmd.length)).length : Int) ≤ 0) := by
    have := List.length_pos_iff.mpr hne
    rw [List.length_append]
    omega
  unfold Request.buf readWithTimeout
  rw [hr]
  dsimp only
  rw [htake, if_neg hpos, cstr_append hnul]

/-- A message sent: formatted by `write_str`, or `offset` bytes of a buffer. -/
inductive Reply where
  | text (s : List Byte)
  | buffer (b : Buf)
deriving DecidableEq

/-- The bytes a reply delivers. -/
def Reply.bytes : Reply → List Byte
  | .text s => s
  | .buffer b => b.data.take b.offset

/-- The client table and the global variables. -/
structure Broker where
  clients : Table
  config : Config
  running : Bool
  reboot : Bool
deriving DecidableEq

/-- What a command did to a slot, with the clock reading it stored. -/
inductive SlotEvent where
  | announce (slot : Nat) (time : Timespec) (timeoutMs : Nat)
  | register (slot : Nat) (time : Timespec) (timeoutMs : Nat)
  | ping (slot : Nat) (time : Timespec)
  | unregister (slot : Nat)
deriving DecidableEq

/-- The result of a call.  `event` and `made` are ghost. -/
structure Outcome where
  broker : Broker
  replies : List Reply
  event : Option SlotEvent
  made : Option (CStr wdClientIDLen)

/-- Reply and change nothing. -/
def answer (b : Broker) (r : Reply) : Outcome := ⟨b, [r], none, none⟩

/-- `strncmp(buf, cmd, strlen(cmd)) == 0`. -/
def isCommand (buf cmd : List Byte) : Bool := strncmpEq buf cmd cmd.length

-- ── REGISTER ──────────────────────────────────────────────────────────────────

/-- `WD_REGISTER_SCANF_FORMAT`, `"%63s %u %15s %15s"`. -/
def wdRegisterScanfFormat : List Directive :=
  [.str 63, .space, .uint, .space, .str 15, .space, .str 15]

/-- The arguments of a REGISTER command. -/
structure RegisterArgs where
  name : CStr wdClientNameLen
  timeoutMs : Nat
  checkPID : Bool
deriving DecidableEq

/-- The range check on the timeout and the loop over the name. -/
def validateRegister (name : List Byte) (timeout : Nat) (checkPID : Bool) :
    Except (List Byte) RegisterArgs :=
  if timeout < wdClientTimeoutMinMs ∨ timeout > wdClientTimeoutMaxMs then
    .error (bytes "ERROR invalid timeout\n")
  else if name.any fun b => !isprint b || isspace b then
    .error (bytes "ERROR invalid client name\n")
  else .ok ⟨CStr.strncpy wdClientNameLen name, timeout, checkPID⟩

/-- The REGISTER branch up to the lookup: the arguments, or the refusal. -/
def parseRegister (buf : List Byte) : Except (List Byte) RegisterArgs :=
  match sscanf wdRegisterScanfFormat (buf.drop cmdRegister.length) with
  | [.str name, .uint timeout] => validateRegister name timeout true
  | [.str name, .uint timeout, .str optFlag] =>
      if optFlag = bytes "ignorepid" then validateRegister name timeout false
      else .error (bytes "ERROR invalid REGISTER syntax\n")
  | _ => .error (bytes "ERROR invalid REGISTER syntax\n")

/-- The assignments to the chosen slot.  An announced client got its ID while
    the configuration file was parsed. -/
def registerSlot (args : RegisterArgs) (pid : Int) (now : Timespec) (raw : Raw)
    (c : Client) : Client where
  clientID := if c.anounced then c.clientID else makeClientID raw
  name := CStr.strncpy wdClientNameLen args.name.chars
  pid := pid
  timeoutMs := args.timeoutMs
  lastPing := now
  active := true
  anounced := false
  checkPID := args.checkPID

/-- `"OK %s\n"`. -/
def okID (id : CStr wdClientIDLen) : List Byte := bytes "OK " ++ id.chars ++ bytes "\n"

/-- What a pointer to slot `i` points to. -/
def deref (t : Table) (i : Nat) : Client := t.slots.getD i Client.zero

/-- The REGISTER branch. -/
def handleRegister (b : Broker) (creds : Ucred) (buf : List Byte) (now : Timespec)
    (raw : Raw) : Outcome :=
  match parseRegister buf with
  | .error msg => answer b (.text msg)
  | .ok args =>
      match getClientInstanceByName b.config b.clients.slots args.name with
      | none => answer b (.text (bytes "ERROR rejected\n"))
      | some i =>
          let clients := b.clients.update i (registerSlot args creds.pid now raw)
          { broker := { b with clients := clients }
            replies := [.text (okID (deref clients i).clientID)]
            event := some (.register i now args.timeoutMs)
            made := if (deref b.clients i).anounced then none else some (makeClientID raw) }

-- ── PING and UNREGISTER ───────────────────────────────────────────────────────

/-- `get_now(&pClient->last_ping)`. -/
def pingSlot (now : Timespec) (c : Client) : Client := { c with lastPing := now }

/-- The slot is given up; everything but the two flags stays. -/
def unregisterSlot (c : Client) : Client := { c with active := false, anounced := false }

/-- The PING branch. -/
def handlePing (b : Broker) (creds : Ucred) (buf : List Byte) (now : Timespec) : Outcome :=
  match parseClientID buf cmdPing with
  | .error msg => answer b (.text msg)
  | .ok clientID =>
      match getClientInstanceByClientID b.clients.slots clientID creds.pid with
      | .identified i =>
          { broker := { b with clients := b.clients.update i (pingSlot now) }
            replies := [.text (bytes "OK\n")]
            event := some (.ping i now)
            made := none }
      | .pidMismatch _ => answer b (.text (bytes "ERROR wrong PID\n"))
      | .notFound => answer b (.text (bytes "ERROR unknown clientID\n"))

/-- `pClient->active = false; pClient->anounced = false;` and `OK`. -/
def release (b : Broker) (i : Nat) : Outcome where
  broker := { b with clients := b.clients.update i unregisterSlot }
  replies := [.text (bytes "OK\n")]
  event := some (.unregister i)
  made := none

/-- The UNREGISTER branch: in strict mode only root may use it, and root may use
    it on any client. -/
def handleUnregister (b : Broker) (creds : Ucred) (buf : List Byte) : Outcome :=
  match parseClientID buf cmdUnregister with
  | .error msg => answer b (.text msg)
  | .ok clientID =>
      match getClientInstanceByClientID b.clients.slots clientID creds.pid with
      | .identified i =>
          if b.config.strictClients && creds.uid != 0 then
            answer b (.text (bytes "ERROR rejected\n"))
          else release b i
      | .pidMismatch i =>
          if creds.uid == 0 then release b i
          else answer b (.text (bytes "ERROR no permission\n"))
      | .notFound => answer b (.text (bytes "ERROR unknown clientID\n"))

-- ── REBOOT, STATUS, VERSION ───────────────────────────────────────────────────

/-- `sscanf(buf + strlen(cmd), " %<width>s", extra) == 1`. -/
def hasExtra (width : Nat) (buf cmd : List Byte) : Bool :=
  (sscanf [.space, .str width] (buf.drop cmd.length)).length == 1

/-- The REBOOT branch. -/
def handleReboot (b : Broker) (creds : Ucred) (buf : List Byte) : Outcome :=
  if hasExtra 15 buf cmdReboot then answer b (.text (bytes "ERROR invalid syntax\n"))
  else if creds.uid != 0 then answer b (.text (bytes "ERROR no permission\n"))
  else
    { broker := { b with running := false, reboot := true }
      replies := [.text (bytes "OK, " ++ decimalInt b.config.rebootTimeoutS ++ bytes "\n")]
      event := none
      made := none }

/-- The STATUS branch. -/
def handleStatus (b : Broker) (creds : Ucred) (buf : List Byte) : Outcome :=
  if hasExtra 31 buf cmdStatus then answer b (.text (bytes "ERROR invalid syntax\n"))
  else if creds.pid != 0 && creds.uid != 0 then answer b (.text (bytes "ERROR no permission\n"))
  else answer b (.buffer (statusMsg b.config b.clients.slots))

/-- The VERSION branch. -/
def handleVersion (b : Broker) (buf : List Byte) : Outcome :=
  if hasExtra 31 buf cmdVersion then answer b (.text (bytes "ERROR invalid syntax\n"))
  else answer b (.buffer versionMsg)

-- ── the whole function ────────────────────────────────────────────────────────

/-- The chain of `strncmp` tests. -/
def dispatch (b : Broker) (creds : Ucred) (buf : List Byte) (now : Timespec) (raw : Raw) :
    Outcome :=
  if isCommand buf cmdRegister then handleRegister b creds buf now raw
  else if isCommand buf cmdPing then handlePing b creds buf now
  else if isCommand buf cmdUnregister then handleUnregister b creds buf
  else if isCommand buf cmdReboot then handleReboot b creds buf
  else if isCommand buf cmdStatus then handleStatus b creds buf
  else if isCommand buf cmdVersion then handleVersion b buf
  else answer b (.text (bytes "ERROR unknown command\n"))

/-- `handle_command`. -/
def handleCommand (b : Broker) (r : Request) : Outcome :=
  match r.creds with
  | none => answer b (.text (bytes "ERROR reading peercred\n"))
  | some creds =>
      match r.buf with
      | none => answer b (.text (bytes "ERROR no input\n"))
      | some buf => dispatch b creds buf r.now r.raw

-- ── which command a request is ────────────────────────────────────────────────

/-- The request is a REGISTER that the broker reads as `args`. -/
def Registers (r : Request) (creds : Ucred) (args : RegisterArgs) : Prop :=
  ∃ s, r.creds = some creds ∧ r.buf = some (cmdRegister ++ s) ∧
    parseRegister (cmdRegister ++ s) = .ok args

/-- The request is a PING naming `id`. -/
def Pings (r : Request) (creds : Ucred) (id : CStr wdClientIDLen) : Prop :=
  ∃ s, r.creds = some creds ∧ r.buf = some (cmdPing ++ s) ∧ Names s id

/-- The request is an UNREGISTER naming `id`. -/
def Unregisters (r : Request) (creds : Ucred) (id : CStr wdClientIDLen) : Prop :=
  ∃ s, r.creds = some creds ∧ r.buf = some (cmdUnregister ++ s) ∧ Names s id

/-- The request is a REBOOT from root, with nothing but blanks behind it. -/
def Reboots (r : Request) : Prop :=
  ∃ creds s, r.creds = some creds ∧ creds.uid = 0 ∧ r.buf = some (cmdReboot ++ s) ∧
    ∀ b ∈ s, isspace b = true

theorem isCommand_iff {buf cmd : List Byte} :
    isCommand buf cmd = true ↔ ∃ s, buf = cmd ++ s :=
  strncmpEq_length_iff buf cmd

theorem isCommand_self (cmd s : List Byte) : isCommand (cmd ++ s) cmd = true :=
  isCommand_iff.mpr ⟨s, rfl⟩

/-- Keywords that differ within both their lengths exclude each other. -/
theorem not_isCommand {cmd cmd' : List Byte} (s : List Byte)
    (h : ∃ i : Nat, ∃ a ∈ cmd[i]?, ∃ a' ∈ cmd'[i]?, a ≠ a') : isCommand (cmd ++ s) cmd' = false := by
  rw [← Bool.not_eq_true, isCommand_iff]
  rintro ⟨s', hs⟩
  obtain ⟨i, a, ha, a', ha', hne⟩ := h
  have h1 : (cmd ++ s)[i]? = some a := by
    rw [List.getElem?_append_left (List.getElem?_eq_some_iff.mp ha).1]
    exact ha
  rw [hs, List.getElem?_append_left (List.getElem?_eq_some_iff.mp ha').1] at h1
  exact hne (Option.some.inj (h1.symm.trans ha'))

variable {b : Broker} {r : Request} {creds : Ucred} {s : List Byte}

theorem handleCommand_eq {buf : List Byte} (hc : r.creds = some creds) (hb : r.buf = some buf) :
    handleCommand b r = dispatch b creds buf r.now r.raw := by
  unfold handleCommand
  rw [hc]
  dsimp only
  rw [hb]

theorem handleCommand_register (hc : r.creds = some creds)
    (hb : r.buf = some (cmdRegister ++ s)) :
    handleCommand b r = handleRegister b creds (cmdRegister ++ s) r.now r.raw := by
  rw [handleCommand_eq hc hb, dispatch, if_pos (isCommand_self _ _)]

theorem handleCommand_ping (hc : r.creds = some creds) (hb : r.buf = some (cmdPing ++ s)) :
    handleCommand b r = handlePing b creds (cmdPing ++ s) r.now := by
  rw [handleCommand_eq hc hb, dispatch, if_pos (isCommand_self _ _),
    not_isCommand s ⟨0, 80, by decide, 82, by decide, by decide⟩]
  rfl

theorem handleCommand_unregister (hc : r.creds = some creds)
    (hb : r.buf = some (cmdUnregister ++ s)) :
    handleCommand b r = handleUnregister b creds (cmdUnregister ++ s) := by
  rw [handleCommand_eq hc hb, dispatch, if_pos (isCommand_self _ _),
    not_isCommand s ⟨0, 85, by decide, 82, by decide, by decide⟩,
    not_isCommand s ⟨0, 85, by decide, 80, by decide, by decide⟩]
  rfl

theorem handleCommand_reboot (hc : r.creds = some creds)
    (hb : r.buf = some (cmdReboot ++ s)) :
    handleCommand b r = handleReboot b creds (cmdReboot ++ s) := by
  rw [handleCommand_eq hc hb, dispatch, if_pos (isCommand_self _ _),
    not_isCommand s ⟨2, 66, by decide, 71, by decide, by decide⟩,
    not_isCommand s ⟨0, 82, by decide, 80, by decide, by decide⟩,
    not_isCommand s ⟨0, 82, by decide, 85, by decide, by decide⟩]
  rfl

theorem handleCommand_status (hc : r.creds = some creds)
    (hb : r.buf = some (cmdStatus ++ s)) :
    handleCommand b r = handleStatus b creds (cmdStatus ++ s) := by
  rw [handleCommand_eq hc hb, dispatch, if_pos (isCommand_self _ _),
    not_isCommand s ⟨0, 83, by decide, 82, by decide, by decide⟩,
    not_isCommand s ⟨0, 83, by decide, 80, by decide, by decide⟩,
    not_isCommand s ⟨0, 83, by decide, 85, by decide, by decide⟩,
    not_isCommand s ⟨0, 83, by decide, 82, by decide, by decide⟩]
  rfl

theorem handleCommand_version (hc : r.creds = some creds)
    (hb : r.buf = some (cmdVersion ++ s)) :
    handleCommand b r = handleVersion b (cmdVersion ++ s) := by
  rw [handleCommand_eq hc hb, dispatch, if_pos (isCommand_self _ _),
    not_isCommand s ⟨0, 86, by decide, 82, by decide, by decide⟩,
    not_isCommand s ⟨0, 86, by decide, 80, by decide, by decide⟩,
    not_isCommand s ⟨0, 86, by decide, 85, by decide, by decide⟩,
    not_isCommand s ⟨0, 86, by decide, 82, by decide, by decide⟩,
    not_isCommand s ⟨0, 86, by decide, 83, by decide, by decide⟩]
  rfl

/-- No further word exactly when only blanks follow the keyword. -/
theorem hasExtra_eq_false {width : Nat} {cmd : List Byte} (hw : 0 < width) :
    hasExtra width (cmd ++ s) cmd = false ↔ ∀ b ∈ s, isspace b = true := by
  have hlen : (sscanf [.space, .str width] s).length ≤ 1 := by
    simp only [sscanf]
    split <;> simp
  unfold hasExtra
  rw [List.drop_left' rfl, ← @sscanf_space_str_eq_nil width s [] hw, ← List.length_eq_zero_iff,
    beq_eq_false_iff_ne]
  omega

-- ── the inversion lemma ───────────────────────────────────────────────────────

/-- What a call can do to the table, with the guards that let it. -/
inductive Handled (b : Broker) (r : Request) : Outcome → Prop where
  | kept {o : Outcome} (hclients : o.broker.clients = b.clients)
      (hconfig : o.broker.config = b.config) (hevent : o.event = none)
      (hmade : o.made = none) : Handled b r o
  | registered (creds : Ucred) (args : RegisterArgs) (i : Nat) (c : Client)
      (hreq : Registers r creds args)
      (hget : getClientInstanceByName b.config b.clients.slots args.name = some i)
      (hslot : b.clients.slots[i]? = some c) :
      Handled b r
        { broker := { b with clients := b.clients.update i (registerSlot args creds.pid r.now r.raw) }
          replies := [.text (okID (registerSlot args creds.pid r.now r.raw c).clientID)]
          event := some (.register i r.now args.timeoutMs)
          made := if c.anounced then none else some (makeClientID r.raw) }
  | pinged (creds : Ucred) (id : CStr wdClientIDLen) (i : Nat) (c : Client)
      (hreq : Pings r creds id) (hslot : b.clients.slots[i]? = some c)
      (hlive : c.live = true) (hid : c.clientID = id)
      (hpid : c.checkPID = false ∨ c.pid = creds.pid) :
      Handled b r
        { broker := { b with clients := b.clients.update i (pingSlot r.now) }
          replies := [.text (bytes "OK\n")]
          event := some (.ping i r.now)
          made := none }
  | unregistered (creds : Ucred) (id : CStr wdClientIDLen) (i : Nat) (c : Client)
      (hreq : Unregisters r creds id) (hslot : b.clients.slots[i]? = some c)
      (hlive : c.live = true) (hid : c.clientID = id)
      (hperm : creds.uid = 0 ∨ b.config.strictClients = false ∧
        (c.checkPID = false ∨ c.pid = creds.pid)) :
      Handled b r (release b i)

theorem handled_answer (b : Broker) (r : Request) (rep : Reply) :
    Handled b r (answer b rep) :=
  .kept rfl rfl rfl rfl

theorem deref_of_getElem? {t : Table} {i : Nat} {c : Client} (h : t.slots[i]? = some c) :
    deref t i = c := by
  simp [deref, List.getD_eq_getElem?_getD, h]

theorem handled_register (hc : r.creds = some creds) (hb : r.buf = some (cmdRegister ++ s)) :
    Handled b r (handleRegister b creds (cmdRegister ++ s) r.now r.raw) := by
  unfold handleRegister
  split
  · exact handled_answer b r _
  · next args hargs =>
      split
      · exact handled_answer b r _
      · next i hget =>
          obtain ⟨c, hslot, -⟩ := getClientInstanceByName_some hget
          have hderef : deref (b.clients.update i (registerSlot args creds.pid r.now r.raw)) i
              = registerSlot args creds.pid r.now r.raw c :=
            deref_of_getElem? (by rw [Table.update_self, hslot]; rfl)
          dsimp only
          rw [hderef, deref_of_getElem? hslot]
          exact .registered creds args i c ⟨s, hc, hb, hargs⟩ hget hslot

theorem handled_ping (hc : r.creds = some creds) (hb : r.buf = some (cmdPing ++ s)) :
    Handled b r (handlePing b creds (cmdPing ++ s) r.now) := by
  unfold handlePing
  split
  · exact handled_answer b r _
  · next id hid =>
      have hnames : Names s id := parseClientID_ok_iff.mp hid
      split
      · next i hlook =>
          obtain ⟨c, hslot, hlive, hcid, hpid⟩ := lookup_identified hlook
          exact .pinged creds id i c ⟨s, hc, hb, hnames⟩ hslot hlive hcid hpid
      · exact handled_answer b r _
      · exact handled_answer b r _

theorem handled_unregister (hc : r.creds = some creds)
    (hb : r.buf = some (cmdUnregister ++ s)) :
    Handled b r (handleUnregister b creds (cmdUnregister ++ s)) := by
  unfold handleUnregister
  split
  · exact handled_answer b r _
  · next id hid =>
      have hreq : Unregisters r creds id := ⟨s, hc, hb, parseClientID_ok_iff.mp hid⟩
      split
      · next i hlook =>
          obtain ⟨c, hslot, hlive, hcid, hpid⟩ := lookup_identified hlook
          split
          · exact handled_answer b r _
          · next hguard =>
              refine .unregistered creds id i c hreq hslot hlive hcid ?_
              rw [Bool.and_eq_true, not_and, Bool.not_eq_true, bne_eq_false_iff_eq] at hguard
              by_cases hstrict : b.config.strictClients = true
              · exact Or.inl (hguard hstrict)
              · exact Or.inr ⟨by simpa using hstrict, hpid⟩
      · next i hlook =>
          obtain ⟨c, hslot, hlive, hcid, -, -⟩ := lookup_pidMismatch hlook
          split
          · next huid =>
              exact .unregistered creds id i c hreq hslot hlive hcid (Or.inl (by simpa using huid))
          · exact handled_answer b r _
      · exact handled_answer b r _

/-- **WHAT A COMMAND CAN DO**. -/
theorem handled (b : Broker) (r : Request) : Handled b r (handleCommand b r) := by
  cases hc : r.creds with
  | none =>
      unfold handleCommand
      rw [hc]
      exact handled_answer b r _
  | some creds =>
      cases hb : r.buf with
      | none =>
          unfold handleCommand
          rw [hc]
          dsimp only
          rw [hb]
          exact handled_answer b r _
      | some buf =>
          rw [handleCommand_eq hc hb, dispatch]
          split
          · next h =>
              obtain ⟨s, rfl⟩ := isCommand_iff.mp h
              exact handled_register hc hb
          split
          · next h =>
              obtain ⟨s, rfl⟩ := isCommand_iff.mp h
              exact handled_ping hc hb
          split
          · next h =>
              obtain ⟨s, rfl⟩ := isCommand_iff.mp h
              exact handled_unregister hc hb
          split
          · unfold handleReboot
            split
            · exact handled_answer b r _
            split
            · exact handled_answer b r _
            · exact .kept rfl rfl rfl rfl
          split
          · unfold handleStatus
            split
            · exact handled_answer b r _
            split <;> exact handled_answer b r _
          split
          · unfold handleVersion
            split <;> exact handled_answer b r _
          · exact handled_answer b r _

-- ── the flags ─────────────────────────────────────────────────────────────────

/-- Root's REBOOT is accepted. -/
theorem handleCommand_reboots (h : Reboots r) :
    (handleCommand b r).broker = { b with running := false, reboot := true } := by
  obtain ⟨creds, s, hc, huid, hb, hs⟩ := h
  have hextra : hasExtra 15 (cmdReboot ++ s) cmdReboot = false :=
    (hasExtra_eq_false (by decide)).mpr hs
  rw [handleCommand_reboot hc hb, handleReboot, hextra, huid]
  rfl

/-- Nothing else sets a flag. -/
theorem handleCommand_flags (h : ¬ Reboots r) :
    (handleCommand b r).broker.running = b.running ∧
      (handleCommand b r).broker.reboot = b.reboot := by
  cases hc : r.creds with
  | none =>
      unfold handleCommand
      rw [hc]
      exact ⟨rfl, rfl⟩
  | some creds =>
      cases hb : r.buf with
      | none =>
          unfold handleCommand
          rw [hc]
          dsimp only
          rw [hb]
          exact ⟨rfl, rfl⟩
      | some buf =>
          rw [handleCommand_eq hc hb, dispatch]
          split
          · unfold handleRegister
            split
            · exact ⟨rfl, rfl⟩
            split <;> exact ⟨rfl, rfl⟩
          split
          · unfold handlePing
            split
            · exact ⟨rfl, rfl⟩
            split <;> exact ⟨rfl, rfl⟩
          split
          · unfold handleUnregister
            split
            · exact ⟨rfl, rfl⟩
            split
            · split <;> exact ⟨rfl, rfl⟩
            · split <;> exact ⟨rfl, rfl⟩
            · exact ⟨rfl, rfl⟩
          split
          · next hcmd =>
              obtain ⟨s, rfl⟩ := isCommand_iff.mp hcmd
              unfold handleReboot
              split
              · exact ⟨rfl, rfl⟩
              · next hextra =>
                  split
                  · exact ⟨rfl, rfl⟩
                  · next huid =>
                      rw [Bool.not_eq_true, hasExtra_eq_false (by decide)] at hextra
                      exact absurd ⟨creds, s, hc, by simpa using huid, hb, hextra⟩ h
          split
          · unfold handleStatus
            split
            · exact ⟨rfl, rfl⟩
            split <;> exact ⟨rfl, rfl⟩
          split
          · unfold handleVersion
            split <;> exact ⟨rfl, rfl⟩
          · exact ⟨rfl, rfl⟩

end WdCommand
