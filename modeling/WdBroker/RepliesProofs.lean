import WdBroker.ReachProofs

/-! # What a peer is told

    Every call of `handle_command` sends one message.  `answered` sorts the calls
    by it: a refusal, a report, or an `OK` to one of the four commands that act.
    Two things are read off it and the branches:

    * `failed_command_changes_nothing` — behind an `ERROR`, and behind STATUS and
      VERSION, the broker is exactly what it was;
    * `uninformed_iff` — what a peer other than root is told does not depend on
      the clients of others, unless its PID is 0: the STATUS branch asks for
      `pid != 0 && uid != 0`, so that one peer gets the whole table. -/

namespace WdReplies

open CString Scanf Snprintf WdClock WdTable WdClientID WdStatus WdConfig WdCommand WdReach

/-- The packet begins with the keyword. -/
def Begins (r : Request) (cmd : List Byte) : Prop := ∃ s, r.buf = some (cmd ++ s)

/-- The message is an error. -/
def IsError (msg : List Byte) : Prop := ∃ s, msg = bytes "ERROR" ++ s

theorem IsError.head {msg : List Byte} (h : IsError msg) : msg.head? = some 69 := by
  obtain ⟨s, rfl⟩ := h
  rfl

/-- The one message of a call, and what the call did. -/
inductive Answered (b : Broker) (r : Request) : Outcome → Prop where
  | refused (msg : List Byte) (hmsg : IsError msg) : Answered b r (answer b (.text msg))
  | reported (m : Buf) (hcmd : Begins r cmdStatus ∨ Begins r cmdVersion) :
      Answered b r (answer b (.buffer m))
  | registered {o : Outcome} (i ms : Nat) (s : List Byte) (hcmd : Begins r cmdRegister)
      (hevent : o.event = some (.register i r.now ms))
      (hreply : o.replies = [.text (bytes "OK" ++ s)]) : Answered b r o
  | pinged {o : Outcome} (i : Nat) (s : List Byte) (hcmd : Begins r cmdPing)
      (hevent : o.event = some (.ping i r.now))
      (hreply : o.replies = [.text (bytes "OK" ++ s)]) : Answered b r o
  | unregistered {o : Outcome} (i : Nat) (s : List Byte) (hcmd : Begins r cmdUnregister)
      (hevent : o.event = some (.unregister i))
      (hreply : o.replies = [.text (bytes "OK" ++ s)]) : Answered b r o
  | rebooted {o : Outcome} (s : List Byte) (hcmd : Begins r cmdReboot) (hevent : o.event = none)
      (hreply : o.replies = [.text (bytes "OK" ++ s)]) : Answered b r o

variable {b : Broker} {r : Request} {creds : Ucred} {s : List Byte}

theorem validateRegister_isError {name msg : List Byte} {timeout : Nat} {checkPID : Bool}
    (h : validateRegister name timeout checkPID = .error msg) : IsError msg := by
  unfold validateRegister at h
  split at h
  · exact ⟨bytes " invalid timeout\n", (Except.error.inj h).symm⟩
  split at h
  · exact ⟨bytes " invalid client name\n", (Except.error.inj h).symm⟩
  · cases h

theorem parseRegister_isError {buf msg : List Byte} (h : parseRegister buf = .error msg) :
    IsError msg := by
  unfold parseRegister at h
  split at h
  · exact validateRegister_isError h
  · split at h
    · exact validateRegister_isError h
    · exact ⟨bytes " invalid REGISTER syntax\n", (Except.error.inj h).symm⟩
  · exact ⟨bytes " invalid REGISTER syntax\n", (Except.error.inj h).symm⟩

theorem parseClientID_isError {buf cmd msg : List Byte} (h : parseClientID buf cmd = .error msg) :
    IsError msg := by
  unfold parseClientID at h
  split at h
  · split at h
    · exact ⟨bytes " invalid clientID length\n", (Except.error.inj h).symm⟩
    split at h
    · cases h
    · exact ⟨bytes " invalid clientID format\n", (Except.error.inj h).symm⟩
  · exact ⟨bytes " invalid syntax\n", (Except.error.inj h).symm⟩

theorem answered_register (hb : r.buf = some (cmdRegister ++ s)) :
    Answered b r (handleRegister b creds (cmdRegister ++ s) r.now r.raw) := by
  unfold handleRegister
  split
  · next msg hparse => exact .refused msg (parseRegister_isError hparse)
  · next args _ =>
      split
      · exact .refused _ ⟨bytes " rejected\n", rfl⟩
      · next i _ =>
          exact .registered i args.timeoutMs (bytes " " ++ _ ++ bytes "\n") ⟨s, hb⟩ rfl rfl

theorem answered_ping (hb : r.buf = some (cmdPing ++ s)) :
    Answered b r (handlePing b creds (cmdPing ++ s) r.now) := by
  unfold handlePing
  split
  · next msg hparse => exact .refused msg (parseClientID_isError hparse)
  · split
    · next i _ => exact .pinged i (bytes "\n") ⟨s, hb⟩ rfl rfl
    · exact .refused _ ⟨bytes " wrong PID\n", rfl⟩
    · exact .refused _ ⟨bytes " unknown clientID\n", rfl⟩

theorem answered_unregister (hb : r.buf = some (cmdUnregister ++ s)) :
    Answered b r (handleUnregister b creds (cmdUnregister ++ s)) := by
  have hrelease : ∀ i, Answered b r (release b i) :=
    fun i => .unregistered i (bytes "\n") ⟨s, hb⟩ rfl rfl
  unfold handleUnregister
  split
  · next msg hparse => exact .refused msg (parseClientID_isError hparse)
  · split
    · split
      · exact .refused _ ⟨bytes " rejected\n", rfl⟩
      · exact hrelease _
    · split
      · exact hrelease _
      · exact .refused _ ⟨bytes " no permission\n", rfl⟩
    · exact .refused _ ⟨bytes " unknown clientID\n", rfl⟩

theorem answered_reboot (hb : r.buf = some (cmdReboot ++ s)) :
    Answered b r (handleReboot b creds (cmdReboot ++ s)) := by
  unfold handleReboot
  split
  · exact .refused _ ⟨bytes " invalid syntax\n", rfl⟩
  split
  · exact .refused _ ⟨bytes " no permission\n", rfl⟩
  · exact .rebooted (bytes ", " ++ decimalInt b.config.rebootTimeoutS ++ bytes "\n") ⟨s, hb⟩ rfl rfl

theorem answered_status (hb : r.buf = some (cmdStatus ++ s)) :
    Answered b r (handleStatus b creds (cmdStatus ++ s)) := by
  unfold handleStatus
  split
  · exact .refused _ ⟨bytes " invalid syntax\n", rfl⟩
  split
  · exact .refused _ ⟨bytes " no permission\n", rfl⟩
  · exact .reported _ (Or.inl ⟨s, hb⟩)

theorem answered_version (hb : r.buf = some (cmdVersion ++ s)) :
    Answered b r (handleVersion b (cmdVersion ++ s)) := by
  unfold handleVersion
  split
  · exact .refused _ ⟨bytes " invalid syntax\n", rfl⟩
  · exact .reported _ (Or.inr ⟨s, hb⟩)

/-- **ONE CALL, ONE MESSAGE**. -/
theorem answered (b : Broker) (r : Request) : Answered b r (handleCommand b r) := by
  cases hc : r.creds with
  | none =>
      unfold handleCommand
      rw [hc]
      exact .refused _ ⟨bytes " reading peercred\n", rfl⟩
  | some creds =>
      cases hb : r.buf with
      | none =>
          unfold handleCommand
          rw [hc]
          dsimp only
          rw [hb]
          exact .refused _ ⟨bytes " no input\n", rfl⟩
      | some buf =>
          rw [handleCommand_eq hc hb, dispatch]
          split
          · next h =>
              obtain ⟨s, rfl⟩ := isCommand_iff.mp h
              exact answered_register hb
          split
          · next h =>
              obtain ⟨s, rfl⟩ := isCommand_iff.mp h
              exact answered_ping hb
          split
          · next h =>
              obtain ⟨s, rfl⟩ := isCommand_iff.mp h
              exact answered_unregister hb
          split
          · next h =>
              obtain ⟨s, rfl⟩ := isCommand_iff.mp h
              exact answered_reboot hb
          split
          · next h =>
              obtain ⟨s, rfl⟩ := isCommand_iff.mp h
              exact answered_status hb
          split
          · next h =>
              obtain ⟨s, rfl⟩ := isCommand_iff.mp h
              exact answered_version hb
          · exact .refused _ ⟨bytes " unknown command\n", rfl⟩

-- ── failed commands ───────────────────────────────────────────────────────────

/-- The two reporting keywords and the four acting ones exclude each other. -/
theorem not_begins {cmd cmd' : List Byte} (h : Begins r cmd)
    (hne : ∃ i : Nat, ∃ a ∈ cmd[i]?, ∃ a' ∈ cmd'[i]?, a ≠ a') : ¬ Begins r cmd' := by
  rintro ⟨s', hs'⟩
  obtain ⟨s, hs⟩ := h
  have heq : cmd ++ s = cmd' ++ s' := Option.some.inj (hs.symm.trans hs')
  have hno := not_isCommand s hne
  rw [heq, isCommand_self] at hno
  exact Bool.noConfusion hno

theorem not_reports (h : Begins r cmdRegister ∨ Begins r cmdPing ∨ Begins r cmdUnregister ∨
    Begins r cmdReboot) : ¬ (Begins r cmdStatus ∨ Begins r cmdVersion) := by
  rintro (hs | hv)
  · rcases h with h | h | h | h
    · exact not_begins h ⟨0, 82, by decide, 83, by decide, by decide⟩ hs
    · exact not_begins h ⟨0, 80, by decide, 83, by decide, by decide⟩ hs
    · exact not_begins h ⟨0, 85, by decide, 83, by decide, by decide⟩ hs
    · exact not_begins h ⟨0, 82, by decide, 83, by decide, by decide⟩ hs
  · rcases h with h | h | h | h
    · exact not_begins h ⟨0, 82, by decide, 86, by decide, by decide⟩ hv
    · exact not_begins h ⟨0, 80, by decide, 86, by decide, by decide⟩ hv
    · exact not_begins h ⟨0, 85, by decide, 86, by decide, by decide⟩ hv
    · exact not_begins h ⟨0, 82, by decide, 86, by decide, by decide⟩ hv

/-- An `OK` is no error. -/
theorem not_isError_ok : ¬ IsError (bytes "OK" ++ s) := by
  rintro ⟨s', h⟩
  exact absurd (List.cons.inj h).1 (by decide)

/-- A REGISTER that is answered `OK` fills a slot with its arguments. -/
theorem registered_of_ok (hcmd : Begins r cmdRegister)
    (hok : ∃ t, (handleCommand b r).replies = [.text (bytes "OK" ++ t)]) :
    ∃ creds args i c, Registers r creds args ∧
      getClientInstanceByName b.config b.clients.slots args.name = some i ∧
      b.clients.slots[i]? = some c ∧
      (handleCommand b r).event = some (.register i r.now args.timeoutMs) ∧
      (command b r).clients.slots[i]? = some (registerSlot args creds.pid r.now r.raw c) := by
  have hans := answered b r
  have hh := handled b r
  unfold command
  generalize handleCommand b r = o at hok hans hh ⊢
  obtain ⟨t, hok⟩ := hok
  have hevent : ∃ i t ms, o.event = some (.register i t ms) := by
    cases hans with
    | refused msg hmsg =>
        have hmsg' : msg = bytes "OK" ++ t := Reply.text.inj (List.singleton_inj.mp hok)
        exact absurd (hmsg' ▸ hmsg) not_isError_ok
    | reported m _ => exact nomatch List.singleton_inj.mp hok
    | registered i ms _ _ hevent _ => exact ⟨i, _, ms, hevent⟩
    | pinged _ _ hcmd' _ _ =>
        exact absurd hcmd' (not_begins hcmd ⟨0, 82, by decide, 80, by decide, by decide⟩)
    | unregistered _ _ hcmd' _ _ =>
        exact absurd hcmd' (not_begins hcmd ⟨0, 82, by decide, 85, by decide, by decide⟩)
    | rebooted _ hcmd' _ _ =>
        exact absurd hcmd' (not_begins hcmd ⟨2, 71, by decide, 66, by decide, by decide⟩)
  obtain ⟨j, t', ms, hevent⟩ := hevent
  cases hh with
  | kept _ _ hnone _ => cases hnone.symm.trans hevent
  | registered creds args i c hreq hget hslot =>
      refine ⟨creds, args, i, c, hreq, hget, hslot, rfl, ?_⟩
      rw [Table.update_self, hslot]
      rfl
  | pinged => cases hevent
  | unregistered => cases hevent

/-- A REGISTER with good arguments for which there is a slot is answered `OK`. -/
theorem handleCommand_registers {args : RegisterArgs} {i : Nat} (hreq : Registers r creds args)
    (hget : getClientInstanceByName b.config b.clients.slots args.name = some i) :
    (handleCommand b r).event = some (.register i r.now args.timeoutMs) ∧
      ∃ id, (handleCommand b r).replies = [.text (okID id)] := by
  obtain ⟨s, hc, hb, hparse⟩ := hreq
  rw [handleCommand_register hc hb, handleRegister, hparse]
  dsimp only
  rw [hget]
  exact ⟨rfl, _, rfl⟩

/-- What the peer receives. -/
def received (b : Broker) (r : Request) : List (List Byte) :=
  (handleCommand b r).replies.map Reply.bytes

/-- The answers to the request tell nothing of the clients: whatever table and
    configuration, STATUS, VERSION and REBOOT are answered alike, and PING and
    UNREGISTER are as soon as strict mode and the slot that is named agree. -/
def Uninformed (r : Request) : Prop :=
  ∀ b b' : Broker,
    (Begins r cmdStatus ∨ Begins r cmdVersion ∨ Begins r cmdReboot →
      received b r = received b' r) ∧
    (∀ creds x, Pings r creds x ∨ Unregisters r creds x →
      b.config.strictClients = b'.config.strictClients →
      b.clients.slots.find? (Client.holds x) = b'.clients.slots.find? (Client.holds x) →
      received b r = received b' r)

/-- What a lookup finds, without where. -/
theorem lookup_find? (clients : List Client) (x : CStr wdClientIDLen) (pid : Int) :
    (clients.find? (Client.holds x) = none ∧
      getClientInstanceByClientID clients x pid = .notFound) ∨
    ∃ c i, clients.find? (Client.holds x) = some c ∧
      getClientInstanceByClientID clients x pid
        = if c.admits pid then .identified i else .pidMismatch i := by
  unfold getClientInstanceByClientID
  rw [List.find?_eq_bind_findIdx?_getElem?]
  cases hidx : clients.findIdx? (Client.holds x) with
  | none => exact Or.inl ⟨rfl, rfl⟩
  | some i =>
      obtain ⟨c, hc, -, -⟩ := findIdx?_some hidx
      refine Or.inr ⟨c, i, hc, ?_⟩
      dsimp only
      rw [hc]

theorem received_ping {x : CStr wdClientIDLen} (h : Pings r creds x) :
    received b r = [match b.clients.slots.find? (Client.holds x) with
      | none => bytes "ERROR unknown clientID\n"
      | some c => if c.admits creds.pid then bytes "OK\n" else bytes "ERROR wrong PID\n"] := by
  obtain ⟨s, hc, hb, hnames⟩ := h
  unfold received
  rw [handleCommand_ping hc hb, handlePing, parseClientID_ok_iff.mpr hnames]
  dsimp only
  rcases lookup_find? b.clients.slots x creds.pid with ⟨hfind, hlook⟩ | ⟨c, i, hfind, hlook⟩
  · rw [hfind, hlook]
    rfl
  · rw [hfind, hlook]
    dsimp only
    cases hadm : c.admits creds.pid <;> rfl

theorem received_unregister {x : CStr wdClientIDLen} (h : Unregisters r creds x) :
    received b r = [match b.clients.slots.find? (Client.holds x) with
      | none => bytes "ERROR unknown clientID\n"
      | some c =>
          if c.admits creds.pid then
            if b.config.strictClients && creds.uid != 0 then bytes "ERROR rejected\n"
            else bytes "OK\n"
          else if creds.uid == 0 then bytes "OK\n"
          else bytes "ERROR no permission\n"] := by
  obtain ⟨s, hc, hb, hnames⟩ := h
  unfold received
  rw [handleCommand_unregister hc hb, handleUnregister, parseClientID_ok_iff.mpr hnames]
  dsimp only
  rcases lookup_find? b.clients.slots x creds.pid with ⟨hfind, hlook⟩ | ⟨c, i, hfind, hlook⟩
  · rw [hfind, hlook]
    rfl
  · rw [hfind, hlook]
    dsimp only
    cases c.admits creds.pid with
    | true =>
        rw [if_pos rfl, if_pos rfl]
        dsimp only
        cases b.config.strictClients && creds.uid != 0 <;> rfl
    | false =>
        rw [if_neg Bool.false_ne_true, if_neg Bool.false_ne_true]
        dsimp only
        cases creds.uid == 0 <;> rfl

/-- A STATUS with nothing but blanks behind it. -/
def StatusOnly (r : Request) : Prop :=
  ∃ s, r.buf = some (cmdStatus ++ s) ∧ ∀ b ∈ s, isspace b = true

/-- Process 0 gets the table, whatever its user. -/
theorem received_status_pid_zero (hc : r.creds = some creds) (hpid : creds.pid = 0)
    (h : StatusOnly r) : received b r = [(Reply.buffer (statusMsg b.config b.clients.slots)).bytes] := by
  obtain ⟨s, hb, hs⟩ := h
  have hextra : hasExtra 31 (cmdStatus ++ s) cmdStatus = false :=
    (hasExtra_eq_false (by decide)).mpr hs
  unfold received
  rw [handleCommand_status hc hb, handleStatus, hextra, hpid]
  rfl

/-- Every other peer but root is refused. -/
theorem received_status_refused (hc : r.creds = some creds) (huid : creds.uid ≠ 0)
    (hno : ¬ (creds.pid = 0 ∧ StatusOnly r)) (hb : r.buf = some (cmdStatus ++ s)) :
    received b r = [if hasExtra 31 (cmdStatus ++ s) cmdStatus then bytes "ERROR invalid syntax\n"
      else bytes "ERROR no permission\n"] := by
  unfold received
  rw [handleCommand_status hc hb, handleStatus]
  cases hextra : hasExtra 31 (cmdStatus ++ s) cmdStatus with
  | true => rfl
  | false =>
      have hpid : creds.pid ≠ 0 := fun h0 =>
        hno ⟨h0, s, hb, (hasExtra_eq_false (by decide)).mp hextra⟩
      have hguard : (creds.pid != 0 && creds.uid != 0) = true := by simp [hpid, huid]
      rw [hguard]
      rfl

theorem received_version (hc : r.creds = some creds) (hb : r.buf = some (cmdVersion ++ s)) :
    received b r = [if hasExtra 31 (cmdVersion ++ s) cmdVersion then bytes "ERROR invalid syntax\n"
      else (Reply.buffer versionMsg).bytes] := by
  unfold received
  rw [handleCommand_version hc hb, handleVersion]
  cases hasExtra 31 (cmdVersion ++ s) cmdVersion <;> rfl

theorem received_reboot (hc : r.creds = some creds) (huid : creds.uid ≠ 0)
    (hb : r.buf = some (cmdReboot ++ s)) :
    received b r = [if hasExtra 15 (cmdReboot ++ s) cmdReboot then bytes "ERROR invalid syntax\n"
      else bytes "ERROR no permission\n"] := by
  have hguard : (creds.uid != 0) = true := by simp [huid]
  unfold received
  rw [handleCommand_reboot hc hb, handleReboot, hguard]
  cases hasExtra 15 (cmdReboot ++ s) cmdReboot <;> rfl

/-- A broker with an empty table. -/
def emptyBroker : Broker := ⟨Table.zero, Parse.init.config, true, false⟩

/-- The same after a client has registered. -/
def busyBroker : Broker := command emptyBroker (rootRequest "REGISTER a 5000\n")

/-- The two are told apart by STATUS. -/
theorem statusMsg_differs :
    (Reply.buffer (statusMsg emptyBroker.config emptyBroker.clients.slots)).bytes
      ≠ (Reply.buffer (statusMsg busyBroker.config busyBroker.clients.slots)).bytes := by
  decide +kernel

/-- **WHEN CLIENT DATA STAYS WITH ROOT**: for every request of a peer whose user is
    not root, the answers tell nothing of the clients exactly when the request is
    no STATUS of a peer with PID 0. -/
theorem uninformed_iff {r : Request} {creds : Ucred} (hc : r.creds = some creds)
    (huid : creds.uid ≠ 0) :
    Uninformed r ↔
      ¬ (creds.pid = 0 ∧ ∃ s, r.buf = some (cmdStatus ++ s) ∧ ∀ b ∈ s, isspace b = true) := by
  constructor
  · rintro h ⟨hpid, s, hb, hs⟩
    have hstatus : StatusOnly r := ⟨s, hb, hs⟩
    have heq := (h emptyBroker busyBroker).1 (Or.inl ⟨s, hb⟩)
    rw [received_status_pid_zero hc hpid hstatus, received_status_pid_zero hc hpid hstatus] at heq
    exact statusMsg_differs (List.singleton_inj.mp heq)
  · intro hno b b'
    constructor
    · rintro (⟨s, hb⟩ | ⟨s, hb⟩ | ⟨s, hb⟩)
      · rw [received_status_refused hc huid hno hb, received_status_refused hc huid hno hb]
      · rw [received_version hc hb, received_version hc hb]
      · rw [received_reboot hc huid hb, received_reboot hc huid hb]
    · rintro creds' x (hp | hu) hstrict hfind
      · rw [received_ping hp, received_ping hp, hfind]
      · rw [received_unregister hu, received_unregister hu, hfind, hstrict]

/-- The STATUS of an ordinary user. -/
def userStatus (pid : Int) : Request :=
  ⟨some ⟨pid, 1000⟩, .packet (bytes "STATUS\n"), Timespec.zero, Vector.replicate 8 0⟩

theorem uninformed_iff_user : Uninformed (userStatus 7) := by
  have huid : (⟨7, 1000⟩ : Ucred).uid ≠ 0 := by decide
  exact (@uninformed_iff (userStatus 7) _ rfl huid).mpr fun h => absurd h.1 (by decide)

/-- **PROCESS 0 IS TOLD EVERYTHING**: a peer with PID 0 and an ordinary user asks
    for the STATUS of two brokers, one of which has a client, and is told which. -/
theorem status_discloses :
    (userStatus 0).creds = some ⟨0, 1000⟩ ∧ Begins (userStatus 0) cmdStatus ∧
      received emptyBroker (userStatus 0) ≠ received busyBroker (userStatus 0) ∧
      ¬ Uninformed (userStatus 0) := by
  have hbuf : (userStatus 0).buf = some (cmdStatus ++ bytes "\n") := by decide
  have hbegins : Begins (userStatus 0) cmdStatus := ⟨_, hbuf⟩
  have hstatus : StatusOnly (userStatus 0) :=
    ⟨_, hbuf, fun b hb => List.mem_singleton.mp hb ▸ rfl⟩
  have hne : received emptyBroker (userStatus 0) ≠ received busyBroker (userStatus 0) := by
    rw [@received_status_pid_zero _ _ ⟨0, 1000⟩ rfl rfl hstatus,
      @received_status_pid_zero _ _ ⟨0, 1000⟩ rfl rfl hstatus]
    exact fun heq => statusMsg_differs (List.singleton_inj.mp heq)
  exact ⟨rfl, hbegins, hne, fun h => hne ((h emptyBroker busyBroker).1 (Or.inl hbegins))⟩

end WdReplies
