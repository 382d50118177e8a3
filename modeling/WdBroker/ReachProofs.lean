import WdBroker.ConfigProofs
import WdBroker.CommandProofs

/-! # Reachable broker states

    A broker state is reachable when it comes from an accepted configuration
    file by commands, in any order and from any peers.  `WellFormed` is the
    invariant of the table and the configuration; `wellFormed_of_boot` derives
    it for every file and every run, and adds what holds of the table directly
    after the file was read.

    The second half is about STATUS: in a reachable state its buffer is safe
    exactly when the printed lengths of the live slots sum to at most 4096, and
    forty-four announced clients with long names already break that. -/

namespace WdReach

open CString Scanf Snprintf WdClock WdTable WdClientID WdStatus WdConfig WdCommand

/-- Start-up: parse the file, then run with nothing requested yet. -/
def boot (file : Option (List Byte)) (clock : Nat → Timespec) (raws : Nat → Raw) :
    Except ConfigError Broker :=
  match parseConfig file clock raws with
  | .error e => .error e
  | .ok (config, clients) => .ok ⟨clients, config, true, false⟩

/-- The state after one command. -/
def command (b : Broker) (r : Request) : Broker := (handleCommand b r).broker

/-- The state after a sequence of commands. -/
def commands (b : Broker) (rs : List Request) : Broker := Machine.run command b rs

/-- Reached from an accepted configuration file by some commands. -/
def Reachable (b : Broker) : Prop :=
  ∃ file clock raws b₀ rs, boot file clock raws = .ok b₀ ∧ b = commands b₀ rs

theorem boot_ok {file : Option (List Byte)} {clock : Nat → Timespec} {raws : Nat → Raw}
    {b : Broker} (h : boot file clock raws = .ok b) :
    ∃ text, file = some text ∧ Accepted clock raws text b.config b.clients ∧
      b.running = true ∧ b.reboot = false := by
  unfold boot at h
  split at h
  · exact nomatch h
  · next config clients hparse =>
      obtain rfl := Except.ok.inj h
      obtain ⟨text, hfile, hacc⟩ := parseConfig_ok hparse
      exact ⟨text, hfile, hacc, rfl, rfl⟩

/-- A slot of an accepted table is announced or zero. -/
theorem accepted_slot {clock : Nat → Timespec} {raws : Nat → Raw} {text : List Byte}
    {config : Config} {t : Table} (h : Accepted clock raws text config t) {i : Nat}
    {c : Client} (hc : t.slots[i]? = some c) :
    (∃ name, (sectionNames (configLines text))[i]? = some name ∧
      Announced name (raws i) (clock i) c) ∨
      ((sectionNames (configLines text)).length ≤ i ∧ c = Client.zero) := by
  rcases Nat.lt_or_ge i (sectionNames (configLines text)).length with hlt | hge
  · obtain ⟨c', hc', hann⟩ := h.announced i _ (List.getElem?_eq_getElem hlt)
    obtain rfl := Option.some.inj (hc'.symm.trans hc)
    exact Or.inl ⟨_, List.getElem?_eq_getElem hlt, hann⟩
  · have hi : i < wdMaxClients := t.size ▸ (List.getElem?_eq_some_iff.mp hc).1
    have := h.rest i hge hi
    exact Or.inr ⟨hge, Option.some.inj (hc.symm.trans this)⟩

-- ── the arguments of an accepted REGISTER ─────────────────────────────────────

theorem validateRegister_ok_iff {name : List Byte} {timeout : Nat} {checkPID : Bool}
    {args : RegisterArgs} :
    validateRegister name timeout checkPID = .ok args ↔
      args = ⟨CStr.strncpy wdClientNameLen name, timeout, checkPID⟩ ∧ TimeoutOk timeout ∧
        ∀ b ∈ name, isprint b = true ∧ isspace b = false := by
  have hrange : ¬ (timeout < wdClientTimeoutMinMs ∨ timeout > wdClientTimeoutMaxMs) ↔
      TimeoutOk timeout := by
    rw [not_or, not_lt, gt_iff_lt, not_lt]
    rfl
  have hname : ¬ (name.any fun b => !isprint b || isspace b) = true ↔
      ∀ b ∈ name, isprint b = true ∧ isspace b = false := by
    simp
  unfold validateRegister
  constructor
  · intro h
    split at h
    · cases h
    split at h
    · cases h
    · next ht hn => exact ⟨(Except.ok.inj h).symm, hrange.mp ht, hname.mp hn⟩
  · rintro ⟨rfl, ht, hn⟩
    rw [if_neg (hrange.mpr ht), if_neg (hname.mpr hn)]

/-- The field that stands for the flag. -/
def optField (checkPID : Bool) : List Value := if checkPID then [] else [.str (bytes "ignorepid")]

/-- The fields that the REGISTER format must assign. -/
theorem parseRegister_ok_iff {s : List Byte} {args : RegisterArgs} :
    parseRegister (cmdRegister ++ s) = .ok args ↔
      ∃ name timeout checkPID,
        sscanf wdRegisterScanfFormat s = .str name :: .uint timeout :: optField checkPID ∧
        validateRegister name timeout checkPID = .ok args := by
  unfold parseRegister
  rw [List.drop_left' rfl]
  constructor
  · intro h
    split at h
    · next name timeout hscan => exact ⟨name, timeout, true, hscan, h⟩
    · next name timeout optFlag hscan =>
        split at h
        · next hflag =>
            rw [hflag] at hscan
            exact ⟨name, timeout, false, hscan, h⟩
        · exact nomatch h
    · exact nomatch h
  · rintro ⟨name, timeout, checkPID, hscan, hval⟩
    rw [hscan]
    cases checkPID with
    | true => exact hval
    | false => exact hval

/-- An accepted name is a non-empty word of printable characters, an accepted
    timeout is in range. -/
theorem registers_ok {r : Request} {creds : Ucred} {args : RegisterArgs}
    (h : Registers r creds args) :
    TimeoutOk args.timeoutMs ∧ args.name.chars ≠ [] ∧
      ∀ b ∈ args.name.chars, isprint b = true ∧ isspace b = false := by
  obtain ⟨s, -, hbuf, hparse⟩ := h
  obtain ⟨name, timeout, checkPID, hscan, hval⟩ := parseRegister_ok_iff.mp hparse
  obtain ⟨rfl, htime, hprint⟩ := validateRegister_ok_iff.mp hval
  obtain ⟨sp, t, rest', hs, hv, -, hne, hlen, -, -, -⟩ := sscanf_str hscan
  obtain rfl := Value.str.inj hv
  have hnul : (0 : Byte) ∉ name := by
    intro h0
    refine Request.buf_no_nul hbuf (List.mem_append_right _ ?_)
    rw [hs]
    exact List.mem_append_left _ (List.mem_append_right _ h0)
  have hchars : (CStr.strncpy wdClientNameLen name).chars = name :=
    CStr.strncpy_chars (Nat.lt_succ_of_le hlen) hnul
  refine ⟨htime, ?_, ?_⟩
  · show (CStr.strncpy wdClientNameLen name).chars ≠ []
    rw [hchars]
    exact hne
  · show ∀ b ∈ (CStr.strncpy wdClientNameLen name).chars, _
    rw [hchars]
    exact hprint

-- ── the invariant ─────────────────────────────────────────────────────────────

/-- What holds of every slot of a reachable table. -/
structure SlotOk (c : Client) : Prop where
  exclusive : ¬ (c.active = true ∧ c.anounced = true)
  timeout : c.live = true → TimeoutOk c.timeoutMs
  clientID : c.live = true → IsClientID c.clientID
  name : c.live = true → c.name.chars ≠ [] ∧ c.name.chars.length ≤ 63
  printable : c.active = true → ∀ b ∈ c.name.chars, isprint b = true ∧ isspace b = false

/-- The invariant of table and configuration. -/
structure WellFormed (b : Broker) : Prop where
  range : InRange b.config
  slots : ∀ c ∈ b.clients.slots, SlotOk c

/-- No live slot was refreshed later than the current clock reading. -/
def PingsBy (now : Timespec) (b : Broker) : Prop :=
  ∀ c ∈ b.clients.slots, c.live = true → c.lastPing ≤ now

theorem name_length_le (name : CStr wdClientNameLen) : name.chars.length ≤ 63 :=
  Nat.le_of_lt_succ name.fits

theorem slotOk_dead {c : Client} (h : c.live = false) : SlotOk c := by
  have hdead : ¬ c.live = true := by rw [h]; decide
  have hact : ¬ c.active = true := by rw [(Client.not_live_iff.mp h).1]; decide
  exact ⟨fun h' => hact h'.1, fun h' => absurd h' hdead, fun h' => absurd h' hdead,
    fun h' => absurd h' hdead, fun h' => absurd h' hact⟩

/-- An announced slot meets the invariant. -/
theorem slotOk_announced {name : CStr wdClientNameLen} {raw : Raw} {now : Timespec} {c : Client}
    (h : Announced name raw now c) (hne : name.chars ≠ []) : SlotOk c := by
  have hact : ¬ c.active = true := by rw [h.inactive]; decide
  exact ⟨fun h' => hact h'.1, fun _ => h.timeout,
    fun _ => h.clientID_eq ▸ makeClientID_isClientID raw,
    fun _ => ⟨h.name_eq ▸ hne, name_length_le _⟩, fun h' => absurd h' hact⟩

theorem registerSlot_name (args : RegisterArgs) (pid : Int) (now : Timespec) (raw : Raw)
    (c : Client) : (registerSlot args pid now raw c).name = args.name :=
  CStr.strncpy_self args.name

/-- A freshly registered slot meets the invariant. -/
theorem slotOk_registerSlot {r : Request} {creds : Ucred} {args : RegisterArgs} {c : Client}
    (hreq : Registers r creds args) (hc : SlotOk c) :
    SlotOk (registerSlot args creds.pid r.now r.raw c) := by
  obtain ⟨htime, hne, hprint⟩ := registers_ok hreq
  refine ⟨fun h => Bool.noConfusion h.2, fun _ => htime, fun _ => ?_, fun _ => ?_, fun _ => ?_⟩
  · show IsClientID (if c.anounced then c.clientID else makeClientID r.raw)
    split
    · next hann => exact hc.clientID (Client.live_iff.mpr (Or.inr hann))
    · exact makeClientID_isClientID r.raw
  · rw [registerSlot_name]
    exact ⟨hne, name_length_le _⟩
  · rw [registerSlot_name]
    exact hprint

/-- A property of all slots survives the update of one of them. -/
theorem forall_mem_update {P Q : Client → Prop} {t : Table} {i : Nat} {f : Client → Client}
    (h : ∀ c ∈ t.slots, P c) (hmono : ∀ c, P c → Q c) (hf : ∀ c, P c → Q (f c)) :
    ∀ c ∈ (t.update i f).slots, Q c := by
  intro c hc
  obtain ⟨j, hj⟩ := List.mem_iff_getElem?.mp hc
  rcases Table.update_cases hj with ⟨-, c₀, hc₀, rfl⟩ | ⟨-, hold⟩
  · exact hf c₀ (h c₀ (List.mem_of_getElem? hc₀))
  · exact hmono c (h c (List.mem_of_getElem? hold))

/-- No command touches the configuration. -/
theorem command_config (b : Broker) (r : Request) : (command b r).config = b.config := by
  have hh := handled b r
  unfold command
  generalize handleCommand b r = o at hh ⊢
  cases hh with
  | kept _ hconfig => exact hconfig
  | registered => rfl
  | pinged => rfl
  | unregistered => rfl

/-- **SLOT RULE**: a property of all slots survives a command if it survives what the
    command can assign to one of them. -/
theorem forall_slots_command {P Q : Client → Prop} {b : Broker} {r : Request}
    (h : ∀ c ∈ b.clients.slots, P c) (hkept : ∀ c, P c → Q c)
    (hregister : ∀ creds args c, Registers r creds args → P c →
      Q (registerSlot args creds.pid r.now r.raw c))
    (hping : ∀ c, P c → Q (pingSlot r.now c)) (hunregister : ∀ c, P c → Q (unregisterSlot c)) :
    ∀ c ∈ (command b r).clients.slots, Q c := by
  have hh := handled b r
  unfold command
  generalize handleCommand b r = o at hh ⊢
  cases hh with
  | kept hclients =>
      rw [hclients]
      exact fun c hc => hkept c (h c hc)
  | registered creds args i c hreq hget hslot =>
      exact forall_mem_update h hkept fun c => hregister creds args c hreq
  | pinged creds id i c hreq hslot hlive hid hpid => exact forall_mem_update h hkept hping
  | unregistered creds id i c hreq hslot hlive hid hperm =>
      exact forall_mem_update h hkept hunregister

/-- Directly after start-up a slot is zero, or announced under the name of a section line. -/
theorem forall_slots_boot {P : Client → Prop} {file : Option (List Byte)}
    {clock : Nat → Timespec} {raws : Nat → Raw} {b : Broker} (h : boot file clock raws = .ok b)
    (hzero : P Client.zero)
    (hann : ∀ {name i c}, (∃ text, ∃ line ∈ configLines text, sectionName line = some name) →
      Announced name (raws i) (clock i) c → P c) :
    ∀ c ∈ b.clients.slots, P c := by
  obtain ⟨text, -, hacc, -, -⟩ := boot_ok h
  intro c hc
  obtain ⟨i, hi⟩ := List.mem_iff_getElem?.mp hc
  rcases accepted_slot hacc hi with ⟨name, hname, hslot⟩ | ⟨-, rfl⟩
  · obtain ⟨line, hline, hsec⟩ := List.mem_filterMap.mp (List.mem_of_getElem? hname)
    exact hann ⟨text, line, hline, hsec⟩ hslot
  · exact hzero

/-- Every command keeps the invariant. -/
theorem wellFormed_command (b : Broker) (r : Request) (h : WellFormed b) :
    WellFormed (command b r) := by
  refine ⟨(command_config b r).symm ▸ h.range, ?_⟩
  exact forall_slots_command h.slots (fun _ hc => hc)
    (fun creds args c hreq hc => slotOk_registerSlot hreq hc) (fun c hc => { hc with })
    fun c _ => slotOk_dead rfl

theorem wellFormed_boot {file : Option (List Byte)} {clock : Nat → Timespec}
    {raws : Nat → Raw} {b : Broker} (h : boot file clock raws = .ok b) : WellFormed b := by
  obtain ⟨text, -, hacc, -, -⟩ := boot_ok h
  refine ⟨hacc.range, forall_slots_boot h (slotOk_dead rfl) ?_⟩
  rintro name i c ⟨_, line, -, hline⟩ hann
  exact slotOk_announced hann (sectionName_ne_nil hline)

theorem pingsBy_boot {file : Option (List Byte)} {clock : Nat → Timespec} {raws : Nat → Raw}
    {b : Broker} {t : Timespec} (h : boot file clock raws = .ok b)
    (hclock : ∀ i, clock i ≤ t) : PingsBy t b :=
  forall_slots_boot h (fun hlive => Bool.noConfusion hlive)
    fun _ hann _ => hann.lastPing_eq ▸ hclock _

theorem wellFormed_commands {b : Broker} (h : WellFormed b) (rs : List Request) :
    WellFormed (commands b rs) :=
  Machine.run_invariant command wellFormed_command rs b h

theorem wellFormed_of_reachable {b : Broker} (h : Reachable b) : WellFormed b := by
  obtain ⟨file, clock, raws, b₀, rs, hboot, rfl⟩ := h
  exact wellFormed_commands (wellFormed_boot hboot) rs

/-- The announced slots are the first ones, one per name and in order. -/
def AnnouncedPrefix (names : List (CStr wdClientNameLen)) (t : Table) : Prop :=
  names.length ≤ wdMaxClients ∧
    ∀ (i : Nat) (c : Client), t.slots[i]? = some c →
      (c.anounced = true ↔ i < names.length) ∧ (∀ name ∈ names[i]?, c.name = name)

theorem announcedPrefix_of_accepted {clock : Nat → Timespec} {raws : Nat → Raw}
    {text : List Byte} {config : Config} {t : Table} (h : Accepted clock raws text config t) :
    AnnouncedPrefix (sectionNames (configLines text)) t := by
  refine ⟨h.fits, fun i c hc => ?_⟩
  rcases accepted_slot h hc with ⟨name, hname, hann⟩ | ⟨hge, rfl⟩
  · refine ⟨iff_of_true hann.anounced (List.getElem?_eq_some_iff.mp hname).1, ?_⟩
    intro name' hname'
    rw [hann.name_eq]
    exact Option.some.inj (hname.symm.trans hname')
  · refine ⟨iff_of_false Bool.false_ne_true (Nat.not_lt.mpr hge), ?_⟩
    intro name' hname'
    rw [List.getElem?_eq_none hge] at hname'
    exact nomatch hname'

/-- The request is a STATUS from root, with nothing but blanks behind it. -/
def AsksStatus (r : Request) : Prop :=
  ∃ creds s, r.creds = some creds ∧ creds.uid = 0 ∧ r.buf = some (cmdStatus ++ s) ∧
    ∀ b ∈ s, isspace b = true

/-- Root's STATUS is answered from the buffer. -/
theorem handleCommand_asksStatus {b : Broker} {r : Request} (h : AsksStatus r) :
    handleCommand b r = answer b (.buffer (statusMsg b.config b.clients.slots)) := by
  obtain ⟨creds, s, hc, huid, hb, hs⟩ := h
  have hextra : hasExtra 31 (cmdStatus ++ s) cmdStatus = false :=
    (hasExtra_eq_false (by decide)).mpr hs
  have hperm : (creds.pid != 0 && creds.uid != 0) = false := by rw [huid]; simp
  rw [handleCommand_status hc hb, handleStatus, hextra, hperm]
  rfl

/-- **WHEN STATUS STAYS IN ITS BUFFER**: in every reachable state, root's STATUS
    is answered from a buffer of 4096 bytes, and no `sizeof(msg) - offset`
    underflows and no byte behind the buffer is sent exactly when the header and
    the lines of the live slots together have at most 4096 characters. -/
theorem status_within_iff {b : Broker} {r : Request} (hb : Reachable b) (hr : AsksStatus r) :
    ∃ m, (handleCommand b r).replies = [.buffer m] ∧ m.size = 4096 ∧
      (m.Within ↔ statusWidth b.config b.clients.slots ≤ 4096) := by
  have hwf := wellFormed_of_reachable hb
  refine ⟨statusMsg b.config b.clients.slots, ?_, ?_, ?_⟩
  · rw [handleCommand_asksStatus hr]
    rfl
  · exact appendAll_size _ _
  · exact statusMsg_within_iff b.config fun c hc hlive => ((hwf.slots c hc).clientID hlive).1

/-- A command of root in a packet of its own. -/
def rootRequest (s : String) : Request :=
  ⟨some ⟨1, 0⟩, .packet (bytes s), Timespec.zero, Vector.replicate 8 0⟩

theorem asksStatus_root : AsksStatus (rootRequest "STATUS\n") :=
  ⟨⟨1, 0⟩, [10], rfl, rfl, by decide, fun b hb => List.mem_singleton.mp hb ▸ rfl⟩

/-- An empty file is accepted and leaves an empty table. -/
theorem boot_empty :
    boot (some []) (fun _ => Timespec.zero) (fun _ => Vector.replicate 8 0)
      = .ok ⟨Table.zero, Parse.init.config, true, false⟩ := by
  rfl

theorem status_within_iff_empty :
    ∃ m, (handleCommand ⟨Table.zero, Parse.init.config, true, false⟩
        (rootRequest "STATUS\n")).replies = [.buffer m] ∧ m.size = 4096 ∧
      (m.Within ↔ statusWidth Parse.init.config Table.zero.slots ≤ 4096) :=
  status_within_iff ⟨_, _, _, _, [], boot_empty, rfl⟩ asksStatus_root

/-- A configuration file with forty-four client sections whose names have 63
    characters. -/
def longNames : List Byte :=
  (List.replicate 44 (bytes "[client " ++ List.replicate 63 97 ++ bytes "]\n")).flatten

/-- Is the file accepted, at clock zero and with zero bytes in every ID, and does
    the state satisfy `p`? -/
def accepts (text : List Byte) (p : Broker → Bool) : Bool :=
  match boot (some text) (fun _ => Timespec.zero) (fun _ => Vector.replicate 8 0) with
  | .error _ => false
  | .ok b => p b

theorem exists_of_accepts {text : List Byte} {p : Broker → Bool} (h : accepts text p = true) :
    ∃ b, boot (some text) (fun _ => Timespec.zero) (fun _ => Vector.replicate 8 0) = .ok b ∧
      p b = true := by
  unfold accepts at h
  split at h
  · exact Bool.noConfusion h
  · next b hboot => exact ⟨b, hboot, h⟩

/-- **THE STATUS BUFFER OVERRUNS**: right after start-up with `longNames`, before
    any client has registered, root's STATUS leaves the buffer. -/
theorem status_overruns :
    ∃ b r m, boot (some longNames) (fun _ => Timespec.zero) (fun _ => Vector.replicate 8 0)
        = .ok b ∧ Reachable b ∧ AsksStatus r ∧
      (handleCommand b r).replies = [.buffer m] ∧ ¬ m.Within := by
  obtain ⟨b, hboot, hover⟩ := @exists_of_accepts longNames
    (fun b => decide (4096 < statusWidth b.config b.clients.slots)) (by decide +kernel)
  have hreach : Reachable b := ⟨_, _, _, b, [], hboot, rfl⟩
  have hwf := wellFormed_of_reachable hreach
  have hwide : 4096 < statusWidth b.config b.clients.slots := of_decide_eq_true hover
  refine ⟨b, rootRequest "STATUS\n", statusMsg b.config b.clients.slots, hboot, hreach,
    asksStatus_root, ?_, ?_⟩
  · rw [handleCommand_asksStatus asksStatus_root]
    rfl
  · rw [statusMsg_within_iff b.config fun c hc hlive => ((hwf.slots c hc).clientID hlive).1]
    exact Nat.not_le.mpr hwide

end WdReach
