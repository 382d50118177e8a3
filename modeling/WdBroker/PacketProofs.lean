import WdBroker.AnnouncedProofs
import WdBroker.RegisterGrammarProofs

/-! # Packets that are read in part

    A sequenced packet is read once, into 128 bytes, and what does not fit is gone; the
    commands then see what stands before the first NUL.  Nothing compares the two
    lengths, so the part that is read is executed as if it were the packet.

    `command_changes_iff` says which requests change the broker's state;
    `whole_packet_iff` says when such a change shows that the packet was whole. -/

namespace WdPacket

open CString WdClock WdTable WdClientID WdConfig WdCommand WdReach WdReplies WdAnnounced WdGrammar

/-- The packet is read to its end, and all of it is text. -/
def Whole (data : List Byte) : Prop := data.length ≤ 127 ∧ (0 : Byte) ∉ data

instance (data : List Byte) : Decidable (Whole data) := inferInstanceAs (Decidable (_ ∧ _))

/-- The command changes the client table or one of the two flags. -/
def Changes (b : Broker) (r : Request) : Prop :=
  (command b r).clients ≠ b.clients ∨ (command b r).running ≠ b.running ∨
    (command b r).reboot ≠ b.reboot

/-- What is read is one of the four commands that act, well formed, from a peer that
    may give it, and there is something for it to do. -/
inductive Effective (b : Broker) (r : Request) : Prop where
  | register (creds : Ucred) (args : RegisterArgs) (i : Nat) (hreq : Registers r creds args)
      (hget : getClientInstanceByName b.config b.clients.slots args.name = some i)
  | ping (creds : Ucred) (x : CStr wdClientIDLen) (i : Nat) (c : Client) (hreq : Pings r creds x)
      (hfirst : FirstHolder b x i) (hslot : b.clients.slots[i]? = some c)
      (hadm : c.admits creds.pid = true) (hnow : r.now ≠ c.lastPing)
  | unregister (creds : Ucred) (x : CStr wdClientIDLen) (i : Nat) (c : Client)
      (hreq : Unregisters r creds x) (hfirst : FirstHolder b x i)
      (hslot : b.clients.slots[i]? = some c)
      (hperm : creds.uid = 0 ∨ b.config.strictClients = false ∧ c.admits creds.pid = true)
  | reboot (hreq : Reboots r) (hflags : ¬ (b.running = false ∧ b.reboot = true))

variable {b : Broker} {r : Request}

/-- A table whose slot `i` was `c` and is something else has changed. -/
theorem clients_ne {t t' : Table} {i : Nat} {c c' : Client} (hc : t.slots[i]? = some c)
    (hc' : t'.slots[i]? = some c') (hne : c' ≠ c) : t' ≠ t := by
  rintro rfl
  exact hne (Option.some.inj (hc'.symm.trans hc))

theorem changes_of_effective (h : Effective b r) : Changes b r := by
  cases h with
  | register creds args i hreq hget =>
      obtain ⟨c, hslot, hinactive, -⟩ := getClientInstanceByName_some hget
      obtain ⟨hevent, -⟩ := handleCommand_registers hreq hget
      refine Or.inl (@clients_ne _ _ _ _ (registerSlot args creds.pid r.now r.raw c) hslot ?_ ?_)
      · obtain ⟨s, hcr, hb, hparse⟩ := hreq
        unfold command
        rw [handleCommand_register hcr hb, handleRegister, hparse]
        dsimp only
        rw [hget]
        dsimp only
        rw [Table.update_self, hslot]
        rfl
      · intro hsame
        have hactive := congrArg Client.active hsame
        rw [hinactive] at hactive
        exact Bool.noConfusion hactive
  | ping creds x i c hreq hfirst hslot hadm hnow =>
      exact Or.inl (clients_ne hslot (ping_reaches hreq hfirst hslot hadm)
        fun hsame => hnow (congrArg Client.lastPing hsame))
  | unregister creds x i c hreq hfirst hslot hperm =>
      refine Or.inl (clients_ne hslot (unregister_reaches hreq hfirst hslot hperm) fun hsame => ?_)
      obtain ⟨c', hc', hholds, -⟩ := findIdx?_some hfirst
      obtain rfl := Option.some.inj (hc'.symm.trans hslot)
      have hlive := (Client.holds_iff.mp hholds).1
      rw [← hsame] at hlive
      exact Bool.noConfusion hlive
  | reboot hreq hflags =>
      have hbroker := @handleCommand_reboots b r hreq
      unfold Changes command
      rw [hbroker]
      by_contra hnone
      push Not at hnone
      exact hflags ⟨hnone.2.1.symm, hnone.2.2.symm⟩

theorem effective_of_changes (h : Changes b r) : Effective b r := by
  have hping : ∀ {creds x i t}, Pings r creds x → (handleCommand b r).event = some (.ping i t) →
      FirstHolder b x i := firstHolder_of_ping
  have hunreg : ∀ {creds x i}, Unregisters r creds x →
      (handleCommand b r).event = some (.unregister i) → FirstHolder b x i :=
    firstHolder_of_unregister
  by_cases hreboot : Reboots r
  · -- a REBOOT leaves the table alone, so it was the flags
    refine .reboot hreboot fun ⟨hrun, hreb⟩ => ?_
    have hbroker := @handleCommand_reboots b r hreboot
    unfold Changes command at h
    rw [hbroker, hrun, hreb] at h
    simp at h
  · obtain ⟨hrun, hreb⟩ := @handleCommand_flags b r hreboot
    have hclients : (handleCommand b r).broker.clients ≠ b.clients :=
      h.resolve_right (not_or.mpr ⟨not_not.mpr hrun, not_not.mpr hreb⟩)
    have hh := handled b r
    generalize handleCommand b r = o at hh hclients hping hunreg
    cases hh with
    | kept hsame => exact absurd hsame hclients
    | registered creds args i c hreq hget hslot => exact .register creds args i hreq hget
    | pinged creds x i c hreq hslot hlive hid hpid =>
        refine .ping creds x i c hreq (hping hreq rfl) hslot (Client.admits_iff.mpr hpid) ?_
        -- a refresh with the reading that is there changes nothing
        rintro hnow
        refine hclients (Table.ext_getElem? fun j => ?_)
        show (b.clients.update i (pingSlot r.now)).slots[j]? = _
        by_cases hj : i = j
        · subst hj
          rw [Table.update_self, hslot, hnow]
          rfl
        · exact Table.update_ne b.clients _ hj
    | unregistered creds x i c hreq hslot hlive hid hperm =>
        exact .unregister creds x i c hreq (hunreg hreq rfl) hslot
          (hperm.imp id (And.imp id Client.admits_iff.mpr))

/-- **WHAT CHANGES THE STATE**: a command changes the client table or a flag exactly if
    what is read of it is well formed, permitted and has something to do. -/
theorem command_changes_iff (b : Broker) (r : Request) : Changes b r ↔ Effective b r :=
  ⟨effective_of_changes, changes_of_effective⟩

-- ── the part that is read ─────────────────────────────────────────────────────

/-- The request with what is read of its packet for a packet. -/
def asRead (r : Request) (data : List Byte) : Request :=
  { r with incoming := .packet (cstr (data.take 127)) }

/-- The commands cannot tell the two apart. -/
theorem buf_asRead {data buf : List Byte} (hr : r.incoming = .packet data) (hne : buf ≠ []) :
    (asRead r data).buf = some buf ↔ r.buf = some buf := by
  have hread : r.buf
      = if ((data.take 127).length : Int) ≤ 0 then none else some (cstr (data.take 127)) := by
    unfold Request.buf readWithTimeout
    rw [hr]
  rw [hread]
  by_cases hpart : cstr (data.take 127) = []
  · have hnone : (asRead r data).buf = none := by
      unfold Request.buf readWithTimeout asRead
      dsimp only
      rw [hpart]
      rfl
    rw [hnone, hpart]
    constructor
    · exact fun h => nomatch h
    · intro h
      split at h
      · exact nomatch h
      · exact absurd (Option.some.inj h).symm hne
  · have hfits : (cstr (data.take 127)).length ≤ 127 :=
      Nat.le_trans (List.takeWhile_sublist _).length_le (List.length_take_le _ _)
    have hpos : ¬ ((data.take 127).length : Int) ≤ 0 := by
      intro h0
      have hnil : data.take 127 = [] := List.length_eq_zero_iff.mp (by omega)
      exact hpart (by rw [hnil]; rfl)
    rw [@buf_of_packet (asRead r data) _ rfl hpart hfits (cstr_no_nul _), if_neg hpos]

/-- Whether a request is effective depends on its sender, the clock and what is read. -/
theorem Effective.of_buf {r' : Request} (h : Effective b r) (hcreds : r'.creds = r.creds)
    (hnow : r'.now = r.now) (hbuf : ∀ buf, buf ≠ [] → r.buf = some buf → r'.buf = some buf) :
    Effective b r' := by
  have hcmd : ∀ {cmd s : List Byte}, cmd ≠ [] → r.buf = some (cmd ++ s) →
      r'.buf = some (cmd ++ s) := fun hne => hbuf _ (List.append_ne_nil_of_left_ne_nil hne _)
  cases h with
  | register creds args i hreq hget =>
      obtain ⟨s, hc, hb, hparse⟩ := hreq
      exact .register creds args i ⟨s, hcreds.trans hc, hcmd (by decide) hb, hparse⟩ hget
  | ping creds x i c hreq hfirst hslot hadm hlast =>
      obtain ⟨s, hc, hb, hnames⟩ := hreq
      exact .ping creds x i c ⟨s, hcreds.trans hc, hcmd (by decide) hb, hnames⟩ hfirst hslot hadm
        (hnow ▸ hlast)
  | unregister creds x i c hreq hfirst hslot hperm =>
      obtain ⟨s, hc, hb, hnames⟩ := hreq
      exact .unregister creds x i c ⟨s, hcreds.trans hc, hcmd (by decide) hb, hnames⟩ hfirst hslot
        hperm
  | reboot hreq hflags =>
      obtain ⟨creds, s, hc, huid, hb, hs⟩ := hreq
      exact .reboot ⟨creds, s, hcreds.trans hc, huid, hcmd (by decide) hb, hs⟩ hflags

/-- A request is as effective as what is read of it. -/
theorem effective_asRead_iff {data : List Byte} (hr : r.incoming = .packet data) :
    Effective b (asRead r data) ↔ Effective b r :=
  ⟨fun h => h.of_buf rfl rfl fun _ hne => (buf_asRead hr hne).mp,
    fun h => h.of_buf rfl rfl fun _ hne => (buf_asRead hr hne).mpr⟩

/-- **COMMANDS READ IN PART**: for every state and every packet of any length and content,
    a change of the client table or of a flag shows that the packet has at most 127 bytes
    and no NUL, exactly if that is so, or if the part that is read would, as a packet of
    its own, not be an effective command. -/
theorem whole_packet_iff {data : List Byte} (hr : r.incoming = .packet data) :
    (Changes b r → Whole data) ↔ Whole data ∨ ¬ Effective b (asRead r data) := by
  rw [command_changes_iff, effective_asRead_iff hr]
  tauto

theorem whole_packet_iff_plain :
    (Changes emptyBroker (userPacket (bytes "REGISTER a 5000\n")) →
        Whole (bytes "REGISTER a 5000\n")) ↔
      Whole (bytes "REGISTER a 5000\n") ∨ ¬ Effective emptyBroker
        (asRead (userPacket (bytes "REGISTER a 5000\n")) (bytes "REGISTER a 5000\n")) :=
  @whole_packet_iff emptyBroker (userPacket (bytes "REGISTER a 5000\n")) _ rfl

/-- A REGISTER with a fourth argument behind the 127th byte. -/
def longRegister : List Byte := bytes "REGISTER a 5000" ++ List.replicate 112 32 ++ bytes "b"

/-- A REGISTER with the timeout 50000, whose last digit is the 128th byte. -/
def cutTimeout : List Byte := cmdRegister ++ List.replicate 112 32 ++ bytes "a 50000"

/-- A REGISTER with text behind a NUL. -/
def hiddenText : List Byte := bytes "REGISTER a 5000" ++ [0] ++ bytes "b c d"

/-- A packet that is not read whole registers a client with a timeout of 5000. -/
def RegisteredInPart (data : List Byte) : Prop :=
  ¬ Whole data ∧ Changes emptyBroker (userPacket data) ∧
    (command emptyBroker (userPacket data)).clients.slots[0]?.map Client.timeoutMs = some 5000

theorem registeredInPart_of {data : List Byte} (hpart : ¬ Whole data)
    (hslot : (command emptyBroker (userPacket data)).clients.slots[0]?.map Client.timeoutMs
      = some 5000) : RegisteredInPart data := by
  refine ⟨hpart, Or.inl fun hsame => ?_, hslot⟩
  rw [hsame] at hslot
  exact absurd hslot (by decide)

/-- **PARTS ARE EXECUTED**. -/
theorem parts_executed :
    RegisteredInPart longRegister ∧ RegisteredInPart cutTimeout ∧ RegisteredInPart hiddenText :=
  ⟨registeredInPart_of (by decide +kernel) (by decide +kernel),
    registeredInPart_of (by decide +kernel) (by decide +kernel),
    registeredInPart_of (by decide +kernel) (by decide +kernel)⟩

end WdPacket
