import WdBroker.HeartbeatProofs

/-! # Announced clients before they register

    A client of the configuration file is supervised from start-up on: it has to
    register within its timeout.  Until then its slot should be out of everybody's
    reach but root's.  It is not: `parse_config` leaves `checkPID` as `memset` did,
    and the lookup by ID takes announced slots like active ones, so whoever names
    the ID of the slot can refresh it with a PING and, outside strict mode, remove
    it with an UNREGISTER.

    `spared_iff` is the exact condition for one command; `announced_protection`
    carries it through every run up to the check that finds the client missing. -/

namespace WdAnnounced

open CString WdClock WdTable WdClientID WdConfig WdCommand WdReach WdMain WdHeartbeat

/-- Slot `i` is the first live slot that holds the ID. -/
def FirstHolder (b : Broker) (x : CStr wdClientIDLen) (i : Nat) : Prop :=
  b.clients.slots.findIdx? (Client.holds x) = some i

/-- The request is a REGISTER that gets slot `i`. -/
def Claims (b : Broker) (r : Request) (i : Nat) : Prop :=
  ∃ creds args, Registers r creds args ∧
    getClientInstanceByName b.config b.clients.slots args.name = some i

/-- The request does not reach the announced slot: it is no PING that finds it,
    and no UNREGISTER that finds it and is permitted. -/
def Spares (b : Broker) (r : Request) (i : Nat) (c : Client) : Prop :=
  (∀ creds, Pings r creds c.clientID → FirstHolder b c.clientID i → r.now = c.lastPing) ∧
    ∀ creds, Unregisters r creds c.clientID → FirstHolder b c.clientID i →
      b.config.strictClients = true ∧ creds.uid ≠ 0

/-- What a lookup finds is the first holder. -/
theorem firstHolder_of_lookup {b : Broker} {x : CStr wdClientIDLen} {pid : Int} {i : Nat}
    (h : getClientInstanceByClientID b.clients.slots x pid = .identified i ∨
      getClientInstanceByClientID b.clients.slots x pid = .pidMismatch i) : FirstHolder b x i := by
  unfold getClientInstanceByClientID at h
  unfold FirstHolder
  cases hidx : b.clients.slots.findIdx? (Client.holds x) with
  | none =>
      rw [hidx] at h
      rcases h with h | h <;> cases h
  | some k =>
      obtain ⟨c, hc, -, -⟩ := findIdx?_some hidx
      rw [hidx] at h
      dsimp only at h
      rw [hc] at h
      dsimp only at h
      cases hadm : c.admits pid with
      | true =>
          rw [hadm, if_pos rfl] at h
          rcases h with h | h
          · rw [Lookup.identified.inj h]
          · cases h
      | false =>
          rw [hadm, if_neg Bool.false_ne_true] at h
          rcases h with h | h
          · cases h
          · rw [Lookup.pidMismatch.inj h]

/-- The first holder is found, and identified if it admits the sender. -/
theorem lookup_of_firstHolder {b : Broker} {x : CStr wdClientIDLen} {i : Nat} {c : Client}
    (pid : Int) (h : FirstHolder b x i) (hc : b.clients.slots[i]? = some c) :
    getClientInstanceByClientID b.clients.slots x pid
      = if c.admits pid then .identified i else .pidMismatch i := by
  unfold FirstHolder at h
  unfold getClientInstanceByClientID
  rw [h]
  dsimp only
  rw [hc]

-- ── one command ───────────────────────────────────────────────────────────────

variable {b : Broker} {r : Request} {creds : Ucred} {x : CStr wdClientIDLen} {i : Nat} {c : Client}

/-- A PING that is honoured has found the first holder. -/
theorem firstHolder_of_ping {t : Timespec} (h : Pings r creds x)
    (hevent : (handleCommand b r).event = some (.ping i t)) : FirstHolder b x i := by
  obtain ⟨s, hc, hb, hnames⟩ := h
  rw [handleCommand_ping hc hb, handlePing, parseClientID_ok_iff.mpr hnames] at hevent
  dsimp only at hevent
  cases hlook : getClientInstanceByClientID b.clients.slots x creds.pid with
  | identified j =>
      rw [hlook] at hevent
      obtain ⟨rfl, -⟩ := SlotEvent.ping.inj (Option.some.inj hevent)
      exact firstHolder_of_lookup (Or.inl hlook)
  | pidMismatch j =>
      rw [hlook] at hevent
      cases hevent
  | notFound =>
      rw [hlook] at hevent
      cases hevent

/-- An UNREGISTER that is honoured has found the first holder. -/
theorem firstHolder_of_unregister (h : Unregisters r creds x)
    (hevent : (handleCommand b r).event = some (.unregister i)) : FirstHolder b x i := by
  obtain ⟨s, hc, hb, hnames⟩ := h
  rw [handleCommand_unregister hc hb, handleUnregister, parseClientID_ok_iff.mpr hnames] at hevent
  dsimp only at hevent
  cases hlook : getClientInstanceByClientID b.clients.slots x creds.pid with
  | identified j =>
      rw [hlook] at hevent
      dsimp only at hevent
      split at hevent
      · cases hevent
      · obtain rfl := SlotEvent.unregister.inj (Option.some.inj hevent)
        exact firstHolder_of_lookup (Or.inl hlook)
  | pidMismatch j =>
      rw [hlook] at hevent
      dsimp only at hevent
      split at hevent
      · obtain rfl := SlotEvent.unregister.inj (Option.some.inj hevent)
        exact firstHolder_of_lookup (Or.inr hlook)
      · cases hevent
  | notFound =>
      rw [hlook] at hevent
      cases hevent

/-- A PING refreshes the first holder of the ID if that admits the sender. -/
theorem ping_reaches (h : Pings r creds x) (hfirst : FirstHolder b x i)
    (hc : b.clients.slots[i]? = some c) (hadm : c.admits creds.pid = true) :
    (command b r).clients.slots[i]? = some (pingSlot r.now c) := by
  obtain ⟨s, hcr, hb, hnames⟩ := h
  unfold command
  rw [handleCommand_ping hcr hb, handlePing, parseClientID_ok_iff.mpr hnames]
  dsimp only
  rw [lookup_of_firstHolder creds.pid hfirst hc, if_pos hadm]
  dsimp only
  rw [Table.update_self, hc]
  rfl

/-- An UNREGISTER of root removes the first holder, and so does that of a sender it
    admits outside strict mode. -/
theorem unregister_reaches (h : Unregisters r creds x) (hfirst : FirstHolder b x i)
    (hc : b.clients.slots[i]? = some c)
    (hperm : creds.uid = 0 ∨ b.config.strictClients = false ∧ c.admits creds.pid = true) :
    (command b r).clients.slots[i]? = some (unregisterSlot c) := by
  obtain ⟨s, hcr, hb, hnames⟩ := h
  have hreleased : (release b i).broker.clients.slots[i]? = some (unregisterSlot c) := by
    show (b.clients.update i unregisterSlot).slots[i]? = _
    rw [Table.update_self, hc]
    rfl
  unfold command
  rw [handleCommand_unregister hcr hb, handleUnregister, parseClientID_ok_iff.mpr hnames]
  dsimp only
  rw [lookup_of_firstHolder creds.pid hfirst hc]
  by_cases hadm : c.admits creds.pid = true
  · have hguard : (b.config.strictClients && creds.uid != 0) = false := by
      rcases hperm with huid | ⟨hstrict, -⟩
      · simp [huid]
      · simp [hstrict]
    rw [if_pos hadm]
    dsimp only
    rw [hguard, if_neg Bool.false_ne_true]
    exact hreleased
  · have huid : creds.uid = 0 := hperm.resolve_right fun h => hadm h.2
    rw [if_neg hadm]
    dsimp only
    rw [huid]
    exact hreleased

/-- A request is one command only. -/
theorem not_registers_of_pings {args : RegisterArgs} {creds' : Ucred} (h : Pings r creds x) :
    ¬ Registers r creds' args := by
  rintro ⟨s', -, hb', -⟩
  obtain ⟨s, -, hb, -⟩ := h
  have hno : isCommand (cmdPing ++ s) cmdRegister = false :=
    not_isCommand s ⟨0, 80, by decide, 82, by decide, by decide⟩
  rw [Option.some.inj (hb.symm.trans hb'), isCommand_self] at hno
  exact Bool.noConfusion hno

theorem not_registers_of_unregisters {args : RegisterArgs} {creds' : Ucred}
    (h : Unregisters r creds x) : ¬ Registers r creds' args := by
  rintro ⟨s', -, hb', -⟩
  obtain ⟨s, -, hb, -⟩ := h
  have hno : isCommand (cmdUnregister ++ s) cmdRegister = false :=
    not_isCommand s ⟨0, 85, by decide, 82, by decide, by decide⟩
  rw [Option.some.inj (hb.symm.trans hb'), isCommand_self] at hno
  exact Bool.noConfusion hno

/-- A command that spares the slot leaves it as it is, or claims it. -/
theorem kept_or_claimed (hc : b.clients.slots[i]? = some c) (h : Spares b r i c) :
    (command b r).clients.slots[i]? = some c ∨ Claims b r i := by
  have hother : ∀ {j : Nat} (f : Client → Client), j ≠ i →
      (b.clients.update j f).slots[i]? = some c :=
    fun f hj => (Table.update_ne b.clients f hj).trans hc
  have hping : ∀ {creds x t}, Pings r creds x → (handleCommand b r).event = some (.ping i t) →
      FirstHolder b x i := firstHolder_of_ping
  have hunreg : ∀ {creds x}, Unregisters r creds x →
      (handleCommand b r).event = some (.unregister i) → FirstHolder b x i :=
    firstHolder_of_unregister
  have hh := handled b r
  unfold command
  generalize handleCommand b r = o at hh hping hunreg ⊢
  cases hh with
  | kept hclients => exact Or.inl (hclients ▸ hc)
  | registered creds args j c' hreq hget hslot =>
      by_cases hj : j = i
      · exact Or.inr ⟨creds, args, hreq, hj ▸ hget⟩
      · exact Or.inl (hother _ hj)
  | pinged creds x j c' hreq hslot hlive hid hpid =>
      by_cases hj : j = i
      · subst hj
        obtain rfl := Option.some.inj (hslot.symm.trans hc)
        subst hid
        -- the reading that is stored is the one that is there
        have hnow := h.1 creds hreq (hping hreq rfl)
        refine Or.inl ?_
        show (b.clients.update j (pingSlot r.now)).slots[j]? = some c'
        rw [Table.update_self, hc, hnow]
        rfl
      · exact Or.inl (hother _ hj)
  | unregistered creds x j c' hreq hslot hlive hid hperm =>
      by_cases hj : j = i
      · subst hj
        obtain rfl := Option.some.inj (hslot.symm.trans hc)
        subst hid
        obtain ⟨hstrict, huid⟩ := h.2 creds hreq (hunreg hreq rfl)
        rcases hperm with hroot | ⟨hoff, -⟩
        · exact absurd hroot huid
        · rw [hstrict] at hoff
          exact Bool.noConfusion hoff
      · exact Or.inl (hother _ hj)

/-- **ONE COMMAND**: an announced slot is left as it is, or claimed by a REGISTER,
    exactly when the command spares it. -/
theorem spared_iff (hc : b.clients.slots[i]? = some c) (hann : c.anounced = true)
    (hchk : c.checkPID = false) :
    ((command b r).clients.slots[i]? = some c ∨ Claims b r i) ↔ Spares b r i c := by
  have hadm : ∀ pid, c.admits pid = true := fun pid => Client.admits_iff.mpr (Or.inl hchk)
  constructor
  · rintro (hsame | ⟨creds, args, hreg, -⟩)
    · constructor
      · intro creds hping hfirst
        have hnew := ping_reaches hping hfirst hc (hadm creds.pid)
        exact congrArg Client.lastPing (Option.some.inj (hnew.symm.trans hsame))
      · intro creds hunreg hfirst
        by_contra hperm
        rw [not_and_or, not_not, Bool.not_eq_true] at hperm
        have hnew := unregister_reaches hunreg hfirst hc
          (hperm.symm.imp id fun hstrict => ⟨hstrict, hadm creds.pid⟩)
        have hflag : false = c.anounced :=
          congrArg Client.anounced (Option.some.inj (hnew.symm.trans hsame))
        rw [hann] at hflag
        exact Bool.noConfusion hflag
    · exact ⟨fun _ hping _ => absurd hreg (not_registers_of_pings hping),
        fun _ hunreg _ => absurd hreg (not_registers_of_unregisters hunreg)⟩
  · exact kept_or_claimed hc

/-- The PID check of an announced slot is off. -/
def Unchecked (b : Broker) : Prop :=
  ∀ c ∈ b.clients.slots, c.anounced = true → c.checkPID = false

theorem unchecked_command (b : Broker) (r : Request) (h : Unchecked b) : Unchecked (command b r) :=
  forall_slots_command h (fun _ hc => hc) (fun _ _ _ _ _ hann => Bool.noConfusion hann)
    (fun _ hc => hc) fun _ _ hann => Bool.noConfusion hann

theorem unchecked_boot {file : Option (List Byte)} {clock : Nat → Timespec} {raws : Nat → Raw}
    {b₀ : Broker} (hboot : boot file clock raws = .ok b₀) : Unchecked b₀ :=
  forall_slots_boot hboot (fun _ => rfl) fun _ hslot _ => hslot.unchecked

-- ── whole runs ────────────────────────────────────────────────────────────────

/-- The command of the iteration spares the slot and does not claim it. -/
def SparesTurn (i : Nat) (c : Client) (s : Main) (it : Iteration) : Prop :=
  s.looping = true → ∀ r ∈ it.request, Spares s.broker r i c ∧ ¬ Claims s.broker r i

theorem served_kept {s : Main} {it : Iteration} (hc : s.broker.clients.slots[i]? = some c)
    (hloop : s.looping = true) (h : SparesTurn i c s it) :
    (served s it).broker.clients.slots[i]? = some c := by
  unfold served
  cases hreq : it.request with
  | none => exact hc
  | some r =>
      obtain ⟨hspares, hno⟩ := h hloop r hreq
      rcases kept_or_claimed hc hspares with hkept | hclaims
      · exact hkept
      · exact absurd hclaims hno

/-- Check, timer and signal leave the table alone. -/
theorem iterate_kept {s : Main} {it : Iteration} (h : SparesTurn i c s it)
    (hc : s.broker.clients.slots[i]? = some c) :
    (iterate s it).broker.clients.slots[i]? = some c := by
  cases hloop : s.looping with
  | true => rw [(iterate_served hloop).1]; exact served_kept hc hloop h
  | false => rw [iterate_stopped hloop]; exact hc

theorem mainLoop_kept (its : List Iteration) :
    ∀ {s : Main}, s.broker.clients.slots[i]? = some c →
      Machine.Admissible (SparesTurn i c) iterate s its →
      (mainLoop s its).broker.clients.slots[i]? = some c := by
  induction its with
  | nil => intro s hc _; exact hc
  | cons it its ih => intro s hc h; exact ih (iterate_kept h.1 hc) h.2

/-- A live slot whose age is over its timeout, and has not wrapped, is found. -/
theorem fails_of_late {s : Main} {it : Iteration} (hpass : it.passes = true)
    (hc : (served s it).broker.clients.slots[i]? = some c) (hlive : c.live = true)
    (hlate : ((c.timeoutMs : Int) + 1) * 1000000 ≤ (it.check i).ns - c.lastPing.ns)
    (hfit : (it.check i).ns - c.lastPing.ns < (2 ^ 32 - 1) * 1000000) : Fails s it := by
  refine Or.inr (Or.inr ⟨hpass, anyMissed_iff.mpr ⟨i, c, hc, ?_⟩⟩)
  rw [Nat.zero_add, missed_iff]
  refine ⟨hlive, ?_⟩
  by_contra hage
  have hle : c.lastPing.ns ≤ (it.check i).ns := by omega
  have hlt := lt_of_msSince_le hle (Int.le_of_lt hfit) (Nat.le_of_not_lt hage)
  omega

/-- **WHEN ANNOUNCED SLOTS ARE PROTECTED**: after start-up and any commands, a
    command of a peer that is not root leaves an announced slot completely
    unchanged, or is a REGISTER that claims it, exactly when it is neither a PING
    naming its ID (at another reading of the clock) nor, outside strict mode, an
    UNREGISTER naming its ID, with the slot being the first to hold that ID.  In a
    run of the main loop whose commands all spare the slot and none of which claims
    it, the slot is as announced at every check, and the check that comes
    `timeout_ms + 1` milliseconds after the announcement, or later but before the
    32-bit age wraps, clears `all_ok`. -/
theorem announced_protection {file : Option (List Byte)} {clock : Nat → Timespec}
    {raws : Nat → Raw} {b₀ : Broker} (hboot : boot file clock raws = .ok b₀) :
    (∀ (rs : List Request) (i : Nat) (c : Client) (r : Request) (creds : Ucred),
      let b := commands b₀ rs
      b.clients.slots[i]? = some c → c.anounced = true → r.creds = some creds → creds.uid ≠ 0 →
      (((command b r).clients.slots[i]? = some c ∨ Claims b r i) ↔
        (Pings r creds c.clientID → FirstHolder b c.clientID i → r.now = c.lastPing) ∧
        (Unregisters r creds c.clientID → FirstHolder b c.clientID i →
          b.config.strictClients = true))) ∧
    (∀ (watchdog signal : Bool) (its : List Iteration) (it : Iteration) (i : Nat) (c : Client),
      let s := enterLoop b₀ clock watchdog signal
      b₀.clients.slots[i]? = some c → c.anounced = true →
      (∀ js jt ks, its ++ [it] = js ++ jt :: ks → SparesTurn i c (mainLoop s js) jt) →
      (mainLoop s its).looping = true →
      (served (mainLoop s its) it).broker.clients.slots[i]? = some c ∧
      (it.passes = true →
        ((c.timeoutMs : Int) + 1) * 1000000 ≤ (it.check i).ns - (clock i).ns →
        (it.check i).ns - (clock i).ns < (2 ^ 32 - 1) * 1000000 →
        (mainLoop s (its ++ [it])).allOk = false)) := by
  constructor
  · intro rs i c r creds b hc hann hcr huid
    have hunchecked : Unchecked b := Machine.run_invariant command unchecked_command rs b₀
      (unchecked_boot hboot)
    rw [spared_iff hc hann (hunchecked c (List.mem_of_getElem? hc) hann)]
    have hself : ∀ {creds'}, r.creds = some creds' → creds' = creds :=
      fun h => Option.some.inj (h.symm.trans hcr)
    constructor
    · exact fun h => ⟨h.1 creds, fun hu hf => (h.2 creds hu hf).1⟩
    · rintro ⟨hping, hunreg⟩
      constructor
      · intro creds' hp
        obtain rfl := hself hp.choose_spec.1
        exact hping hp
      · intro creds' hu hf
        obtain rfl := hself hu.choose_spec.1
        exact ⟨hunreg hu hf, huid⟩
  · intro watchdog signal its it i c s hc hann hspares hloop
    have hstart : s.broker.clients.slots[i]? = some c := by
      cases signal <;> exact hc
    obtain ⟨hbefore, hlast, -⟩ :=
      Machine.admissible_append.mp (Machine.admissible_iff.mpr hspares)
    have hkept := served_kept (mainLoop_kept its hstart hbefore) hloop hlast
    refine ⟨hkept, fun hpass hlate hfit => ?_⟩
    have hping : c.lastPing = clock i := by
      obtain ⟨text, -, hacc, -, -⟩ := boot_ok hboot
      rcases accepted_slot hacc hc with ⟨name, -, hslot⟩ | ⟨-, rfl⟩
      · exact hslot.lastPing_eq
      · exact Bool.noConfusion hann
    rw [← hping] at hlate hfit
    have hfails := fails_of_late hpass hkept (Client.live_iff.mpr (Or.inr hann)) hlate hfit
    show (Machine.run iterate s (its ++ [it])).allOk = false
    rw [Machine.run_snoc]
    exact iterate_fails hloop hfails

/-- Slot 0 is announced, with the default timeout. -/
def expectsClient (b : Broker) : Bool :=
  decide (∃ c ∈ b.clients.slots[0]?, c.anounced = true ∧ c.timeoutMs = 300000)

theorem announced_protection_detects :
    ∃ b₀, boot (some oneClient) (fun _ => Timespec.zero) (fun _ => Vector.replicate 8 0)
        = .ok b₀ ∧
      (mainLoop (enterLoop b₀ (fun _ => Timespec.zero) true false)
        [quiet false (Timespec.ofMs 300001)]).allOk = false := by
  obtain ⟨b₀, hboot, h⟩ := @exists_of_accepts oneClient expectsClient (by decide +kernel)
  obtain ⟨c, hc, hann, htimeout⟩ := of_decide_eq_true h
  obtain ⟨text, -, -, hrun, -⟩ := boot_ok hboot
  have hspares : ∀ js jt ks, [quiet false (Timespec.ofMs 300001)] = js ++ jt :: ks →
      SparesTurn 0 c (mainLoop (enterLoop b₀ (fun _ => Timespec.zero) true false) js) jt := by
    intro js jt ks hsplit _ r hr
    have hmem : jt ∈ [quiet false (Timespec.ofMs 300001)] := by rw [hsplit]; simp
    rw [List.mem_singleton.mp hmem] at hr
    exact nomatch hr
  have hloop : (enterLoop b₀ (fun _ => Timespec.zero) true false).looping = true := by
    simp [enterLoop, Main.signalled, Main.looping, hrun]
  refine ⟨b₀, hboot, ((announced_protection hboot).2 true false [] _ 0 c hc hann hspares hloop).2
    rfl ?_ ?_⟩
  · rw [htimeout]
    decide
  · decide

/-- A command of an ordinary user, `ms` milliseconds after start-up. -/
def stranger (cmd : String) (ms : Nat) : Request :=
  ⟨some ⟨7, 1000⟩, .packet (bytes cmd), Timespec.ofMs ms, Vector.replicate 8 0⟩

theorem pings_stranger (ms : Nat) : Pings (stranger "PING 0000000000000000\n" ms) ⟨7, 1000⟩
    (makeClientID (Vector.replicate 8 0)) :=
  ⟨bytes "0000000000000000\n", rfl, rfl,
    (@parseClientID_ok_iff [] _ _).mp (by decide +kernel)⟩

theorem unregisters_stranger (ms : Nat) :
    Unregisters (stranger "UNREGISTER 0000000000000000\n" ms) ⟨7, 1000⟩
      (makeClientID (Vector.replicate 8 0)) :=
  ⟨bytes "0000000000000000\n", rfl, rfl,
    (@parseClientID_ok_iff [] _ _).mp (by decide +kernel)⟩

/-- Slot 0 is announced; a stranger's PING refreshes it, its UNREGISTER frees it. -/
def strangerActs (b : Broker) : Bool :=
  decide (∃ c ∈ b.clients.slots[0]?, c.anounced = true ∧ c.active = false ∧
    c.lastPing = Timespec.zero ∧
    (command b (stranger "PING 0000000000000000\n" 299999)).clients.slots[0]?
      = some { c with lastPing := Timespec.ofMs 299999 } ∧
    (command b (stranger "UNREGISTER 0000000000000000\n" 0)).clients.slots[0]?
      = some { c with active := false, anounced := false })

/-- **STRANGERS REACH ANNOUNCED SLOTS**: right after start-up an ordinary user,
    naming the ID of an announced client, refreshes its slot with a PING and
    removes it with an UNREGISTER. -/
theorem stranger_reaches :
    ∃ b₀ c, boot (some oneClient) (fun _ => Timespec.zero) (fun _ => Vector.replicate 8 0)
        = .ok b₀ ∧ b₀.clients.slots[0]? = some c ∧ c.anounced = true ∧ c.active = false ∧
      (let r := stranger "PING 0000000000000000\n" 299999
       ¬ ((command b₀ r).clients.slots[0]? = some c ∨ Claims b₀ r 0) ∧
        (command b₀ r).clients.slots[0]? = some { c with lastPing := Timespec.ofMs 299999 }) ∧
      (let r := stranger "UNREGISTER 0000000000000000\n" 0
       ¬ ((command b₀ r).clients.slots[0]? = some c ∨ Claims b₀ r 0) ∧
        (command b₀ r).clients.slots[0]? = some { c with active := false, anounced := false }) := by
  obtain ⟨b₀, hboot, h⟩ := @exists_of_accepts oneClient strangerActs (by decide +kernel)
  obtain ⟨c, hc, hann, hact, hlast, hping, hunreg⟩ := of_decide_eq_true h
  refine ⟨b₀, c, hboot, hc, hann, hact, ⟨?_, hping⟩, ⟨?_, hunreg⟩⟩
  · rintro (hsame | ⟨creds, args, hreg, -⟩)
    · have heq : Timespec.ofMs 299999 = c.lastPing :=
        congrArg Client.lastPing (Option.some.inj (hping.symm.trans hsame))
      rw [hlast] at heq
      exact absurd heq (by decide)
    · exact not_registers_of_pings (pings_stranger _) hreg
  · rintro (hsame | ⟨creds, args, hreg, -⟩)
    · have heq : false = c.anounced :=
        congrArg Client.anounced (Option.some.inj (hunreg.symm.trans hsame))
      rw [hann] at heq
      exact Bool.noConfusion heq
    · exact not_registers_of_unregisters (unregisters_stranger _) hreg

end WdAnnounced
