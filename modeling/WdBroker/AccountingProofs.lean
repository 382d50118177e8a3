import WdBroker.RepliesProofs
import WdBroker.SupervisionProofs

/-! # Slot accounting

    How many slots are live is settled by the answers alone: the sections of the
    configuration file, one more for every REGISTER that was answered `OK` and did
    not claim an announced slot, one less for every UNREGISTER that was answered
    `OK`.  A run is followed together with these two counts; what a command does to
    the number of live slots (`liveSlots_command`) is what it adds to them. -/

namespace WdAccounting

open CString WdClock WdTable WdClientID WdConfig WdCommand WdReach WdReplies WdSupervision

/-- The number of live slots. -/
def liveSlots (b : Broker) : Nat := b.clients.slots.countP Client.live

/-- The packet begins with the keyword. -/
def begins (r : Request) (cmd : List Byte) : Bool := r.buf.any fun buf => isCommand buf cmd

/-- The answer begins with `OK`. -/
def answeredOk (b : Broker) (r : Request) : Bool :=
  (received b r).any fun msg => strncmpEq msg (bytes "OK") 2

/-- The command registered a client into a slot that was announced. -/
def claimsAnnounced (b : Broker) (r : Request) : Bool :=
  match (handleCommand b r).event with
  | some (.register i _ _) => (deref b.clients i).anounced
  | _ => false

/-- A REGISTER answered `OK` that did not claim an announced slot. -/
def opens (b : Broker) (r : Request) : Bool :=
  begins r cmdRegister && answeredOk b r && !claimsAnnounced b r

/-- An UNREGISTER answered `OK`. -/
def closes (b : Broker) (r : Request) : Bool := begins r cmdUnregister && answeredOk b r

/-- A broker with the two counts of its answers so far. -/
structure Ledger where
  broker : Broker
  opened : Nat
  closed : Nat

/-- One command, with what it adds to the counts. -/
def account (l : Ledger) (r : Request) : Ledger where
  broker := command l.broker r
  opened := l.opened + (opens l.broker r).toNat
  closed := l.closed + (closes l.broker r).toNat

theorem run_account_broker (rs : List Request) :
    ∀ l : Ledger, (Machine.run account l rs).broker = commands l.broker rs := by
  induction rs with
  | nil => intro l; rfl
  | cons r rs ih => intro l; exact ih (account l r)

-- ── counting slots ────────────────────────────────────────────────────────────

/-- Changing one element moves the count by that element. -/
theorem countP_modify {α : Type} {p : α → Bool} {f : α → α} {l : List α} :
    ∀ {i : Nat} {x : α}, l[i]? = some x →
      (l.modify i f).countP p + (p x).toNat = l.countP p + (p (f x)).toNat := by
  induction l with
  | nil => intro i x hx; exact nomatch hx
  | cons y l ih =>
      intro i x hx
      cases i with
      | zero =>
          obtain rfl := Option.some.inj hx
          rw [List.modify_zero_cons, List.countP_cons, List.countP_cons]
          cases p y <;> cases p (f y) <;> simp
      | succ i =>
          have hrest := @ih i x hx
          rw [List.modify_succ_cons, List.countP_cons, List.countP_cons]
          omega

/-- If exactly the first `n` elements satisfy the test, there are `n` of them. -/
theorem countP_prefix {α : Type} {p : α → Bool} {l : List α} :
    ∀ {n : Nat}, n ≤ l.length →
      (∀ (i : Nat) (x : α), l[i]? = some x → (p x = true ↔ i < n)) → l.countP p = n := by
  induction l with
  | nil => intro n hn _; exact (Nat.le_zero.mp hn).symm
  | cons y l ih =>
      intro n hn h
      have hy : p y = true ↔ 0 < n := h 0 y rfl
      cases n with
      | zero =>
          refine List.countP_eq_zero.mpr fun a ha hp => ?_
          obtain ⟨i, hi⟩ := List.mem_iff_getElem?.mp ha
          exact Nat.not_lt_zero i ((h i a hi).mp hp)
      | succ n =>
          rw [List.countP_cons_of_pos (hy.mpr (Nat.succ_pos n)),
            ih (Nat.le_of_succ_le_succ hn) fun i x hx => ?_]
          rw [h (i + 1) x hx, Nat.add_lt_add_iff_right]

/-- An update that keeps a slot's liveness, fills it or frees it. -/
theorem liveSlots_update {b : Broker} {i : Nat} {c : Client} (f : Client → Client)
    (hc : b.clients.slots[i]? = some c) :
    liveSlots { b with clients := b.clients.update i f } + c.live.toNat
      = liveSlots b + (f c).live.toNat :=
  countP_modify hc

-- ── what the answers say ──────────────────────────────────────────────────────

variable {b : Broker} {r : Request}

theorem begins_iff {cmd : List Byte} : begins r cmd = true ↔ Begins r cmd := by
  unfold begins Begins
  cases r.buf with
  | none => simp
  | some buf =>
      rw [Option.any_some, isCommand_iff]
      simp

theorem begins_eq_false {cmd cmd' : List Byte} (h : Begins r cmd)
    (hne : ∃ i : Nat, ∃ a ∈ cmd[i]?, ∃ a' ∈ cmd'[i]?, a ≠ a') : begins r cmd' = false := by
  rw [← Bool.not_eq_true, begins_iff]
  exact not_begins h hne

theorem answeredOk_of_ok {s : List Byte}
    (h : (handleCommand b r).replies = [.text (bytes "OK" ++ s)]) : answeredOk b r = true := by
  have hmsg : strncmpEq (bytes "OK" ++ s) (bytes "OK") 2 = true :=
    (strncmpEq_length_iff _ (bytes "OK")).mpr ⟨s, rfl⟩
  unfold answeredOk received
  rw [h, List.map_singleton, List.any_cons, List.any_nil, Bool.or_false]
  exact hmsg

theorem answeredOk_of_error {msg : List Byte} (hmsg : IsError msg)
    (h : (handleCommand b r).replies = [.text msg]) : answeredOk b r = false := by
  obtain ⟨s, rfl⟩ := hmsg
  unfold answeredOk received
  rw [h]
  rfl

/-- The REGISTERs that count are those that fill a slot which is not announced. -/
theorem opens_iff : opens b r = true ↔
    ∃ i t ms, (handleCommand b r).event = some (.register i t ms) ∧
      (deref b.clients i).anounced = false := by
  unfold opens claimsAnnounced
  have h := answered b r
  have hok := @answeredOk_of_ok b r
  have herr := @answeredOk_of_error b r
  generalize answeredOk b r = ok at hok herr ⊢
  generalize handleCommand b r = o at h hok herr ⊢
  cases h with
  | refused msg hmsg =>
      rw [herr hmsg rfl]
      simp [answer]
  | reported m hcmd =>
      have hno : begins r cmdRegister = false := by
        rw [← Bool.not_eq_true, begins_iff]
        exact fun h => not_reports (Or.inl h) hcmd
      rw [hno]
      simp [answer]
  | registered i ms s hcmd hevent hreply =>
      rw [begins_iff.mpr hcmd, hok hreply, hevent]
      simp
  | pinged i s hcmd hevent hreply =>
      rw [begins_eq_false hcmd ⟨0, 80, by decide, 82, by decide, by decide⟩, hevent]
      simp
  | unregistered i s hcmd hevent hreply =>
      rw [begins_eq_false hcmd ⟨0, 85, by decide, 82, by decide, by decide⟩, hevent]
      simp
  | rebooted s hcmd hevent hreply =>
      rw [begins_eq_false hcmd ⟨2, 66, by decide, 71, by decide, by decide⟩, hevent]
      simp

/-- The UNREGISTERs that count are those that free a slot. -/
theorem closes_iff : closes b r = true ↔
    ∃ i, (handleCommand b r).event = some (.unregister i) := by
  unfold closes
  have h := answered b r
  have hok := @answeredOk_of_ok b r
  have herr := @answeredOk_of_error b r
  generalize answeredOk b r = ok at hok herr ⊢
  generalize handleCommand b r = o at h hok herr ⊢
  cases h with
  | refused msg hmsg =>
      rw [herr hmsg rfl]
      simp [answer]
  | reported m hcmd =>
      have hno : begins r cmdUnregister = false := by
        rw [← Bool.not_eq_true, begins_iff]
        exact fun h => not_reports (Or.inr (Or.inr (Or.inl h))) hcmd
      rw [hno]
      simp [answer]
  | registered i ms s hcmd hevent hreply =>
      rw [begins_eq_false hcmd ⟨0, 82, by decide, 85, by decide, by decide⟩, hevent]
      simp
  | pinged i s hcmd hevent hreply =>
      rw [begins_eq_false hcmd ⟨0, 80, by decide, 85, by decide, by decide⟩, hevent]
      simp
  | unregistered i s hcmd hevent hreply =>
      rw [begins_iff.mpr hcmd, hok hreply, hevent]
      simp
  | rebooted s hcmd hevent hreply =>
      rw [begins_eq_false hcmd ⟨0, 82, by decide, 85, by decide, by decide⟩, hevent]
      simp

theorem opens_eq_false
    (h : ∀ i t ms, (handleCommand b r).event ≠ some (.register i t ms)) : opens b r = false := by
  rw [← Bool.not_eq_true, opens_iff]
  rintro ⟨i, t, ms, hevent, -⟩
  exact h i t ms hevent

theorem closes_eq_false
    (h : ∀ i, (handleCommand b r).event ≠ some (.unregister i)) : closes b r = false := by
  rw [← Bool.not_eq_true, closes_iff]
  rintro ⟨i, hevent⟩
  exact h i hevent

/-- **ONE COMMAND** moves the number of live slots by what it adds to the counts. -/
theorem liveSlots_command (b : Broker) (r : Request) :
    liveSlots (command b r) + (closes b r).toNat = liveSlots b + (opens b r).toNat := by
  have hopens := @opens_iff b r
  have hcloses := @closes_iff b r
  have hnoOpen := @opens_eq_false b r
  have hnoClose := @closes_eq_false b r
  have hh := handled b r
  unfold command
  generalize handleCommand b r = o at hh hopens hcloses hnoOpen hnoClose ⊢
  cases hh with
  | kept hclients hconfig hevent =>
      have h1 : opens b r = false := hnoOpen (by simp [hevent])
      have h2 : closes b r = false := hnoClose (by simp [hevent])
      unfold liveSlots
      rw [h1, h2, hclients]
  | registered creds args i c hreq hget hslot =>
      have h2 : closes b r = false := hnoClose (by simp)
      have h1 : opens b r = !c.anounced := by
        rw [Bool.eq_iff_iff, hopens, Bool.not_eq_true', ← deref_of_getElem? hslot]
        constructor
        · rintro ⟨_, _, _, h, hann⟩
          obtain ⟨rfl, -, -⟩ := SlotEvent.register.inj (Option.some.inj h)
          exact hann
        · exact fun hann => ⟨i, r.now, args.timeoutMs, rfl, hann⟩
      obtain ⟨c₀, hc₀, hact, -⟩ := getClientInstanceByName_some hget
      obtain rfl := Option.some.inj (hslot.symm.trans hc₀)
      have hupd := liveSlots_update (registerSlot args creds.pid r.now r.raw) hslot
      have hlive : c.live = c.anounced := by rw [Client.live, hact, Bool.false_or]
      have hnew : (registerSlot args creds.pid r.now r.raw c).live = true := rfl
      rw [hlive, hnew] at hupd
      rw [h1, h2]
      cases hann : c.anounced <;> rw [hann] at hupd <;> simp at hupd ⊢ <;> omega
  | pinged creds id i c hreq hslot hlive hid hpid =>
      have h1 : opens b r = false := hnoOpen (by simp)
      have h2 : closes b r = false := hnoClose (by simp)
      have hupd := liveSlots_update (pingSlot r.now) hslot
      have hnew : (pingSlot r.now c).live = c.live := rfl
      rw [hnew] at hupd
      rw [h1, h2]
      exact Nat.add_right_cancel hupd
  | unregistered creds id i c hreq hslot hlive hid hperm =>
      have h1 : opens b r = false := hnoOpen (by simp [release])
      have h2 : closes b r = true := hcloses.mpr ⟨i, rfl⟩
      have hupd := liveSlots_update unregisterSlot hslot
      have hnew : (unregisterSlot c).live = false := rfl
      rw [hlive, hnew] at hupd
      rw [h1, h2]
      exact hupd

-- ── whole runs ────────────────────────────────────────────────────────────────

/-- Right after start-up the live slots are the sections of the file. -/
theorem liveSlots_boot {text : List Byte} {clock : Nat → Timespec} {raws : Nat → Raw}
    {b₀ : Broker} (hboot : boot (some text) clock raws = .ok b₀) :
    liveSlots b₀ = (sectionNames (configLines text)).length := by
  obtain ⟨text', hfile, hacc, -, -⟩ := boot_ok hboot
  obtain rfl := Option.some.inj hfile
  obtain ⟨hfits, hfirst⟩ := announcedPrefix_of_accepted hacc
  refine countP_prefix (b₀.clients.size.symm ▸ hfits) fun i c hc => ?_
  rw [(boot_live_iff hboot hc).1]
  exact (hfirst i c hc).1

/-- The balance of the counts is kept. -/
theorem liveSlots_run {n : Nat} (rs : List Request) :
    ∀ {l : Ledger}, liveSlots l.broker + l.closed = n + l.opened →
      liveSlots (Machine.run account l rs).broker + (Machine.run account l rs).closed
        = n + (Machine.run account l rs).opened := by
  induction rs with
  | nil => intro l h; exact h
  | cons r rs ih =>
      intro l h
      refine ih ?_
      have hstep := liveSlots_command l.broker r
      show liveSlots (command l.broker r) + (l.closed + (closes l.broker r).toNat)
        = n + (l.opened + (opens l.broker r).toNat)
      omega

/-- A free slot is one that is not live. -/
theorem liveSlots_full_iff : liveSlots b = wdMaxClients ↔
    ∀ c ∈ b.clients.slots, c.live = true := by
  unfold liveSlots
  rw [← b.clients.size, List.countP_eq_length]

/-- With both modes off, a client is turned away exactly when every slot is live
    and none is announced under its name. -/
theorem turnedAway_iff {name : CStr wdClientNameLen} (hstrict : b.config.strictClients = false)
    (hunique : b.config.uniqueClients = false) :
    getClientInstanceByName b.config b.clients.slots name = none ↔
      liveSlots b = wdMaxClients ∧
        ∀ c ∈ b.clients.slots, ¬ (c.anounced = true ∧ c.active = false ∧ c.name = name) := by
  have hfree : ∀ c : Client, c.free = false ↔ c.live = true := by
    intro c
    cases hann : c.anounced <;> cases hact : c.active <;> simp [Client.free, Client.live, hann, hact]
  rw [getClientInstanceByName_eq, hunique, hstrict, liveSlots_full_iff, Bool.false_and,
    if_neg Bool.false_ne_true]
  cases hfind : b.clients.slots.findIdx? (Client.claimable name) with
  | some i =>
      obtain ⟨c, hc, hclaim, -⟩ := findIdx?_some hfind
      refine iff_of_false (Option.some_ne_none i) fun h => ?_
      exact h.2 c (List.mem_of_getElem? hc) (Client.claimable_iff.mp hclaim)
  | none =>
      have hnone : ∀ c ∈ b.clients.slots,
          ¬ (c.anounced = true ∧ c.active = false ∧ c.name = name) := by
        intro c hc hclaim
        have := findIdx?_none hfind c hc
        rw [Client.claimable_iff.mpr hclaim] at this
        exact Bool.noConfusion this
      dsimp only
      rw [if_neg Bool.false_ne_true, List.findIdx?_eq_none_iff]
      constructor
      · exact fun h => ⟨fun c hc => (hfree c).mp (h c hc), hnone⟩
      · exact fun h c hc => (hfree c).mpr (h.1 c hc)

/-- A REGISTER that passes every check is rejected exactly if it gets no slot. -/
theorem rejected_iff {creds : Ucred} {args : RegisterArgs} (h : Registers r creds args) :
    (handleCommand b r).replies = [.text (bytes "ERROR rejected\n")] ↔
      getClientInstanceByName b.config b.clients.slots args.name = none := by
  obtain ⟨s, hc, hb, hparse⟩ := h
  rw [handleCommand_register hc hb, handleRegister, hparse]
  dsimp only
  cases getClientInstanceByName b.config b.clients.slots args.name with
  | none => exact iff_of_true rfl rfl
  | some i =>
      refine iff_of_false (fun heq => ?_) (Option.some_ne_none i)
      have hmsg := Reply.text.inj (List.singleton_inj.mp heq)
      exact absurd (List.cons.inj hmsg).1 (by decide)

/-- **SLOT ACCOUNTING**: for every accepted file and every sequence of commands,
    the live slots are the announced sections, plus the REGISTERs answered `OK`
    that did not claim an announced slot, less the UNREGISTERs answered `OK`, and
    never more than `WD_MAX_CLIENTS`; and with `strict_clients` and
    `unique_clients` off, a REGISTER that passes syntax, timeout and name checks is
    rejected exactly if there are `WD_MAX_CLIENTS` of them and no announced slot
    that has not registered carries its name. -/
theorem slot_accounting {text : List Byte} {clock : Nat → Timespec} {raws : Nat → Raw}
    {b₀ : Broker} (hboot : boot (some text) clock raws = .ok b₀) (rs : List Request) :
    let l := Machine.run account ⟨b₀, 0, 0⟩ rs
    l.broker = commands b₀ rs ∧
    liveSlots l.broker + l.closed = (sectionNames (configLines text)).length + l.opened ∧
    liveSlots l.broker ≤ wdMaxClients ∧
    (b₀.config.strictClients = false → b₀.config.uniqueClients = false →
      ∀ r creds args, Registers r creds args →
        ((handleCommand l.broker r).replies = [.text (bytes "ERROR rejected\n")] ↔
          liveSlots l.broker = wdMaxClients ∧
            ∀ c ∈ l.broker.clients.slots,
              ¬ (c.anounced = true ∧ c.active = false ∧ c.name = args.name))) := by
  intro l
  have hbroker : l.broker = commands b₀ rs := run_account_broker rs ⟨b₀, 0, 0⟩
  refine ⟨hbroker, ?_, ?_, ?_⟩
  · refine liveSlots_run rs ?_
    show liveSlots b₀ + 0 = _
    rw [liveSlots_boot hboot]
  · unfold liveSlots
    rw [← l.broker.clients.size]
    exact List.countP_le_length
  · intro hstrict hunique r creds args hreq
    have hconfig : l.broker.config = b₀.config := by
      rw [hbroker, commands_config]
    rw [rejected_iff hreq]
    exact turnedAway_iff (by rw [hconfig]; exact hstrict) (by rw [hconfig]; exact hunique)

theorem slot_accounting_one :
    let l := Machine.run account ⟨⟨Table.zero, Parse.init.config, true, false⟩, 0, 0⟩
      [rootRequest "REGISTER a 5000\n"]
    l.opened = 1 ∧ l.closed = 0 ∧ liveSlots l.broker = 1 := by
  intro l
  have hcounts : l.opened = 1 ∧ l.closed = 0 := by decide +kernel
  have hsections : (sectionNames (configLines [])).length = 0 := rfl
  have hsum := (slot_accounting boot_empty [rootRequest "REGISTER a 5000\n"]).2.1
  have hsum' : liveSlots l.broker + l.closed = 0 + l.opened := hsections ▸ hsum
  refine ⟨hcounts.1, hcounts.2, ?_⟩
  omega

end WdAccounting
