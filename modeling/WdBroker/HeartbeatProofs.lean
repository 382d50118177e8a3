import WdBroker.MainLoopProofs

/-! # Heartbeats: the check against the history

    The check compares the clock with `last_ping`.  What it is meant to compare
    it with is the history of the slot's occupant: its announcement, its REGISTER
    and its PINGs.  `Tracked` ties the two together along every run: through
    claiming, unregistering and reuse of slots, `last_ping` is the time of the
    occupant's latest honoured event and `timeout_ms` the one it asked for.

    * `no_spurious_reset` — a missed heartbeat is a real one, however far the
      clock readings are apart;
    * `no_false_negative` — when the loop feeds the watchdog, every supervised
      client was heard of in time; this needs the passes to be less than `2^31`
      milliseconds apart, from start-up on (`feeds_unheard`). -/

namespace WdHeartbeat

open CString WdClock WdTable WdClientID WdConfig WdCommand WdReach WdMain

-- ── the history of an occupant ────────────────────────────────────────────────

/-- The slot an event is about. -/
def slotOf : SlotEvent → Nat
  | .announce i _ _ | .register i _ _ | .ping i _ | .unregister i => i

/-- The clock reading an event stored. -/
def timeOf : SlotEvent → Option Timespec
  | .announce _ t _ | .register _ t _ | .ping _ t => some t
  | .unregister _ => none

/-- The timeout an event set. -/
def timeoutOf : SlotEvent → Option Nat
  | .announce _ _ ms | .register _ _ ms => some ms
  | .ping _ _ | .unregister _ => none

/-- The events of the current occupant of slot `i`, latest first: those since the
    slot was last given up. -/
def occupant (i : Nat) : List SlotEvent → List SlotEvent
  | [] => []
  | e :: log =>
      if e = .unregister i then []
      else if slotOf e = i then e :: occupant i log
      else occupant i log

theorem occupant_other {i : Nat} {e : SlotEvent} {log : List SlotEvent} (h : slotOf e ≠ i) :
    occupant i (e :: log) = occupant i log := by
  have hne : e ≠ .unregister i := by
    rintro rfl
    exact h rfl
  rw [occupant, if_neg hne, if_neg h]

theorem occupant_unregister (i : Nat) (log : List SlotEvent) :
    occupant i (.unregister i :: log) = [] := by
  rw [occupant, if_pos rfl]

theorem occupant_self {i : Nat} {e : SlotEvent} {t : Timespec} {log : List SlotEvent}
    (hslot : slotOf e = i) (htime : timeOf e = some t) :
    occupant i (e :: log) = e :: occupant i log := by
  have hne : e ≠ .unregister i := by
    rintro rfl
    exact nomatch htime
  rw [occupant, if_neg hne, if_pos hslot]

/-- The slot's fields agree with the history of its occupant. -/
structure Tracks (i : Nat) (log : List SlotEvent) (c : Client) : Prop where
  latest : ∃ e ∈ occupant i log, timeOf e = some c.lastPing
  timeout : (occupant i log).findSome? timeoutOf = some c.timeoutMs
  newest : ∀ e ∈ occupant i log, ∀ t, timeOf e = some t → t ≤ c.lastPing

/-- The invariant: live slots are tracked, free ones have no occupant, and nothing
    was stored later than the last clock reading. -/
structure Tracked (now : Timespec) (s : Main) : Prop where
  pings : PingsBy now s.broker
  live : ∀ (i : Nat) (c : Client), s.broker.clients.slots[i]? = some c → c.live = true →
    Tracks i s.log c
  free : ∀ (i : Nat) (c : Client), s.broker.clients.slots[i]? = some c → c.live = false →
    occupant i s.log = []

theorem Tracked.mono {t t' : Timespec} {s : Main} (h : Tracked t s) (hle : t ≤ t') :
    Tracked t' s :=
  ⟨fun c hc hl => Timespec.le_trans (h.pings c hc hl) hle, h.live, h.free⟩

/-- An event on another slot changes nothing for this one. -/
theorem Tracks.other {i : Nat} {e : SlotEvent} {log : List SlotEvent} {c : Client}
    (h : Tracks i log c) (hne : slotOf e ≠ i) : Tracks i (e :: log) c := by
  constructor
  · rw [occupant_other hne]; exact h.latest
  · rw [occupant_other hne]; exact h.timeout
  · rw [occupant_other hne]; exact h.newest

/-- The events of the occupant are not later than the clock. -/
theorem Tracked.history_le {now : Timespec} {s : Main} (h : Tracked now s) {i : Nat} {c : Client}
    (hc : s.broker.clients.slots[i]? = some c) :
    ∀ e ∈ occupant i s.log, ∀ t, timeOf e = some t → t ≤ now := by
  intro e he t ht
  cases hlive : c.live with
  | true =>
      exact Timespec.le_trans ((h.live i c hc hlive).newest e he t ht)
        (h.pings c (List.mem_of_getElem? hc) hlive)
  | false =>
      rw [h.free i c hc hlive] at he
      exact nomatch he

/-- An event on the slot itself, stored at the current reading. -/
theorem Tracked.heard {t now : Timespec} {s : Main} (h : Tracked t s) (hle : t ≤ now) {i : Nat}
    {c₀ c : Client} {e : SlotEvent} (hc₀ : s.broker.clients.slots[i]? = some c₀)
    (hslot : slotOf e = i) (htime : timeOf e = some now) (hping : c.lastPing = now)
    (htimeout : (e :: occupant i s.log).findSome? timeoutOf = some c.timeoutMs) :
    Tracks i (e :: s.log) c := by
  have hocc := @occupant_self i e now s.log hslot htime
  refine ⟨?_, ?_, ?_⟩
  · rw [hocc, hping]
    exact ⟨e, List.mem_cons_self, htime⟩
  · rw [hocc]
    exact htimeout
  · rw [hocc, hping]
    rintro e' he' t' ht'
    rcases List.mem_cons.mp he' with rfl | hold
    · obtain rfl := Option.some.inj (htime.symm.trans ht')
      exact Timespec.le_refl _
    · exact Timespec.le_trans (h.history_le hc₀ e' hold t' ht') hle

/-- A slot that was updated together with an event on it, in an otherwise
    unchanged table. -/
theorem tracked_update {t now : Timespec} {s : Main} {i : Nat} {f : Client → Client}
    {e : SlotEvent} (h : Tracked t s) (hle : t ≤ now) (hslot : slotOf e = i)
    (hping : ∀ c, s.broker.clients.slots[i]? = some c → (f c).live = true → (f c).lastPing ≤ now)
    (hlive : ∀ c, s.broker.clients.slots[i]? = some c → (f c).live = true →
      Tracks i (e :: s.log) (f c))
    (hfree : ∀ c, s.broker.clients.slots[i]? = some c → (f c).live = false →
      occupant i (e :: s.log) = []) :
    Tracked now
      { s with
        broker := { s.broker with clients := s.broker.clients.update i f }
        log := e :: s.log } := by
  have hother : ∀ {j : Nat}, j ≠ i → slotOf e ≠ j := fun hj heq => hj (heq.symm.trans hslot)
  refine ⟨?_, ?_, ?_⟩
  · intro c hc hl
    obtain ⟨j, hj⟩ := List.mem_iff_getElem?.mp hc
    rcases Table.update_cases hj with ⟨rfl, c₀, hc₀, rfl⟩ | ⟨-, hold⟩
    · exact hping c₀ hc₀ hl
    · exact Timespec.le_trans (h.pings c (List.mem_of_getElem? hold) hl) hle
  · intro j c hc hl
    rcases Table.update_cases hc with ⟨rfl, c₀, hc₀, rfl⟩ | ⟨hj, hold⟩
    · exact hlive c₀ hc₀ hl
    · exact (h.live j c hold hl).other (hother hj)
  · intro j c hc hl
    rcases Table.update_cases hc with ⟨rfl, c₀, hc₀, rfl⟩ | ⟨hj, hold⟩
    · exact hfree c₀ hc₀ hl
    · show occupant j (e :: s.log) = []
      rw [occupant_other (hother hj)]
      exact h.free j c hold hl

/-- **ONE COMMAND**: history and table move together. -/
theorem tracked_serve {t : Timespec} {s : Main} {r : Request} (h : Tracked t s)
    (hle : t ≤ r.now) : Tracked r.now (serve s r) := by
  have hh := handled s.broker r
  unfold serve
  generalize handleCommand s.broker r = o at hh ⊢
  cases hh with
  | kept hclients hconfig hevent =>
      rw [hevent]
      refine ⟨?_, ?_, ?_⟩
      · show ∀ c ∈ o.broker.clients.slots, _
        rw [hclients]
        exact (h.mono hle).pings
      · show ∀ (i : Nat) (c : Client), o.broker.clients.slots[i]? = some c → _
        rw [hclients]
        exact h.live
      · show ∀ (i : Nat) (c : Client), o.broker.clients.slots[i]? = some c → _
        rw [hclients]
        exact h.free
  | registered creds args i c hreq hget hslot =>
      refine tracked_update h hle rfl (fun _ _ _ => Timespec.le_refl _) ?_
        (fun _ _ hl => Bool.noConfusion hl)
      exact fun c₀ hc₀ _ => h.heard hle hc₀ rfl rfl rfl rfl
  | pinged creds id i c hreq hslot hlive hid hpid =>
      refine tracked_update h hle rfl (fun _ _ _ => Timespec.le_refl _) ?_ ?_
      · exact fun c₀ hc₀ hl => h.heard hle hc₀ rfl rfl rfl (h.live i c₀ hc₀ hl).timeout
      · intro c₀ hc₀ hdead
        obtain rfl := Option.some.inj (hslot.symm.trans hc₀)
        exact absurd (hlive.symm.trans hdead) (by decide)
  | unregistered creds id i c hreq hslot hlive hid hperm =>
      refine tracked_update h hle rfl (fun _ _ hl => Bool.noConfusion hl)
        (fun _ _ hl => Bool.noConfusion hl) (fun _ _ _ => occupant_unregister i s.log)

-- ── start-up ──────────────────────────────────────────────────────────────────

theorem occupant_announcements_lt (clock : Nat → Timespec) (cs : List Client) :
    ∀ {k i : Nat}, i < k → occupant i (announcements clock cs k) = [] := by
  induction cs with
  | nil => intro k i _; rfl
  | cons c cs ih =>
      intro k i hlt
      rw [announcements]
      split
      · have hne : slotOf (.announce k (clock k) c.timeoutMs) ≠ i := Nat.ne_of_gt hlt
        rw [occupant_other hne]
        exact ih (by omega)
      · exact ih (by omega)

/-- The history of an announced slot is its announcement. -/
theorem occupant_announcements (clock : Nat → Timespec) (cs : List Client) :
    ∀ {k j : Nat} {c : Client}, cs[j]? = some c →
      occupant (k + j) (announcements clock cs k)
        = if c.anounced then [.announce (k + j) (clock (k + j)) c.timeoutMs] else [] := by
  induction cs with
  | nil => intro k j c hc; exact nomatch hc
  | cons c' cs ih =>
      intro k j c hc
      rw [announcements]
      cases j with
      | zero =>
          obtain rfl := Option.some.inj hc
          have hrest := @occupant_announcements_lt clock cs (k + 1) k (by omega)
          split
          · rw [Nat.add_zero, @occupant_self k _ (clock k) _ rfl rfl, hrest]
          · exact hrest
      | succ j =>
          have hrest := @ih (k + 1) j c hc
          rw [show k + 1 + j = k + (j + 1) by omega] at hrest
          split
          · have hne : slotOf (.announce k (clock k) c'.timeoutMs) ≠ k + (j + 1) := by
              show k ≠ k + (j + 1)
              omega
            rw [occupant_other hne]
            exact hrest
          · exact hrest

/-- After `parse_config` history and table agree. -/
theorem tracked_enterLoop {file : Option (List Byte)} {clock : Nat → Timespec}
    {raws : Nat → Raw} {b₀ : Broker} {t₀ : Timespec} (hboot : boot file clock raws = .ok b₀)
    (hclock : ∀ i, clock i ≤ t₀) (watchdog signal : Bool) :
    Tracked t₀ (enterLoop b₀ clock watchdog signal) := by
  have hquiet : Tracked t₀ (enterLoop b₀ clock watchdog false) := by
    obtain ⟨text, -, hacc, -, -⟩ := boot_ok hboot
    have hocc : ∀ (i : Nat) (c : Client), b₀.clients.slots[i]? = some c →
        occupant i (announcements clock b₀.clients.slots 0)
          = if c.anounced then [.announce i (clock i) c.timeoutMs] else [] := by
      intro i c hc
      have h := @occupant_announcements clock b₀.clients.slots 0 i c hc
      rwa [Nat.zero_add] at h
    refine ⟨pingsBy_boot hboot hclock, ?_, ?_⟩
    · intro i c hc hlive
      rcases accepted_slot hacc hc with ⟨name, -, hann⟩ | ⟨-, rfl⟩
      · have hi := hocc i c hc
        rw [hann.anounced, if_pos rfl] at hi
        refine ⟨?_, ?_, ?_⟩
        · show ∃ e ∈ occupant i (announcements clock b₀.clients.slots 0), _
          rw [hi, hann.lastPing_eq]
          exact ⟨_, List.mem_cons_self, rfl⟩
        · show (occupant i (announcements clock b₀.clients.slots 0)).findSome? timeoutOf = _
          rw [hi]
          rfl
        · show ∀ e ∈ occupant i (announcements clock b₀.clients.slots 0), _
          rw [hi, hann.lastPing_eq]
          intro e he t ht
          obtain rfl := List.mem_singleton.mp he
          obtain rfl := Option.some.inj ht
          exact Timespec.le_refl _
      · exact Bool.noConfusion hlive
    · intro i c hc hdead
      show occupant i (announcements clock b₀.clients.slots 0) = []
      rw [hocc i c hc, (Client.not_live_iff.mp hdead).2]
      rfl
  cases signal with
  | true => exact ⟨hquiet.pings, hquiet.live, hquiet.free⟩
  | false => exact hquiet

-- ── whole runs ────────────────────────────────────────────────────────────────

/-- The reading at which the iteration's command ran. -/
def commandTime (t : Timespec) (it : Iteration) : Timespec :=
  match it.request with
  | some r => r.now
  | none => t

/-- The clock does not run backwards in the iteration: last reading, command,
    and the slots in order. -/
def ClockOk (t : Timespec) (it : Iteration) : Prop :=
  it.passes = true →
    t ≤ commandTime t it ∧ (∀ i, commandTime t it ≤ it.check i) ∧
      ∀ i j, i ≤ j → it.check i ≤ it.check j

/-- The last reading of the iteration. -/
def lastClock (t : Timespec) (it : Iteration) : Timespec :=
  if it.passes then it.check (wdMaxClients - 1) else t

theorem request_of_not_passes {it : Iteration} (h : it.passes = false) : it.request = none := by
  unfold Iteration.passes at h
  unfold Iteration.request
  split at h
  · exact Bool.noConfusion h
  · next hsel => rw [hsel]

theorem commandTime_le_lastClock {t : Timespec} {it : Iteration} (h : ClockOk t it) :
    t ≤ commandTime t it ∧ commandTime t it ≤ lastClock t it := by
  unfold lastClock
  cases hp : it.passes with
  | true =>
      obtain ⟨hcmd, hcheck, -⟩ := h hp
      exact ⟨hcmd, hcheck _⟩
  | false =>
      unfold commandTime
      rw [request_of_not_passes hp]
      exact ⟨Timespec.le_refl t, Timespec.le_refl t⟩

/-- History and table agree at the check. -/
theorem tracked_served {t : Timespec} {s : Main} {it : Iteration} (hclock : ClockOk t it)
    (h : Tracked t s) : Tracked (commandTime t it) (served s it) := by
  have hle := (commandTime_le_lastClock hclock).1
  unfold commandTime at hle ⊢
  unfold served
  cases hreq : it.request with
  | none => exact h
  | some r =>
      rw [hreq] at hle
      exact tracked_serve h hle

theorem tracked_iterate (t : Timespec) (s : Main) (it : Iteration) (hclock : ClockOk t it)
    (h : Tracked t s) : Tracked (lastClock t it) (iterate s it) := by
  obtain ⟨hcmd, hlast⟩ := commandTime_le_lastClock hclock
  cases hloop : s.looping with
  | true =>
      obtain ⟨hclients, -, hlog⟩ := @iterate_served s it hloop
      have hserved := (tracked_served hclock h).mono hlast
      refine ⟨?_, ?_, ?_⟩
      · unfold PingsBy
        rw [hclients]
        exact hserved.pings
      · rw [hclients, hlog]
        exact hserved.live
      · rw [hclients, hlog]
        exact hserved.free
  | false =>
      rw [iterate_stopped hloop]
      exact h.mono (Timespec.le_trans hcmd hlast)

theorem clockOk_quiet {timerFd : Bool} {t now : Timespec} (h : t ≤ now) :
    ClockOk t (quiet timerFd now) :=
  fun _ => ⟨Timespec.le_refl t, fun _ => h, fun _ _ _ => Timespec.le_refl now⟩

/-- One announced client, at clock zero. -/
def oneClient : List Byte := bytes "[client a]\n"

/-- The iteration feeds the watchdog. -/
def Feeds (s : Main) (it : Iteration) : Prop :=
  ∃ ops, (iterate s it).trace = s.trace ++ ops ∧ Event.feed ∈ ops

/-- Every path to the feed runs through the whole check. -/
theorem feeds_passes {s : Main} {it : Iteration} (h : Feeds s it) :
    s.looping = true ∧ ¬ Fails s it ∧ it.passes = true := by
  obtain ⟨ops, htrace, hfeed⟩ := h
  have hloop : s.looping = true := by
    by_contra hno
    rw [Bool.not_eq_true] at hno
    rw [iterate_stopped hno] at htrace
    rw [List.self_eq_append_right.mp htrace] at hfeed
    exact nomatch hfeed
  have hops : (loopBody s it).trace = s.trace ++ ops := by
    rw [← htrace, iterate_looping hloop, (signalled_frame _ _).2.2.1]
  have hpass : ¬ Fails s it := by
    intro hf
    obtain ⟨n, hbody⟩ := loopBody_fails hf
    rw [hbody] at hops
    have hmarks : s.trace ++ List.replicate (n + 1) Event.latch = s.trace ++ ops := by
      rw [← hops, ← (served_frame s it).2.2.1]
      rfl
    rw [← List.append_cancel_left hmarks] at hfeed
    exact nomatch List.eq_of_mem_replicate hfeed
  refine ⟨hloop, hpass, ?_⟩
  rw [loopBody_passes (allOk_of_looping hloop) hpass] at hops
  have hfed : (if it.timerFires && s.watchdog then [Event.feed] else []) = ops := by
    rw [← (served_frame s it).2.2.1] at hops
    exact List.append_cancel_left hops
  unfold Iteration.passes
  cases hsel : it.select with
  | ready serverSock timerFd => rfl
  | fails errno =>
      have hno : it.timerFires = false := by
        unfold Iteration.timerFires
        rw [hsel]
      rw [hno] at hfed
      rw [← hfed] at hfeed
      exact nomatch hfeed

/-- The passes are less than `2^31` milliseconds apart, slot by slot; there is
    nothing to ask of the first one unless a time is given for start-up. -/
def PassGap (prev : Option (Nat → Timespec)) (it : Iteration) : Prop :=
  it.passes = true → ∀ p ∈ prev, ∀ i < wdMaxClients,
    (it.check i).ns - (p i).ns < 2 ^ 31 * 1000000

/-- The readings of the last pass. -/
def lastPass (prev : Option (Nat → Timespec)) (it : Iteration) : Option (Nat → Timespec) :=
  if it.passes then some it.check else prev

/-- Every live slot was heard of in time for the pass with readings `p`, or since. -/
def InTime (p : Nat → Timespec) (b : Broker) : Prop :=
  ∀ (i : Nat) (c : Client), b.clients.slots[i]? = some c → c.live = true →
    (p i).ns - c.lastPing.ns < ((c.timeoutMs : Int) + 1) * 1000000

/-- A command that runs after the pass leaves every slot in time. -/
theorem inTime_command {p : Nat → Timespec} {b : Broker} {r : Request}
    (hp : ∀ i < wdMaxClients, p i ≤ r.now) (h : InTime p b) : InTime p (command b r) := by
  have hnow : ∀ {j : Nat} {c : Client}, b.clients.slots[j]? = some c → ∀ ms : Nat,
      (p j).ns - r.now.ns < ((ms : Int) + 1) * 1000000 := by
    intro j c hc ms
    have hj : j < wdMaxClients := b.clients.size ▸ (List.getElem?_eq_some_iff.mp hc).1
    have hle : (p j).ns ≤ r.now.ns := hp j hj
    omega
  have hh := handled b r
  unfold command
  generalize handleCommand b r = o at hh ⊢
  cases hh with
  | kept hclients =>
      unfold InTime
      rw [hclients]
      exact h
  | registered creds args i c hreq hget hslot =>
      intro j c' hc' hl
      rcases Table.update_cases hc' with ⟨rfl, c₀, hc₀, rfl⟩ | ⟨-, hold⟩
      · exact hnow hc₀ args.timeoutMs
      · exact h j c' hold hl
  | pinged creds id i c hreq hslot hlive hid hpid =>
      intro j c' hc' hl
      rcases Table.update_cases hc' with ⟨rfl, c₀, hc₀, rfl⟩ | ⟨-, hold⟩
      · exact hnow hc₀ c₀.timeoutMs
      · exact h j c' hold hl
  | unregistered creds id i c hreq hslot hlive hid hperm =>
      intro j c' hc' hl
      rcases Table.update_cases hc' with ⟨rfl, c₀, hc₀, rfl⟩ | ⟨-, hold⟩
      · exact Bool.noConfusion hl
      · exact h j c' hold hl

/-- A pass that finds nothing, less than `2^31` milliseconds after the last one:
    no age has wrapped, so every slot is in time for it. -/
theorem inTime_pass {p check : Nat → Timespec} {b : Broker} (hwf : WellFormed b)
    (hgap : ∀ i < wdMaxClients, (check i).ns - (p i).ns < 2 ^ 31 * 1000000)
    (hping : ∀ (i : Nat) (c : Client), b.clients.slots[i]? = some c → c.live = true →
      c.lastPing ≤ check i)
    (hpass : anyMissed check b.clients.slots 0 = false) (h : InTime p b) : InTime check b := by
  intro i c hc hl
  have hi : i < wdMaxClients := b.clients.size ▸ (List.getElem?_eq_some_iff.mp hc).1
  have hage : msSince c.lastPing (check i) ≤ c.timeoutMs := by
    by_contra hlt
    rw [← Bool.not_eq_true, anyMissed_iff] at hpass
    refine hpass ⟨i, c, hc, ?_⟩
    rw [Nat.zero_add, missed_iff]
    exact ⟨hl, Nat.lt_of_not_le hlt⟩
  refine lt_of_msSince_le (hping i c hc hl) ?_ hage
  -- since the last pass less than 2^31 ms, before it at most the timeout
  have htimeout : c.timeoutMs ≤ 300000 :=
    ((hwf.slots c (List.mem_of_getElem? hc)).timeout hl).2
  have h1 := hgap i hi
  have h2 := h i c hc hl
  omega

/-- The state of a run that is still looping, against the clock and the last
    pass. -/
structure Supervised (e : Timespec × Option (Nat → Timespec)) (s : Main) : Prop where
  tracked : Tracked e.1 s
  wellFormed : WellFormed s.broker
  inTime : s.looping = true →
    ∃ p, e.2 = some p ∧ (∀ i < wdMaxClients, p i ≤ e.1) ∧ InTime p s.broker

/-- At the check of an iteration every slot is well formed and in time for the
    pass before. -/
theorem Supervised.served {e : Timespec × Option (Nat → Timespec)} {s : Main} {it : Iteration}
    (h : Supervised e s) (hclock : ClockOk e.1 it) (hloop : s.looping = true) :
    WellFormed (served s it).broker ∧ ∃ p, e.2 = some p ∧ (∀ i < wdMaxClients, p i ≤ e.1) ∧
      InTime p (served s it).broker := by
  obtain ⟨p, hp, hle, hin⟩ := h.inTime hloop
  have hcmd := (commandTime_le_lastClock hclock).1
  unfold WdMain.served
  unfold commandTime at hcmd
  cases hreq : it.request with
  | none => exact ⟨h.wellFormed, p, hp, hle, hin⟩
  | some r =>
      rw [hreq] at hcmd
      exact ⟨wellFormed_command s.broker r h.wellFormed, p, hp, hle,
        inTime_command (fun i hi => Timespec.le_trans (hle i hi) hcmd) hin⟩

/-- The pass of an iteration that clears nothing finds every slot in time. -/
theorem Supervised.pass {e : Timespec × Option (Nat → Timespec)} {s : Main} {it : Iteration}
    (h : Supervised e s) (hclock : ClockOk e.1 it) (hgap : PassGap e.2 it)
    (hloop : s.looping = true) (hno : ¬ Fails s it) (hpass : it.passes = true) :
    InTime it.check (WdMain.served s it).broker := by
  obtain ⟨hwf, p, hp, -, hin⟩ := h.served hclock hloop
  have hserved := tracked_served hclock h.tracked
  refine inTime_pass hwf (hgap hpass p hp) ?_ ?_ hin
  · intro i c hc hl
    exact Timespec.le_trans (hserved.pings c (List.mem_of_getElem? hc) hl) ((hclock hpass).2.1 i)
  · rw [← Bool.not_eq_true]
    exact fun hmiss => hno (Or.inr (Or.inr ⟨hpass, hmiss⟩))

theorem supervised_iterate (e : Timespec × Option (Nat → Timespec)) (s : Main) (it : Iteration)
    (hok : ClockOk e.1 it ∧ PassGap e.2 it) (h : Supervised e s) :
    Supervised (lastClock e.1 it, lastPass e.2 it) (iterate s it) := by
  obtain ⟨hclock, hgap⟩ := hok
  refine ⟨tracked_iterate e.1 s it hclock h.tracked, ?_, ?_⟩
  · cases hloop : s.looping with
    | true =>
        obtain ⟨hclients, hconfig, -⟩ := @iterate_served s it hloop
        obtain ⟨hwf, -⟩ := h.served hclock hloop
        exact ⟨hconfig ▸ hwf.range, hclients ▸ hwf.slots⟩
    | false =>
        rw [iterate_stopped hloop]
        exact h.wellFormed
  · intro hloop'
    have hloop : s.looping = true := by
      by_contra hno
      rw [Bool.not_eq_true] at hno
      rw [iterate_stopped hno, hno] at hloop'
      exact Bool.noConfusion hloop'
    have hno : ¬ Fails s it := by
      intro hf
      have := allOk_of_looping hloop'
      rw [iterate_fails hloop hf] at this
      exact Bool.noConfusion this
    obtain ⟨hclients, -, -⟩ := @iterate_served s it hloop
    unfold lastPass lastClock InTime
    rw [hclients]
    cases hpass : it.passes with
    | true =>
        refine ⟨it.check, rfl, fun i hi => ?_, h.pass hclock hgap hloop hno hpass⟩
        exact (hclock hpass).2.2 i _ (Nat.le_sub_one_of_lt hi)
    | false =>
        obtain ⟨-, p, hp, hle, hin⟩ := h.served hclock hloop
        exact ⟨p, hp, hle, hin⟩

theorem supervised_enterLoop {file : Option (List Byte)} {clock : Nat → Timespec}
    {raws : Nat → Raw} {b₀ : Broker} {t₀ t₁ : Timespec} (hboot : boot file clock raws = .ok b₀)
    (hfrom : ∀ i, t₀ ≤ clock i) (hto : ∀ i, clock i ≤ t₁) (watchdog signal : Bool) :
    Supervised (t₁, some fun _ => t₀) (enterLoop b₀ clock watchdog signal) := by
  have hclients : (enterLoop b₀ clock watchdog signal).broker.clients = b₀.clients ∧
      (enterLoop b₀ clock watchdog signal).broker.config = b₀.config := by
    cases signal <;> exact ⟨rfl, rfl⟩
  have hwf := wellFormed_boot hboot
  refine ⟨tracked_enterLoop hboot hto watchdog signal,
    ⟨hclients.2 ▸ hwf.range, hclients.1 ▸ hwf.slots⟩, fun _ => ⟨fun _ => t₀, rfl, ?_, ?_⟩⟩
  · exact fun i _ => Timespec.le_trans (hfrom 0) (hto 0)
  · intro i c hc hl
    rw [hclients.1] at hc
    obtain ⟨text, -, hacc, -, -⟩ := boot_ok hboot
    rcases accepted_slot hacc hc with ⟨name, -, hann⟩ | ⟨-, rfl⟩
    · have hle : t₀.ns ≤ (clock i).ns := hfrom i
      rw [hann.lastPing_eq]
      show t₀.ns - (clock i).ns < _
      omega
    · exact Bool.noConfusion hl

/-- **NO FALSE NEGATIVE**: in every run on a clock that does not run backwards,
    with less than `2^31` milliseconds from start-up to the first pass and between
    one pass and the next, whenever the loop feeds the watchdog every slot that is
    live at the check of that iteration has an honoured event of its occupant less
    than `timeout_ms + 1` milliseconds before the reading at which it was checked,
    and `all_ok` was never cleared before. -/
theorem no_false_negative {file : Option (List Byte)} {clock : Nat → Timespec}
    {raws : Nat → Raw} {b₀ : Broker} {t₀ t₁ : Timespec} (hboot : boot file clock raws = .ok b₀)
    (hfrom : ∀ i, t₀ ≤ clock i) (hto : ∀ i, clock i ≤ t₁) (watchdog signal : Bool)
    {its : List Iteration} {it : Iteration}
    (hclock : Machine.Admissible ClockOk lastClock t₁ (its ++ [it]))
    (hgap : Machine.Admissible PassGap lastPass (some fun _ => t₀) (its ++ [it]))
    (hfeed : Feeds (mainLoop (enterLoop b₀ clock watchdog signal) its) it) :
    let s := served (mainLoop (enterLoop b₀ clock watchdog signal) its) it
    (∀ (i : Nat) (c : Client), s.broker.clients.slots[i]? = some c → c.live = true →
      ∃ e ∈ occupant i s.log, ∃ t, timeOf e = some t ∧
        (it.check i).ns - t.ns < ((c.timeoutMs : Int) + 1) * 1000000) ∧
    ∀ js ks, its = js ++ ks → (mainLoop (enterLoop b₀ clock watchdog signal) js).allOk = true := by
  obtain ⟨hloop, hno, hpass⟩ := feeds_passes hfeed
  obtain ⟨hbefore, hlast, -⟩ :=
    Machine.admissible_append.mp (Machine.admissible_prod hclock hgap)
  have hrun : Supervised _ (mainLoop (enterLoop b₀ clock watchdog signal) its) :=
    Machine.run_invariant_env iterate supervised_iterate its _ _ hbefore
      (supervised_enterLoop hboot hfrom hto watchdog signal)
  constructor
  · intro i c hc hl
    obtain ⟨e, he, htime⟩ := ((tracked_served hlast.1 hrun.tracked).live i c hc hl).latest
    exact ⟨e, he, c.lastPing, htime, hrun.pass hlast.1 hlast.2 hloop hno hpass i c hc hl⟩
  · rintro js ks rfl
    by_contra hbad
    rw [Bool.not_eq_true] at hbad
    have hstop : mainLoop (enterLoop b₀ clock watchdog signal) (js ++ ks)
        = mainLoop (enterLoop b₀ clock watchdog signal) js :=
      (Machine.run_append iterate _ js ks).trans
        (mainLoop_stopped ks (looping_of_not_allOk hbad))
    rw [hstop, looping_of_not_allOk hbad] at hloop
    exact Bool.noConfusion hloop

/-- The iteration feeds, and the only thing heard of slot 0 is its announcement. -/
def feedsOnly (now : Timespec) (b : Broker) : Bool :=
  let s := enterLoop b (fun _ => Timespec.zero) true false
  decide ((iterate s (quiet true now)).trace = s.trace ++ [.feed]) &&
    decide (occupant 0 s.log = [.announce 0 Timespec.zero 300000]) &&
    decide (∃ c ∈ s.broker.clients.slots[0]?, c.live = true ∧ c.timeoutMs = 300000)

/-- **START-UP COUNTS**: nothing is asked of the first pass by a bound between one
    pass and the next.  If it comes `2^32` milliseconds after start-up, the age of
    an announced client has wrapped to zero and the watchdog is fed. -/
theorem feeds_unheard :
    ∃ b₀ it, boot (some oneClient) (fun _ => Timespec.zero) (fun _ => Vector.replicate 8 0)
        = .ok b₀ ∧
      Machine.Admissible ClockOk lastClock Timespec.zero [it] ∧
      Machine.Admissible PassGap lastPass none [it] ∧
      Feeds (enterLoop b₀ (fun _ => Timespec.zero) true false) it ∧
      ∃ (i : Nat) (c : Client),
        (served (enterLoop b₀ (fun _ => Timespec.zero) true false) it).broker.clients.slots[i]?
          = some c ∧ c.live = true ∧
        ∀ e ∈ occupant i (served (enterLoop b₀ (fun _ => Timespec.zero) true false) it).log,
          ∀ t, timeOf e = some t →
            ((c.timeoutMs : Int) + 1) * 1000000 ≤ (it.check i).ns - t.ns := by
  obtain ⟨b₀, hboot, h⟩ := @exists_of_accepts oneClient (feedsOnly (Timespec.ofMs (2 ^ 32)))
    (by decide +kernel)
  simp only [feedsOnly, Bool.and_eq_true, decide_eq_true_eq] at h
  obtain ⟨⟨hfeed, hocc⟩, c, hc, hlive, htimeout⟩ := h
  refine ⟨b₀, quiet true (Timespec.ofMs (2 ^ 32)), hboot,
    ⟨clockOk_quiet (by decide), trivial⟩, ⟨fun _ p hp => (nomatch hp), trivial⟩,
    ⟨_, hfeed, List.mem_cons_self⟩, 0, c, hc, hlive, ?_⟩
  intro e he t ht
  have he' : e ∈ occupant 0 (enterLoop b₀ (fun _ => Timespec.zero) true false).log := he
  rw [hocc] at he'
  obtain rfl := List.mem_singleton.mp he'
  obtain rfl := Option.some.inj ht
  rw [htimeout]
  decide

theorem no_false_negative_announced :
    ∃ b₀, boot (some oneClient) (fun _ => Timespec.zero) (fun _ => Vector.replicate 8 0)
        = .ok b₀ ∧
      ∀ (i : Nat) (c : Client),
        (served (enterLoop b₀ (fun _ => Timespec.zero) true false)
          (quiet true (Timespec.ofMs 1000))).broker.clients.slots[i]? = some c →
        c.live = true →
        ∃ e ∈ occupant i (served (enterLoop b₀ (fun _ => Timespec.zero) true false)
            (quiet true (Timespec.ofMs 1000))).log,
          ∃ t, timeOf e = some t ∧
            (Timespec.ofMs 1000).ns - t.ns < ((c.timeoutMs : Int) + 1) * 1000000 := by
  obtain ⟨b₀, hboot, h⟩ := @exists_of_accepts oneClient (feedsOnly (Timespec.ofMs 1000))
    (by decide +kernel)
  simp only [feedsOnly, Bool.and_eq_true, decide_eq_true_eq] at h
  have hzero : ∀ i : Nat, Timespec.zero ≤ Timespec.zero := fun _ => Timespec.le_refl _
  have hgap : PassGap (some fun _ => Timespec.zero) (quiet true (Timespec.ofMs 1000)) := by
    intro _ p hp i _
    obtain rfl := Option.some.inj hp
    show (Timespec.ofMs 1000).ns - Timespec.zero.ns < 2 ^ 31 * 1000000
    decide
  exact ⟨b₀, hboot, (@no_false_negative _ _ _ _ _ _ hboot hzero hzero true false []
    (quiet true (Timespec.ofMs 1000)) ⟨clockOk_quiet (by decide), trivial⟩ ⟨hgap, trivial⟩
    ⟨_, h.1.1, List.mem_cons_self⟩).1⟩

end WdHeartbeat
