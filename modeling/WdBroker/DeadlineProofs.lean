import WdBroker.AnnouncedProofs
import WdBroker.RebootProofs

/-! # What a missed deadline is worth

    A deadline is noticed by the check, once per iteration and behind the command
    that the iteration serves.  Between the deadline and the next check a late PING
    is honoured like any other and the client goes on as if nothing had happened
    (`late_ping_forgiven`); that is the price of serving a command first and looking
    once per second.  At the check there is no forgiveness: `missed_deadline_final`
    says that a client which is late when it is checked ends the loop, and that
    nothing is answered or fed from there on. -/

namespace WdDeadline

open CString WdClock WdTable WdClientID WdConfig WdCommand WdReach WdMain WdHeartbeat WdReboot
open WdAnnounced

/-- Every honoured event of the slot's occupant lies at least `timeout_ms + 1`
    milliseconds before `now`. -/
def Late (now : Timespec) (i : Nat) (log : List SlotEvent) (c : Client) : Prop :=
  ∀ e ∈ occupant i log, ∀ t, timeOf e = some t →
    ((c.timeoutMs : Int) + 1) * 1000000 ≤ now.ns - t.ns

variable {s : Main} {it : Iteration} {i : Nat} {c : Client}

/-- A slot that is late when it is checked is found, no age having wrapped. -/
theorem fails_of_checked_late {e : Timespec × Option (Nat → Timespec)} (h : Supervised e s)
    (hclock : ClockOk e.1 it) (hgap : PassGap e.2 it) (hloop : s.looping = true)
    (hpass : it.passes = true) (hc : (served s it).broker.clients.slots[i]? = some c)
    (hlive : c.live = true) (hlate : Late (it.check i) i (served s it).log c) : Fails s it := by
  by_contra hno
  have hin := h.pass hclock hgap hloop hno hpass i c hc hlive
  obtain ⟨ev, hev, htime⟩ := ((tracked_served hclock h.tracked).live i c hc hlive).latest
  have hout := hlate ev hev c.lastPing htime
  omega

/-- Behind the end of the loop nothing is processed. -/
theorem processed_append (its later : List Iteration) :
    ∀ {s : Main}, (mainLoop s its).looping = false →
      processed s (its ++ later) = processed s its := by
  induction its with
  | nil => intro s h; exact processed_stopped later h
  | cons it its ih =>
      intro s h
      show _ ++ processed (iterate s it) (its ++ later) = _ ++ processed (iterate s it) its
      rw [ih h]

/-- Behind the end of the loop nothing is fed. -/
theorem not_feeds_of_stopped (h : s.looping = false) : ¬ Feeds s it := by
  intro hfeeds
  have hloop := (feeds_passes hfeeds).1
  exact Bool.false_ne_true (h.symm.trans hloop)

/-- **A CHECKED DEADLINE IS FINAL**: in every run on a clock that does not run
    backwards, with less than `2^31` milliseconds from start-up to the first pass
    and between one pass and the next, let a slot be live and late at the reading
    at which an iteration checks it.  Then that iteration does not feed the
    watchdog, and whatever would come later, no further command is processed, so
    that no PING and no REGISTER is answered `OK`, and no further iteration feeds. -/
theorem missed_deadline_final {file : Option (List Byte)} {clock : Nat → Timespec}
    {raws : Nat → Raw} {b₀ : Broker} {t₀ t₁ : Timespec} (hboot : boot file clock raws = .ok b₀)
    (hfrom : ∀ i, t₀ ≤ clock i) (hto : ∀ i, clock i ≤ t₁) (watchdog signal : Bool)
    {its : List Iteration} {it : Iteration}
    (hclock : Machine.Admissible ClockOk lastClock t₁ (its ++ [it]))
    (hgap : Machine.Admissible PassGap lastPass (some fun _ => t₀) (its ++ [it]))
    (hloop : (mainLoop (enterLoop b₀ clock watchdog signal) its).looping = true)
    (hpass : it.passes = true) {i : Nat} {c : Client}
    (hc : (served (mainLoop (enterLoop b₀ clock watchdog signal) its) it).broker.clients.slots[i]?
      = some c) (hlive : c.live = true)
    (hlate : ∀ e ∈ occupant i (served (mainLoop (enterLoop b₀ clock watchdog signal) its) it).log,
      ∀ t, timeOf e = some t → ((c.timeoutMs : Int) + 1) * 1000000 ≤ (it.check i).ns - t.ns) :
    let s := enterLoop b₀ clock watchdog signal
    ¬ Feeds (mainLoop s its) it ∧
    ∀ later, processed s (its ++ [it] ++ later) = processed s (its ++ [it]) ∧
      ∀ js jt ks, later = js ++ jt :: ks → ¬ Feeds (mainLoop s (its ++ [it] ++ js)) jt := by
  intro s
  obtain ⟨hbefore, hlast, -⟩ :=
    Machine.admissible_append.mp (Machine.admissible_prod hclock hgap)
  have hrun : Supervised _ (mainLoop s its) :=
    Machine.run_invariant_env iterate supervised_iterate its _ _ hbefore
      (supervised_enterLoop hboot hfrom hto watchdog signal)
  have hfails : Fails (mainLoop s its) it :=
    fails_of_checked_late hrun hlast.1 hlast.2 hloop hpass hc hlive hlate
  have hstopped : (mainLoop s (its ++ [it])).looping = false := by
    refine looping_of_not_allOk ?_
    show (Machine.run iterate s (its ++ [it])).allOk = false
    rw [Machine.run_snoc]
    exact iterate_fails hloop hfails
  refine ⟨fun hfeeds => (feeds_passes hfeeds).2.1 hfails, fun later => ⟨?_, ?_⟩⟩
  · exact processed_append (its ++ [it]) later hstopped
  · intro js jt ks _
    refine not_feeds_of_stopped ?_
    have hend : mainLoop s (its ++ [it] ++ js) = mainLoop s (its ++ [it]) :=
      (Machine.run_append iterate s (its ++ [it]) js).trans (mainLoop_stopped js hstopped)
    rw [hend]
    exact hstopped

theorem missed_deadline_final_announced :
    ∃ b₀, boot (some oneClient) (fun _ => Timespec.zero) (fun _ => Vector.replicate 8 0)
        = .ok b₀ ∧
      ¬ Feeds (enterLoop b₀ (fun _ => Timespec.zero) true false)
        (quiet true (Timespec.ofMs 300001)) := by
  obtain ⟨b₀, hboot, h⟩ := @exists_of_accepts oneClient expectsClient (by decide +kernel)
  obtain ⟨c, hc, hann, htimeout⟩ := of_decide_eq_true h
  have hzero : ∀ i : Nat, Timespec.zero ≤ Timespec.zero := fun _ => Timespec.le_refl _
  have hgap : PassGap (some fun _ => Timespec.zero) (quiet true (Timespec.ofMs 300001)) := by
    intro _ p hp i _
    obtain rfl := Option.some.inj hp
    show (Timespec.ofMs 300001).ns - Timespec.zero.ns < 2 ^ 31 * 1000000
    decide
  have hloop : (enterLoop b₀ (fun _ => Timespec.zero) true false).looping = true := by
    obtain ⟨text, -, -, hrun, -⟩ := boot_ok hboot
    simp [enterLoop, Main.signalled, Main.looping, hrun]
  have hocc : occupant 0 (announcements (fun _ => Timespec.zero) b₀.clients.slots 0)
      = [.announce 0 Timespec.zero c.timeoutMs] := by
    have := @occupant_announcements (fun _ => Timespec.zero) b₀.clients.slots 0 0 c hc
    rwa [hann, if_pos rfl] at this
  refine ⟨b₀, hboot, (@missed_deadline_final _ _ _ _ _ _ hboot hzero hzero true false []
    (quiet true (Timespec.ofMs 300001)) ⟨clockOk_quiet (by decide), trivial⟩ ⟨hgap, trivial⟩ hloop
    rfl 0 c hc (Client.live_iff.mpr (Or.inr hann)) ?_).1⟩
  intro e he t ht
  have he' : e ∈ occupant 0 (announcements (fun _ => Timespec.zero) b₀.clients.slots 0) := he
  rw [hocc] at he'
  obtain rfl := List.mem_singleton.mp he'
  obtain rfl := Option.some.inj ht
  rw [htimeout]
  show (300000 + 1) * 1000000 ≤ (Timespec.ofMs 300001).ns - Timespec.zero.ns
  decide

/-- An iteration that serves a PING half a second behind the deadline, and feeds. -/
def lateTurn : Iteration where
  select := .ready true true
  accept := .connection (stranger "PING 0000000000000000\n" 300500)
  check := fun _ => Timespec.ofMs 300500
  timerRead := true
  feedOk := true
  signal := false

/-- Only the announcement was heard of slot 0; its late PING is answered `OK`, and
    the device is fed behind it, and `2^32` milliseconds after the announcement. -/
def forgives (b : Broker) : Bool :=
  let s := enterLoop b (fun _ => Timespec.zero) true false
  decide (∃ c ∈ b.clients.slots[0]?, c.live = true ∧ c.timeoutMs = 300000 ∧
    c.clientID = makeClientID (Vector.replicate 8 0)) &&
  decide (occupant 0 s.log = [.announce 0 Timespec.zero 300000]) &&
  decide ((handleCommand b (stranger "PING 0000000000000000\n" 300500)).replies
    = [.text (bytes "OK\n")]) &&
  decide ((iterate s lateTurn).trace = s.trace ++ [.feed]) &&
  decide ((iterate s (quiet true (Timespec.ofMs (2 ^ 32)))).trace = s.trace ++ [.feed])

/-- **BETWEEN CHECKS A DEADLINE IS FORGIVEN**: an announced client is late at 300001
    milliseconds; the PING that comes half a second later is answered `OK` and the
    watchdog is fed in the same iteration.  And a check that comes only when the
    32-bit age has wrapped forgives as well. -/
theorem late_ping_forgiven :
    ∃ b₀ c, boot (some oneClient) (fun _ => Timespec.zero) (fun _ => Vector.replicate 8 0)
        = .ok b₀ ∧
      let s := enterLoop b₀ (fun _ => Timespec.zero) true false
      s.broker.clients.slots[0]? = some c ∧ c.live = true ∧
      Late (Timespec.ofMs 300001) 0 s.log c ∧
      (∃ r ∈ lateTurn.request, Timespec.ofMs 300001 ≤ r.now ∧
        (∃ creds, Pings r creds c.clientID) ∧
        (handleCommand s.broker r).replies = [.text (bytes "OK\n")]) ∧
      Feeds s lateTurn ∧
      Late (Timespec.ofMs (2 ^ 32)) 0 s.log c ∧ Feeds s (quiet true (Timespec.ofMs (2 ^ 32))) := by
  obtain ⟨b₀, hboot, h⟩ := @exists_of_accepts oneClient forgives (by decide +kernel)
  simp only [forgives, Bool.and_eq_true, decide_eq_true_eq] at h
  obtain ⟨⟨⟨⟨⟨c, hc, hlive, htimeout, hid⟩, hocc⟩, hreply⟩, hfeed⟩, hfeed'⟩ := h
  have hlate : ∀ now : Timespec, (300000 + 1) * 1000000 ≤ now.ns - Timespec.zero.ns →
      Late now 0 (enterLoop b₀ (fun _ => Timespec.zero) true false).log c := by
    intro now hnow e he t ht
    rw [hocc] at he
    obtain rfl := List.mem_singleton.mp he
    obtain rfl := Option.some.inj ht
    rw [htimeout]
    exact hnow
  refine ⟨b₀, c, hboot, hc, hlive, hlate _ (by decide), ⟨_, rfl, by decide, ?_, hreply⟩,
    ⟨_, hfeed, List.mem_cons_self⟩, hlate _ (by decide), ⟨_, hfeed', List.mem_cons_self⟩⟩
  exact ⟨⟨7, 1000⟩, hid ▸ pings_stranger 300500⟩

end WdDeadline
