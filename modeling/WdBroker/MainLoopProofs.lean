import WdBroker.ReachProofs

/-! # The main loop and the way out of it

    One iteration of the loop waits in `select`, serves at most one connection,
    checks every slot and feeds the watchdog if its timer fired.  What the kernel
    decides in an iteration is its `Iteration`: the outcome of each call, the
    clock readings of the check, and whether SIGINT or SIGTERM arrived in it (the
    handler only clears `running`, which only the loop conditions read, so it
    does not matter where in the iteration).  `shutdown` is the rest of `main`.

    The state carries two ghost fields: the trace of device operations, in which
    `latch` marks each assignment `all_ok = false`, and the log of the slot
    events that were honoured, latest first.

    `loopBody_fails` and `loopBody_passes` say what an iteration does; nothing
    above this file unfolds the loop. -/

namespace WdMain

open WdClock WdTable WdCommand WdReach

/-- The values of `errno` that the loop tells apart. -/
inductive Errno where
  | eagain
  | ewouldblock
  | econnaborted
  | eintr
  | other
deriving DecidableEq

/-- The errors of `accept` that are ignored. -/
def Errno.tolerated : Errno → Bool
  | .eagain | .ewouldblock | .econnaborted | .eintr => true
  | .other => false

/-- What happens to `/dev/watchdog`, and when `all_ok` is cleared. -/
inductive Event where
  | openDevice
  | setTimeout (seconds : Int)
  | getBootStatus
  | feed
  | magicClose
  | disableCard
  | closeDevice
  | latch
deriving DecidableEq

/-- `select` returns the ready descriptors (none after its timeout), or fails. -/
inductive Select where
  | ready (serverSock timerFd : Bool)
  | fails (errno : Errno)
deriving DecidableEq

/-- `accept` returns a connection, or fails. -/
inductive Accept where
  | connection (r : Request)
  | fails (errno : Errno)

/-- The environment of one iteration.  `check i` is the clock reading at slot
    `i`; `timerRead` and `feedOk` say whether those calls succeed. -/
structure Iteration where
  select : Select
  accept : Accept
  check : Nat → Timespec
  timerRead : Bool
  feedOk : Bool
  signal : Bool

/-- The variables of `main` that the loop uses; `watchdog` stands for
    `watchdog_fd != -1`, and `exited` says that the process has ended. -/
structure Main where
  broker : Broker
  watchdog : Bool
  allOk : Bool
  exited : Bool
  trace : List Event
  log : List SlotEvent

/-- `all_ok = false`. -/
def Main.fail (s : Main) : Main := { s with allOk := false, trace := s.trace ++ [.latch] }

/-- `signal_handler`, if a signal arrived. -/
def Main.signalled (s : Main) : Bool → Main
  | true => { s with broker := { s.broker with running := false } }
  | false => s

-- ── one iteration ─────────────────────────────────────────────────────────────

/-- `handle_command` on an accepted connection. -/
def serve (s : Main) (r : Request) : Main :=
  { s with
    broker := (handleCommand s.broker r).broker
    log := (handleCommand s.broker r).event.toList ++ s.log }

/-- `accept` and what follows it. -/
def acceptClient (s : Main) : Accept → Main
  | .connection r => serve s r
  | .fails errno => if errno.tolerated then s else s.fail

/-- The check of one slot at clock reading `now`. -/
def missed (now : Timespec) (c : Client) : Bool :=
  (c.active || c.anounced) && decide (msSince c.lastPing now > c.timeoutMs)

/-- The loop over the slots from `i` on; it ends at the first missed heartbeat. -/
def anyMissed (check : Nat → Timespec) : List Client → Nat → Bool
  | [], _ => false
  | c :: cs, i => if missed (check i) c then true else anyMissed check cs (i + 1)

/-- The heartbeat check. -/
def checkClients (s : Main) (check : Nat → Timespec) : Main :=
  if anyMissed check s.broker.clients.slots 0 then s.fail else s

/-- The timer has expired: feed the watchdog if everything is ok.  Both errors
    are fatal. -/
def onTimer (s : Main) (it : Iteration) : Main :=
  if !it.timerRead then { s with exited := true }
  else if s.allOk && s.watchdog then
    { s with trace := s.trace ++ [.feed], exited := s.exited || !it.feedOk }
  else s

/-- The body of the main loop. -/
def loopBody (s : Main) (it : Iteration) : Main :=
  match it.select with
  | .ready serverSock timerFd =>
      let s₁ := if serverSock then acceptClient s it.accept else s
      let s₂ := checkClients s₁ it.check
      if timerFd then onTimer s₂ it else s₂
  | .fails errno => if errno ≠ .eintr then s.fail else s

/-- The loop condition, in a process that is still there. -/
def Main.looping (s : Main) : Bool := s.broker.running && s.allOk && !s.exited

/-- One turn of the loop, if there is one. -/
def iterate (s : Main) (it : Iteration) : Main :=
  if s.looping then (loopBody s it).signalled it.signal else s

/-- The loop. -/
def mainLoop (s : Main) (its : List Iteration) : Main := Machine.run iterate s its

-- ── before and after the loop ─────────────────────────────────────────────────

/-- The announcements of `parse_config` from slot `i` on; it reads the clock once
    per announced slot. -/
def announcements (clock : Nat → Timespec) : List Client → Nat → List SlotEvent
  | [], _ => []
  | c :: cs, i =>
      if c.anounced then .announce i (clock i) c.timeoutMs :: announcements clock cs (i + 1)
      else announcements clock cs (i + 1)

/-- `main` at the loop: the device is open and armed unless `--no-watchdog` was
    given.  A signal may arrive before the first test of the condition. -/
def enterLoop (b : Broker) (clock : Nat → Timespec) (watchdog signal : Bool) : Main :=
  Main.signalled
    { broker := b
      watchdog := watchdog
      allOk := true
      exited := false
      trace := if watchdog then [.openDevice, .setTimeout b.config.wdTimeoutS, .getBootStatus]
        else []
      log := announcements clock b.clients.slots 0 }
    signal

/-- The environment of the rest of `main`: whether a signal arrives while the
    reset is pending, and whether the last feed succeeds. -/
structure Teardown where
  signal : Bool
  feedOk : Bool

/-- `if (!all_ok) { ... while (running) { sync(); sleep(1); } }`, up to the signal
    that ends the wait. -/
def awaitReset (s : Main) (td : Teardown) : Main :=
  if s.allOk then s else s.signalled td.signal

/-- `if (reboot)`: rearm the watchdog with the reboot timeout. -/
def rebootFailsafe (s : Main) (td : Teardown) : Main :=
  if s.broker.reboot && s.watchdog then
    { s with
      trace := s.trace ++ [.setTimeout s.broker.config.rebootTimeoutS, .feed]
      exited := !td.feedOk }
  else s

/-- Stop the watchdog, unless it guards a reboot, and close it. -/
def closeWatchdog (s : Main) : Main :=
  { s with
    exited := true
    trace :=
      if s.watchdog then
        s.trace ++ ((if s.broker.reboot then [] else [.magicClose, .disableCard]) ++ [.closeDevice])
      else s.trace }

/-- From the end of the loop to the end of `main`; a loop that goes on, and a
    pending reset that no signal ends, leave the process where it is. -/
def shutdown (s : Main) (td : Teardown) : Main :=
  if s.looping || s.exited then s
  else
    let s₁ := awaitReset s td
    if s₁.broker.running then s₁
    else
      let s₂ := rebootFailsafe s₁ td
      if s₂.exited then s₂ else closeWatchdog s₂

/-- `main` from the loop on. -/
def mainFrom (s : Main) (its : List Iteration) (td : Teardown) : Main :=
  shutdown (mainLoop s its) td

/-- An iteration without a connection, all slots checked at `now`. -/
def quiet (timerFd : Bool) (now : Timespec) : Iteration where
  select := .ready false timerFd
  accept := .fails .eagain
  check := fun _ => now
  timerRead := true
  feedOk := true
  signal := false

-- ── what an iteration does ────────────────────────────────────────────────────

/-- The command that the iteration handles. -/
def Iteration.request (it : Iteration) : Option Request :=
  match it.select, it.accept with
  | .ready true _, .connection r => some r
  | _, _ => none

/-- The iteration gets to the heartbeat check. -/
def Iteration.passes (it : Iteration) : Bool :=
  match it.select with
  | .ready _ _ => true
  | .fails _ => false

/-- The state at the check: after the command, if there was one. -/
def served (s : Main) (it : Iteration) : Main :=
  match it.request with
  | some r => serve s r
  | none => s

/-- `select` fails, and not because of a signal. -/
def SelectFails (it : Iteration) : Prop :=
  ∃ errno, it.select = .fails errno ∧ errno ≠ .eintr

/-- `accept` fails with an error that is not tolerated. -/
def AcceptFails (it : Iteration) : Prop :=
  ∃ timerFd errno, it.select = .ready true timerFd ∧ it.accept = .fails errno ∧
    errno.tolerated = false

/-- The check finds a missed heartbeat. -/
def Misses (s : Main) (it : Iteration) : Prop :=
  it.passes = true ∧ anyMissed it.check (served s it).broker.clients.slots 0 = true

/-- The iteration clears `all_ok`. -/
def Fails (s : Main) (it : Iteration) : Prop := SelectFails it ∨ AcceptFails it ∨ Misses s it

/-- The timer has fired, and reading it fails. -/
def Iteration.timerFails (it : Iteration) : Bool :=
  match it.select with
  | .ready _ timerFd => timerFd && !it.timerRead
  | .fails _ => false

/-- The timer has fired, and the device is to be fed if everything is ok. -/
def Iteration.timerFires (it : Iteration) : Bool :=
  match it.select with
  | .ready _ timerFd => timerFd && it.timerRead
  | .fails _ => false

/-- `all_ok = false`, `n` times. -/
def Main.latched (s : Main) (n : Nat) : Main :=
  { s with allOk := false, trace := s.trace ++ List.replicate n .latch }

variable {s : Main} {it : Iteration}

/-- The check looks at every slot until one has missed. -/
theorem anyMissed_iff {check : Nat → Timespec} {cs : List Client} :
    ∀ {i : Nat}, anyMissed check cs i = true ↔
      ∃ (k : Nat) (c : Client), cs[k]? = some c ∧ missed (check (i + k)) c = true := by
  induction cs with
  | nil => intro i; simp [anyMissed]
  | cons c cs ih =>
      intro i
      rw [anyMissed]
      by_cases hc : missed (check i) c = true
      · rw [if_pos hc]
        exact iff_of_true rfl ⟨0, c, rfl, hc⟩
      · rw [if_neg hc, ih]
        constructor
        · rintro ⟨k, c', hk, hm⟩
          exact ⟨k + 1, c', hk, by rwa [show i + (k + 1) = i + 1 + k by omega]⟩
        · rintro ⟨k, c', hk, hm⟩
          cases k with
          | zero =>
              obtain rfl := Option.some.inj hk
              exact absurd hm hc
          | succ k => exact ⟨k, c', hk, by rwa [show i + 1 + k = i + (k + 1) by omega]⟩

theorem missed_iff {now : Timespec} {c : Client} :
    missed now c = true ↔ c.live = true ∧ c.timeoutMs < msSince c.lastPing now := by
  simp [missed, Client.live]

theorem Main.latched_fail (s : Main) (n : Nat) : (s.latched n).fail = s.latched (n + 1) := by
  unfold Main.latched Main.fail
  rw [List.append_assoc, ← List.replicate_succ']

/-- The connection: a failing `accept` clears `all_ok`, anything else is the
    command alone. -/
theorem accept_cases {serverSock timerFd : Bool} (hsel : it.select = .ready serverSock timerFd) :
    (AcceptFails it ∧ (if serverSock then acceptClient s it.accept else s)
        = (served s it).latched 1) ∨
      (¬ AcceptFails it ∧ (if serverSock then acceptClient s it.accept else s)
        = served s it) := by
  unfold AcceptFails served Iteration.request
  rw [hsel]
  cases serverSock with
  | false => exact Or.inr ⟨fun ⟨_, _, h, _⟩ => (nomatch h), rfl⟩
  | true =>
      cases hacc : it.accept with
      | connection r => exact Or.inr ⟨fun ⟨_, _, _, h, _⟩ => (nomatch h), rfl⟩
      | fails errno =>
          cases htol : errno.tolerated with
          | true =>
              refine Or.inr ⟨?_, ?_⟩
              · rintro ⟨_, errno', -, he, hbad⟩
                obtain rfl := Accept.fails.inj he
                exact absurd (htol.symm.trans hbad) (by decide)
              · simp [acceptClient, htol]
          | false =>
              refine Or.inl ⟨⟨timerFd, errno, rfl, rfl, htol⟩, ?_⟩
              simp [acceptClient, htol, Main.fail, Main.latched]

/-- After `all_ok = false` the timer can only end the process. -/
theorem onTimer_latched (n : Nat) :
    onTimer (s.latched n) it
      = { s.latched n with exited := s.exited || !it.timerRead } := by
  unfold onTimer Main.latched
  cases it.timerRead with
  | true => simp
  | false => simp

/-- While everything is ok, an expired timer feeds the device. -/
theorem onTimer_ok (hok : s.allOk = true) :
    onTimer s it =
      { s with
        exited := s.exited || !it.timerRead || (it.timerRead && s.watchdog && !it.feedOk)
        trace := s.trace ++ if it.timerRead && s.watchdog then [.feed] else [] } := by
  obtain ⟨broker, watchdog, allOk, exited, trace, log⟩ := s
  unfold onTimer
  rw [show allOk = true from hok]
  cases it.timerRead <;> cases watchdog <;> simp

/-- **AN ITERATION THAT CLEARS `all_ok`** does nothing to the device; a timer that
    cannot be read ends the process. -/
theorem loopBody_fails (h : Fails s it) :
    ∃ n, loopBody s it =
      { (served s it).latched (n + 1) with exited := (served s it).exited || it.timerFails } := by
  unfold loopBody Iteration.timerFails
  cases hsel : it.select with
  | fails errno =>
      have hserved : served s it = s := by
        unfold served Iteration.request
        rw [hsel]
      have hpasses : it.passes = false := by
        unfold Iteration.passes
        rw [hsel]
      have herr : errno ≠ .eintr := by
        rcases h with ⟨e, he, hne⟩ | ⟨_, _, he, _⟩ | ⟨hp, -⟩
        · rw [hsel] at he
          exact Select.fails.inj he ▸ hne
        · rw [hsel] at he
          exact nomatch he
        · rw [hpasses] at hp
          exact Bool.noConfusion hp
      refine ⟨0, ?_⟩
      dsimp only
      rw [if_pos herr, hserved, Bool.or_false]
      rfl
  | ready serverSock timerFd =>
      dsimp only
      have hcheck : ∃ n, checkClients (if serverSock then acceptClient s it.accept else s) it.check
          = (served s it).latched (n + 1) := by
        rcases @accept_cases s it _ _ hsel with ⟨-, hacc⟩ | ⟨hno, hacc⟩
        · rw [hacc, checkClients]
          split
          · exact ⟨1, Main.latched_fail _ _⟩
          · exact ⟨0, rfl⟩
        · have hmiss : anyMissed it.check (served s it).broker.clients.slots 0 = true := by
            rcases h with ⟨e, he, -⟩ | hbad | ⟨-, hmiss⟩
            · rw [hsel] at he
              exact nomatch he
            · exact absurd hbad hno
            · exact hmiss
          rw [hacc, checkClients, if_pos hmiss]
          exact ⟨0, rfl⟩
      obtain ⟨n, hcheck⟩ := hcheck
      refine ⟨n, ?_⟩
      rw [hcheck]
      cases timerFd with
      | true => exact onTimer_latched (n + 1)
      | false => simp [Main.latched]

/-- **AN ITERATION THAT LEAVES `all_ok` SET** is its command, then the feed if the
    timer fired. -/
theorem loopBody_passes (hok : s.allOk = true) (h : ¬ Fails s it) :
    loopBody s it =
      { served s it with
        exited := (served s it).exited || it.timerFails ||
          (it.timerFires && s.watchdog && !it.feedOk)
        trace := (served s it).trace ++ if it.timerFires && s.watchdog then [.feed] else [] } := by
  have hserved : (served s it).allOk = true ∧ (served s it).watchdog = s.watchdog := by
    unfold served
    split
    · exact ⟨hok, rfl⟩
    · exact ⟨hok, rfl⟩
  unfold loopBody Iteration.timerFails Iteration.timerFires
  cases hsel : it.select with
  | fails errno =>
      have herr : errno = .eintr := by
        by_contra hne
        exact h (Or.inl ⟨errno, hsel, hne⟩)
      have hs : served s it = s := by
        unfold served Iteration.request
        rw [hsel]
      rw [hs, herr]
      simp
  | ready serverSock timerFd =>
      dsimp only
      have hmiss : ¬ anyMissed it.check (served s it).broker.clients.slots 0 = true := by
        intro hm
        refine h (Or.inr (Or.inr ⟨?_, hm⟩))
        unfold Iteration.passes
        rw [hsel]
      have hcheck : checkClients (if serverSock then acceptClient s it.accept else s) it.check
          = served s it := by
        rcases @accept_cases s it _ _ hsel with ⟨hbad, -⟩ | ⟨-, hacc⟩
        · exact absurd (Or.inr (Or.inl hbad)) h
        · rw [hacc, checkClients, if_neg hmiss]
      rw [hcheck]
      cases timerFd with
      | true =>
          rw [if_pos rfl, onTimer_ok hserved.1, hserved.2]
          rfl
      | false => simp

-- ── one turn and the loop ─────────────────────────────────────────────────────

theorem served_frame (s : Main) (it : Iteration) :
    (served s it).watchdog = s.watchdog ∧ (served s it).allOk = s.allOk ∧
      (served s it).trace = s.trace ∧ (served s it).exited = s.exited := by
  unfold served
  split <;> exact ⟨rfl, rfl, rfl, rfl⟩

theorem signalled_frame (s : Main) (sig : Bool) :
    (s.signalled sig).watchdog = s.watchdog ∧ (s.signalled sig).allOk = s.allOk ∧
      (s.signalled sig).trace = s.trace ∧ (s.signalled sig).exited = s.exited ∧
      (s.signalled sig).broker.running = (s.broker.running && !sig) := by
  cases sig with
  | true => exact ⟨rfl, rfl, rfl, rfl, (Bool.and_false _).symm⟩
  | false => exact ⟨rfl, rfl, rfl, rfl, (Bool.and_true _).symm⟩

theorem iterate_looping (h : s.looping = true) :
    iterate s it = (loopBody s it).signalled it.signal := by
  unfold iterate
  rw [h]
  rfl

theorem iterate_stopped (h : s.looping = false) : iterate s it = s := by
  unfold iterate
  rw [h]
  rfl

theorem looping_of_not_allOk (h : s.allOk = false) : s.looping = false := by
  unfold Main.looping
  rw [h, Bool.and_false, Bool.false_and]

/-- A turn that clears `all_ok`. -/
theorem iterate_fails (hloop : s.looping = true) (h : Fails s it) :
    (iterate s it).allOk = false := by
  obtain ⟨n, hbody⟩ := loopBody_fails h
  rw [iterate_looping hloop, (signalled_frame _ _).2.1, hbody]
  rfl

/-- What such a turn leaves behind: marks in the trace and nothing else, and a loop
    that goes no further. -/
theorem iterate_failing (hloop : s.looping = true) (h : Fails s it) :
    ∃ n, (iterate s it).trace = s.trace ++ List.replicate (n + 1) .latch ∧
      (iterate s it).exited = it.timerFails ∧ (iterate s it).watchdog = s.watchdog ∧
      (iterate s it).broker.running = ((served s it).broker.running && !it.signal) := by
  obtain ⟨n, hbody⟩ := loopBody_fails h
  obtain ⟨hwd, -, htrace, hexit⟩ := served_frame s it
  obtain ⟨hwd', -, htrace', hexit', hrun'⟩ := signalled_frame (loopBody s it) it.signal
  rw [← iterate_looping hloop, hbody] at hwd' htrace' hexit' hrun'
  simp only [Main.looping, Bool.and_eq_true, Bool.not_eq_true'] at hloop
  refine ⟨n, ?_, ?_, hwd'.trans hwd, hrun'⟩
  · rw [htrace', ← htrace]
    rfl
  · rw [hexit', hexit, hloop.2]
    rfl

theorem allOk_of_looping (h : s.looping = true) : s.allOk = true := by
  simp only [Main.looping, Bool.and_eq_true] at h
  exact h.1.2

/-- Check and timer leave the broker and the log alone. -/
theorem loopBody_served (hloop : s.looping = true) :
    (loopBody s it).broker = (served s it).broker ∧ (loopBody s it).log = (served s it).log := by
  by_cases hf : Fails s it
  · obtain ⟨n, hbody⟩ := loopBody_fails hf
    rw [hbody]
    exact ⟨rfl, rfl⟩
  · rw [loopBody_passes (allOk_of_looping hloop) hf]
    exact ⟨rfl, rfl⟩

/-- Check, timer and signal leave table and log alone. -/
theorem iterate_served (hloop : s.looping = true) :
    (iterate s it).broker.clients = (served s it).broker.clients ∧
      (iterate s it).broker.config = (served s it).broker.config ∧
      (iterate s it).log = (served s it).log := by
  obtain ⟨hbroker, hlog⟩ := @loopBody_served s it hloop
  rw [iterate_looping hloop, ← hbroker, ← hlog]
  cases it.signal <;> exact ⟨rfl, rfl, rfl⟩

/-- A signal clears `running` and nothing else. -/
theorem iterate_flags (hloop : s.looping = true) :
    (iterate s it).broker.reboot = (served s it).broker.reboot ∧
      (iterate s it).broker.running = ((served s it).broker.running && !it.signal) := by
  obtain ⟨hbroker, -⟩ := @loopBody_served s it hloop
  rw [iterate_looping hloop, ← hbroker]
  refine ⟨?_, (signalled_frame _ _).2.2.2.2⟩
  cases it.signal <;> rfl

/-- Nothing happens once the loop has ended. -/
theorem mainLoop_stopped (its : List Iteration) :
    ∀ {s : Main}, s.looping = false → mainLoop s its = s := by
  induction its with
  | nil => intro s _; rfl
  | cons it its ih =>
      intro s h
      show mainLoop (iterate s it) its = s
      rw [iterate_stopped h]
      exact ih h

end WdMain
