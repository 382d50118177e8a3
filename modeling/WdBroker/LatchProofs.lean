import WdBroker.MainLoopProofs

/-! # The failure latch

    Once `all_ok` is cleared nothing may touch the watchdog again, so that the
    pending reset comes.  The loop itself respects this: an iteration that clears
    `all_ok` does not feed, and there is no further one.  The way out of the loop
    does not: the code behind the wait asks for `reboot` only, not for `all_ok`,
    so whatever ends the wait (a signal, or a REBOOT that was accepted in the
    failing iteration itself) disarms or rearms the device.

    `latched_iff` is the exact condition over whole runs. -/

namespace WdLatch

open CString WdClock WdTable WdConfig WdCommand WdReach WdMain

/-- The operations that put the reset off: a feed, a timeout, the two ways to
    disarm. -/
def touches : Event → Bool
  | .feed | .setTimeout _ | .magicClose | .disableCard => true
  | .openDevice | .getBootStatus | .closeDevice | .latch => false

/-- Behind the first `all_ok = false` the device is left alone. -/
def Latched (trace : List Event) : Prop :=
  ∀ done rest, trace = done ++ .latch :: rest → ∀ e ∈ rest, touches e = false

theorem latched_append {trace ops : List Event} (hno : Event.latch ∉ trace)
    (hops : ∀ e ∈ ops, touches e = false) : Latched (trace ++ ops) := by
  intro done rest heq e he
  rcases List.append_eq_append_iff.mp heq with ⟨more, hdone, hsplit⟩ | ⟨more, htrace, hsplit⟩
  · refine hops e ?_
    rw [hsplit]
    exact List.mem_append_right _ (List.mem_cons_of_mem _ he)
  · cases more with
    | nil =>
        refine hops e ?_
        rw [List.nil_append] at hsplit
        rw [← hsplit]
        exact List.mem_cons_of_mem _ he
    | cons x more =>
        obtain ⟨rfl, -⟩ := List.cons.inj hsplit
        exact absurd (htrace ▸ List.mem_append_right _ List.mem_cons_self) hno

theorem latched_of_not_mem {trace : List Event} (hno : Event.latch ∉ trace) : Latched trace := by
  have h := @latched_append trace [] hno fun e he => nomatch he
  rwa [List.append_nil] at h

-- ── the way out ───────────────────────────────────────────────────────────────

variable {s : Main} {td : Teardown}

/-- A pending reset that no signal ends. -/
theorem shutdown_waits (hok : s.allOk = false) (hrun : s.broker.running = true)
    (hsig : td.signal = false) : shutdown s td = s := by
  unfold shutdown awaitReset
  rw [hsig, hok]
  simp [Main.signalled, hrun]

/-- Whatever else ends the wait, the device is rearmed or disarmed. -/
theorem shutdown_touches (hok : s.allOk = false) (hexit : s.exited = false)
    (hwd : s.watchdog = true) (hend : s.broker.running = false ∨ td.signal = true) :
    ∃ e rest, touches e = true ∧ (shutdown s td).trace = s.trace ++ e :: rest := by
  have hwait : ∃ b : Broker, b.running = false ∧ awaitReset s td = { s with broker := b } := by
    unfold awaitReset
    rw [if_neg (by rw [hok]; decide)]
    cases hsig : td.signal with
    | true => exact ⟨{ s.broker with running := false }, rfl, rfl⟩
    | false =>
        rcases hend with hrun | hsig'
        · exact ⟨s.broker, hrun, rfl⟩
        · rw [hsig] at hsig'
          exact Bool.noConfusion hsig'
  obtain ⟨b, hrun, hwait⟩ := hwait
  have hnot : (s.looping || s.exited) = false := by
    rw [Main.looping, hok, hexit]
    simp
  unfold shutdown
  rw [hnot, hwait]
  cases hreb : b.reboot with
  | true =>
      cases htd : td.feedOk with
      | true =>
          exact ⟨.setTimeout b.config.rebootTimeoutS, [.feed, .closeDevice], rfl,
            by simp [hrun, rebootFailsafe, hreb, hwd, htd, closeWatchdog]⟩
      | false =>
          exact ⟨.setTimeout b.config.rebootTimeoutS, [.feed], rfl,
            by simp [hrun, rebootFailsafe, hreb, hwd, htd]⟩
  | false =>
      exact ⟨.magicClose, [.disableCard, .closeDevice], rfl,
        by simp [hrun, rebootFailsafe, hreb, hwd, hexit, closeWatchdog]⟩

/-- The way out never clears `all_ok`. -/
theorem shutdown_no_latch (hno : Event.latch ∉ s.trace) : Event.latch ∉ (shutdown s td).trace := by
  have hwait : ∀ s' : Main, Event.latch ∉ s'.trace → Event.latch ∉ (awaitReset s' td).trace := by
    intro s' h
    unfold awaitReset Main.signalled
    split
    · exact h
    · split <;> exact h
  have hreb : ∀ s' : Main, Event.latch ∉ s'.trace → Event.latch ∉ (rebootFailsafe s' td).trace := by
    intro s' h
    unfold rebootFailsafe
    split
    · simpa using h
    · exact h
  have hclose : ∀ s' : Main, Event.latch ∉ s'.trace → Event.latch ∉ (closeWatchdog s').trace := by
    intro s' h
    unfold closeWatchdog
    cases s'.watchdog <;> cases s'.broker.reboot <;> simpa using h
  unfold shutdown
  split
  · exact hno
  dsimp only
  split
  · exact hwait s hno
  split
  · exact hreb _ (hwait s hno)
  · exact hclose _ (hreb _ (hwait s hno))

-- ── the condition ─────────────────────────────────────────────────────────────

/-- Nothing ends the wait: no signal in the iteration or later, and no REBOOT
    accepted in it. -/
def Undisturbed (td : Teardown) (it : Iteration) : Prop :=
  it.signal = false ∧ td.signal = false ∧ ∀ r ∈ it.request, ¬ Reboots r

/-- If the iteration clears `all_ok`, it ends the process at the timer or the
    wait is undisturbed. -/
def KeepsLatch (td : Teardown) (s : Main) (it : Iteration) : Prop :=
  s.looping = true → Fails s it → it.timerFails = true ∨ Undisturbed td it

/-- What holds as long as `all_ok` is set. -/
structure Healthy (s : Main) : Prop where
  allOk : s.allOk = true
  watchdog : s.watchdog = true
  unmarked : Event.latch ∉ s.trace

/-- The command of the iteration stops the loop exactly if it is an accepted
    REBOOT. -/
theorem served_running {it : Iteration} (hrun : s.broker.running = true) :
    (served s it).broker.running = true ↔ ∀ r ∈ it.request, ¬ Reboots r := by
  unfold served
  cases hreq : it.request with
  | none => exact iff_of_true hrun fun r hr => nomatch hr
  | some r =>
      by_cases h : Reboots r
      · refine iff_of_false ?_ fun hno => hno r rfl h
        show ¬ (handleCommand s.broker r).broker.running = true
        rw [handleCommand_reboots h]
        exact Bool.false_ne_true
      · refine iff_of_true ?_ ?_
        · exact (handleCommand_flags h).1.trans hrun
        · rintro r' ⟨⟩
          exact h

theorem admissible_stopped (its : List Iteration) :
    ∀ {s : Main}, s.looping = false → Machine.Admissible (KeepsLatch td) iterate s its := by
  induction its with
  | nil => intro s _; exact trivial
  | cons it its ih =>
      intro s h
      refine ⟨fun hl => absurd (h.symm.trans hl) (by decide), ?_⟩
      rw [iterate_stopped h]
      exact ih h

/-- An iteration that clears `all_ok`, and the way out after it. -/
theorem latched_failing {it : Iteration} (h : Healthy s) (hloop : s.looping = true)
    (hfails : Fails s it) (its : List Iteration) :
    Latched (mainFrom (iterate s it) its td).trace ↔
      it.timerFails = true ∨ Undisturbed td it := by
  obtain ⟨n, hmarks, hended, hwd, hrun'⟩ := iterate_failing hloop hfails
  have hfailed := iterate_fails hloop hfails
  have hopen : (iterate s it).watchdog = true := hwd.trans h.watchdog
  have hrunning : s.broker.running = true := by
    simp only [Main.looping, Bool.and_eq_true] at hloop
    exact hloop.1.1
  have hquiet : ∀ e ∈ List.replicate (n + 1) Event.latch, touches e = false := by
    intro e he
    rw [List.eq_of_mem_replicate he]
    rfl
  unfold mainFrom
  rw [mainLoop_stopped its (looping_of_not_allOk hfailed)]
  cases htimer : it.timerFails with
  | true =>
      -- the process is gone
      refine iff_of_true ?_ (Or.inl rfl)
      have hgone : shutdown (iterate s it) td = iterate s it := by
        unfold shutdown
        rw [hended, htimer, Bool.or_true]
        rfl
      rw [hgone, hmarks]
      exact latched_append h.unmarked hquiet
  | false =>
      rw [htimer] at hended
      by_cases hdist : Undisturbed td it
      · obtain ⟨hsig, htd, hreq⟩ := hdist
        refine iff_of_true ?_ (Or.inr ⟨hsig, htd, hreq⟩)
        have hrun : (iterate s it).broker.running = true := by
          rw [hrun', hsig]
          exact (Bool.and_true _).trans ((served_running hrunning).mpr hreq)
        rw [shutdown_waits hfailed hrun htd, hmarks]
        exact latched_append h.unmarked hquiet
      · refine iff_of_false ?_ fun hor => hor.elim Bool.false_ne_true hdist
        have hend : (iterate s it).broker.running = false ∨ td.signal = true := by
          by_contra hno
          rw [not_or, Bool.not_eq_false, Bool.not_eq_true] at hno
          refine hdist ?_
          have hboth := hrun'.symm.trans hno.1
          rw [Bool.and_eq_true, Bool.not_eq_true'] at hboth
          exact ⟨hboth.2, hno.2, (served_running hrunning).mp hboth.1⟩
        obtain ⟨e, rest, he, hops⟩ := @shutdown_touches _ td hfailed hended hopen hend
        intro hlatched
        have hbad := hlatched s.trace (List.replicate n .latch ++ e :: rest) (by
          rw [hops, hmarks, List.replicate_succ, List.append_assoc]
          rfl) e (List.mem_append_right _ List.mem_cons_self)
        exact absurd (he.symm.trans hbad) (by decide)

theorem healthy_iterate {it : Iteration} (h : Healthy s) (hpass : ¬ Fails s it) :
    Healthy (iterate s it) := by
  unfold iterate
  split
  · obtain ⟨hwd, hok, htrace, -⟩ := served_frame s it
    obtain ⟨hwd', hok', htrace', -, -⟩ := signalled_frame (loopBody s it) it.signal
    rw [loopBody_passes h.allOk hpass] at hwd' hok' htrace' ⊢
    refine ⟨hok'.trans (hok.trans h.allOk), hwd'.trans (hwd.trans h.watchdog), ?_⟩
    rw [htrace']
    dsimp only
    rw [htrace]
    split
    · simpa using h.unmarked
    · simpa using h.unmarked
  · exact h

/-- The condition, iteration by iteration. -/
theorem latched_admissible (its : List Iteration) :
    ∀ {s : Main}, Healthy s →
      (Latched (mainFrom s its td).trace ↔ Machine.Admissible (KeepsLatch td) iterate s its) := by
  induction its with
  | nil =>
      intro s h
      exact iff_of_true (latched_of_not_mem (shutdown_no_latch h.unmarked)) trivial
  | cons it its ih =>
      intro s h
      have hrun : mainFrom s (it :: its) td = mainFrom (iterate s it) its td := rfl
      rw [hrun, Machine.Admissible]
      cases hloop : s.looping with
      | false =>
          rw [iterate_stopped hloop, ih h]
          refine ⟨fun hadm => ⟨fun hl => ?_, hadm⟩, fun hadm => hadm.2⟩
          exact absurd (hloop.symm.trans hl) (by decide)
      | true =>
          by_cases hfails : Fails s it
          · rw [latched_failing h hloop hfails its]
            have hstopped := looping_of_not_allOk (iterate_fails hloop hfails)
            exact ⟨fun hc => ⟨fun _ _ => hc, admissible_stopped its hstopped⟩,
              fun hadm => hadm.1 hloop hfails⟩
          · rw [ih (healthy_iterate h hfails)]
            exact ⟨fun hadm => ⟨fun _ hf => absurd hf hfails, hadm⟩, fun hadm => hadm.2⟩

theorem healthy_enterLoop (b : Broker) (clock : Nat → Timespec) (signal : Bool) :
    Healthy (enterLoop b clock true signal) := by
  obtain ⟨hwd, hok, htrace, -, -⟩ := signalled_frame (enterLoop b clock true false) signal
  refine ⟨hok, hwd, ?_⟩
  show Event.latch ∉ ((enterLoop b clock true false).signalled signal).trace
  rw [htrace]
  simp [enterLoop, Main.signalled]

/-- **WHEN THE FAILURE LATCH HOLDS**: in a run of `main` with the device open, for
    every table, every sequence of iterations and every way out, nothing is fed,
    given a timeout or disarmed behind `all_ok = false` exactly when the
    iteration that clears `all_ok`, if there is one, either ends the process at
    the timer, or sees no signal and no accepted REBOOT and no signal arrives
    while the reset is pending. -/
theorem latched_iff (b : Broker) (clock : Nat → Timespec) (signal : Bool)
    (its : List Iteration) (td : Teardown) :
    Latched (mainFrom (enterLoop b clock true signal) its td).trace ↔
      ∀ js it ks, its = js ++ it :: ks →
        (mainLoop (enterLoop b clock true signal) js).looping = true →
        Fails (mainLoop (enterLoop b clock true signal) js) it →
        it.timerFails = true ∨
          (it.signal = false ∧ td.signal = false ∧ ∀ r ∈ it.request, ¬ Reboots r) := by
  rw [latched_admissible its (healthy_enterLoop b clock signal)]
  exact Machine.admissible_iff

/-- **THE LATCH CAN BE UNDONE**: one announced client that never registers; the
    first check after its deadline clears `all_ok`, and a SIGTERM while the reset
    is pending disarms the watchdog. -/
theorem latch_undone :
    ∃ b, boot (some (bytes "[client a]\n")) (fun _ => Timespec.zero)
        (fun _ => Vector.replicate 8 0) = .ok b ∧
      (mainFrom (enterLoop b (fun _ => Timespec.zero) true false)
          [quiet false (Timespec.ofMs 300001)] ⟨true, true⟩).trace
        = [.openDevice, .setTimeout b.config.wdTimeoutS, .getBootStatus, .latch, .magicClose,
            .disableCard, .closeDevice] ∧
      ¬ Latched (mainFrom (enterLoop b (fun _ => Timespec.zero) true false)
          [quiet false (Timespec.ofMs 300001)] ⟨true, true⟩).trace := by
  obtain ⟨b, hboot, htrace⟩ := @exists_of_accepts (bytes "[client a]\n")
    (fun b => decide ((mainFrom (enterLoop b (fun _ => Timespec.zero) true false)
        [quiet false (Timespec.ofMs 300001)] ⟨true, true⟩).trace
      = [.openDevice, .setTimeout b.config.wdTimeoutS, .getBootStatus, .latch, .magicClose,
          .disableCard, .closeDevice])) (by decide +kernel)
  have htrace := of_decide_eq_true htrace
  refine ⟨b, hboot, htrace, fun hlatched => ?_⟩
  have hquiet := hlatched [.openDevice, .setTimeout b.config.wdTimeoutS, .getBootStatus]
    [.magicClose, .disableCard, .closeDevice] htrace .magicClose List.mem_cons_self
  exact Bool.noConfusion hquiet

end WdLatch
