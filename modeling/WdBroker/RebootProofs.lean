import WdBroker.LatchProofs
import WdBroker.SupervisionProofs

/-! # The reboot failsafe

    Three flags decide how the process ends: `running` and `reboot`, which a REBOOT
    sets together, `running` alone, which a signal clears, and `all_ok`.  In a run
    whose device and timer operations all succeed they combine to one of two
    endings, in whatever order they change: a REBOOT from root was processed and
    the device is rearmed and closed, or none was and it is disarmed and closed.

    The commands of a run are collected in `processed`: those of the iterations
    that the loop really takes. -/

namespace WdReboot

open CString WdClock WdTable WdClientID WdConfig WdCommand WdReach WdMain WdLatch

/-- The commands that a run of the loop processes, in order. -/
def processed (s : Main) : List Iteration → List Request
  | [] => []
  | it :: its => (if s.looping then it.request.toList else []) ++ processed (iterate s it) its

/-- The timer can be read and the device fed. -/
def Works (it : Iteration) : Prop := it.timerRead = true ∧ it.feedOk = true

/-- What the loop does to the device: it feeds it (or marks a failure). -/
def OnlyFeeds (ops : List Event) : Prop := ∀ e ∈ ops, e = .feed ∨ e = .latch

/-- The loop has left the device open and armed, the process is there, and the
    configuration is the one it started with. -/
structure Armed (config : Config) (start : List Event) (s : Main) : Prop where
  watchdog : s.watchdog = true
  alive : s.exited = false
  config : s.broker.config = config
  trace : ∃ ops, s.trace = start ++ ops ∧ OnlyFeeds ops

-- ── one iteration ─────────────────────────────────────────────────────────────

variable {s : Main} {it : Iteration} {its : List Iteration} {td : Teardown}

theorem onlyFeeds_append {ops ops' : List Event} (h : OnlyFeeds ops) (h' : OnlyFeeds ops') :
    OnlyFeeds (ops ++ ops') := by
  intro e he
  rcases List.mem_append.mp he with h1 | h1
  · exact h e h1
  · exact h' e h1

/-- An iteration with working devices only feeds, and the process goes on. -/
theorem iterate_works (hloop : s.looping = true) (hworks : Works it) :
    ∃ ops, (iterate s it).trace = s.trace ++ ops ∧ OnlyFeeds ops ∧
      (iterate s it).exited = false ∧ (iterate s it).watchdog = s.watchdog := by
  have hexit : s.exited = false := by
    simp only [Main.looping, Bool.and_eq_true, Bool.not_eq_true'] at hloop
    exact hloop.2
  have htimer : it.timerFails = false := by
    unfold Iteration.timerFails
    rw [hworks.1]
    cases it.select with
    | ready serverSock timerFd => exact Bool.and_false _
    | fails errno => rfl
  by_cases hf : Fails s it
  · obtain ⟨n, htrace, hended, hwd, -⟩ := iterate_failing hloop hf
    refine ⟨_, htrace, ?_, hended.trans htimer, hwd⟩
    exact fun e he => Or.inr (List.eq_of_mem_replicate he)
  · obtain ⟨hwd, -, htrace, hexited⟩ := served_frame s it
    obtain ⟨hwd', -, htrace', hexited', -⟩ := signalled_frame (loopBody s it) it.signal
    rw [← iterate_looping hloop, loopBody_passes (allOk_of_looping hloop) hf] at hwd' htrace' hexited'
    refine ⟨if it.timerFires && s.watchdog then [.feed] else [], ?_, ?_, ?_, hwd'.trans hwd⟩
    · rw [htrace', ← htrace]
    · intro e he
      split at he
      · exact Or.inl (List.mem_singleton.mp he)
      · cases he
    · rw [hexited', hexited, hexit, htimer, hworks.2]
      simp

theorem served_config (s : Main) (it : Iteration) :
    (served s it).broker.config = s.broker.config := by
  unfold served
  cases it.request with
  | none => rfl
  | some r => exact WdReach.command_config s.broker r

theorem armed_iterate {config : Config} {start : List Event} (h : Armed config start s)
    (hworks : Works it) : Armed config start (iterate s it) := by
  cases hloop : s.looping with
  | false =>
      rw [iterate_stopped hloop]
      exact h
  | true =>
      obtain ⟨ops, htrace, hops, halive, hwd⟩ := iterate_works hloop hworks
      obtain ⟨done, hdone, hfeeds⟩ := h.trace
      refine ⟨hwd.trans h.watchdog, halive, ?_, done ++ ops, ?_, onlyFeeds_append hfeeds hops⟩
      · rw [(iterate_served hloop).2.1, served_config]
        exact h.config
      · rw [htrace, hdone, List.append_assoc]

/-- The command of an iteration sets `reboot` exactly if it is root's REBOOT. -/
theorem served_reboot (s : Main) (it : Iteration) :
    (served s it).broker.reboot = true ↔ s.broker.reboot = true ∨ ∃ r ∈ it.request, Reboots r := by
  unfold served
  cases hreq : it.request with
  | none => simp
  | some r =>
      by_cases h : Reboots r
      · refine iff_of_true ?_ (Or.inr ⟨r, rfl, h⟩)
        show (handleCommand s.broker r).broker.reboot = true
        rw [handleCommand_reboots h]
      · show (handleCommand s.broker r).broker.reboot = true ↔ _
        rw [(handleCommand_flags h).2]
        constructor
        · exact Or.inl
        · rintro (hold | ⟨r', ⟨⟩, hr'⟩)
          · exact hold
          · exact absurd hr' h

/-- Root's REBOOT sets `reboot` and clears `running`. -/
theorem iterate_reboots (hloop : s.looping = true) (h : ∃ r ∈ it.request, Reboots r) :
    (iterate s it).broker.reboot = true ∧ (iterate s it).broker.running = false := by
  have hrunning : s.broker.running = true := by
    simp only [Main.looping, Bool.and_eq_true] at hloop
    exact hloop.1.1
  obtain ⟨hreboot, hrun⟩ := @iterate_flags s it hloop
  refine ⟨hreboot.trans ((served_reboot s it).mpr (Or.inr h)), ?_⟩
  have hstopped : (served s it).broker.running = false := by
    rw [← Bool.not_eq_true, served_running hrunning]
    obtain ⟨r, hr, hreb⟩ := h
    exact fun hno => hno r hr hreb
  rw [hrun, hstopped]
  rfl

/-- Nothing but root's REBOOT sets `reboot`. -/
theorem iterate_not_reboots (h : s.broker.reboot = false)
    (hno : s.looping = true → ¬ ∃ r ∈ it.request, Reboots r) :
    (iterate s it).broker.reboot = false := by
  cases hloop : s.looping with
  | false =>
      rw [iterate_stopped hloop]
      exact h
  | true =>
      rw [(iterate_flags hloop).1, ← Bool.not_eq_true, served_reboot, h]
      rintro (hold | hreb)
      · exact Bool.noConfusion hold
      · exact hno hloop hreb

-- ── whole runs ────────────────────────────────────────────────────────────────

theorem looping_of_not_running (h : s.broker.running = false) : s.looping = false := by
  rw [Main.looping, h]
  rfl

theorem processed_stopped (its : List Iteration) :
    ∀ {s : Main}, s.looping = false → processed s its = [] := by
  induction its with
  | nil => intro s _; rfl
  | cons it its ih =>
      intro s h
      rw [processed, iterate_stopped h, ih h, h]
      rfl

theorem armed_mainLoop {config : Config} {start : List Event} (its : List Iteration) :
    ∀ {s : Main}, Armed config start s → (∀ it ∈ its, Works it) →
      Armed config start (mainLoop s its) := by
  induction its with
  | nil => intro s h _; exact h
  | cons it its ih =>
      intro s h hworks
      exact ih (armed_iterate h (hworks it List.mem_cons_self))
        fun it' hit' => hworks it' (List.mem_cons_of_mem it hit')

/-- At the end of the loop `reboot` is set, and `running` cleared, exactly if root's
    REBOOT was processed. -/
theorem mainLoop_reboot (its : List Iteration) :
    ∀ {s : Main}, s.broker.reboot = false →
      ((mainLoop s its).broker.reboot = true ∧ (mainLoop s its).broker.running = false ∧
        ∃ r ∈ processed s its, Reboots r) ∨
      ((mainLoop s its).broker.reboot = false ∧ ∀ r ∈ processed s its, ¬ Reboots r) := by
  induction its with
  | nil => intro s h; exact Or.inr ⟨h, fun r hr => (nomatch hr)⟩
  | cons it its ih =>
      intro s h
      have hrun : mainLoop s (it :: its) = mainLoop (iterate s it) its := rfl
      by_cases hreb : s.looping = true ∧ ∃ r ∈ it.request, Reboots r
      · -- the loop ends here, and with it the commands
        obtain ⟨hloop, r, hr, hroot⟩ := hreb
        obtain ⟨hset, hstopped⟩ := iterate_reboots hloop ⟨r, hr, hroot⟩
        refine Or.inl ?_
        rw [hrun, mainLoop_stopped its (looping_of_not_running hstopped), processed, hloop]
        refine ⟨hset, hstopped, r, List.mem_append_left _ ?_, hroot⟩
        exact Option.mem_toList.mpr hr
      · have hno : s.looping = true → ¬ ∃ r ∈ it.request, Reboots r :=
          fun hl hr => hreb ⟨hl, hr⟩
        have hhere : ∀ r ∈ (if s.looping then it.request.toList else []), ¬ Reboots r := by
          intro r hr hroot
          split at hr
          · next hloop => exact hno hloop ⟨r, Option.mem_toList.mp hr, hroot⟩
          · exact nomatch hr
        rw [hrun, processed]
        rcases ih (iterate_not_reboots h hno) with ⟨hset, hstopped, r, hr, hroot⟩ | ⟨hclear, hnone⟩
        · exact Or.inl ⟨hset, hstopped, r, List.mem_append_right _ hr, hroot⟩
        · refine Or.inr ⟨hclear, fun r hr => ?_⟩
          rcases List.mem_append.mp hr with h1 | h1
          · exact hhere r h1
          · exact hnone r h1

/-- Nothing is processed behind root's REBOOT. -/
theorem processed_after_reboot (its : List Iteration) :
    ∀ {s : Main} {done later : List Request} {r : Request},
      processed s its = done ++ r :: later → Reboots r → later = [] := by
  induction its with
  | nil =>
      intro s done later r hsplit _
      simp [processed] at hsplit
  | cons it its ih =>
      intro s done later r hsplit hroot
      rw [processed] at hsplit
      cases hloop : s.looping with
      | false =>
          rw [hloop, if_neg Bool.false_ne_true, List.nil_append] at hsplit
          exact ih hsplit hroot
      | true =>
          rw [hloop, if_pos rfl] at hsplit
          cases hreq : it.request with
          | none =>
              rw [hreq, Option.toList_none, List.nil_append] at hsplit
              exact ih hsplit hroot
          | some r₀ =>
              rw [hreq, Option.toList_some, List.singleton_append] at hsplit
              cases done with
              | nil =>
                  obtain ⟨rfl, hlater⟩ := List.cons.inj hsplit
                  obtain ⟨-, hstopped⟩ := iterate_reboots hloop ⟨r₀, hreq, hroot⟩
                  rw [processed_stopped its (looping_of_not_running hstopped)] at hlater
                  exact hlater.symm
              | cons r₁ done => exact ih (List.cons.inj hsplit).2 hroot

-- ── the two endings ───────────────────────────────────────────────────────────

/-- Waiting for the reset can only clear `running`. -/
theorem awaitReset_eq (s : Main) (td : Teardown) :
    ∃ running, awaitReset s td = { s with broker := { s.broker with running := running } } ∧
      (running = true → s.broker.running = true) := by
  unfold awaitReset
  split
  · exact ⟨s.broker.running, rfl, id⟩
  · cases td.signal with
    | true => exact ⟨false, rfl, fun h => Bool.noConfusion h⟩
    | false => exact ⟨s.broker.running, rfl, id⟩

/-- With `reboot` set the device is rearmed, fed once and closed. -/
theorem shutdown_reboots {config : Config} {start : List Event} (h : Armed config start s)
    (hreb : s.broker.reboot = true) (hrun : s.broker.running = false) (htd : td.feedOk = true) :
    (shutdown s td).exited = true ∧
      (shutdown s td).trace = s.trace ++ [.setTimeout config.rebootTimeoutS, .feed, .closeDevice] := by
  have hnot : (s.looping || s.exited) = false := by
    rw [looping_of_not_running hrun, h.alive]
    rfl
  obtain ⟨running, hwait, hkeeps⟩ := awaitReset_eq s td
  have hstopped : running = false := by
    rw [← Bool.not_eq_true]
    exact fun h1 => Bool.false_ne_true (hrun.symm.trans (hkeeps h1))
  unfold shutdown
  rw [hnot, hwait]
  simp [hstopped, rebootFailsafe, hreb, h.watchdog, htd, closeWatchdog, h.config]

/-- Without, the process goes on, or the device is disarmed and closed. -/
theorem shutdown_disarms {config : Config} {start : List Event} (h : Armed config start s)
    (hreb : s.broker.reboot = false) :
    ((shutdown s td).exited = false ∧ (shutdown s td).trace = s.trace) ∨
      ((shutdown s td).exited = true ∧
        (shutdown s td).trace = s.trace ++ [.magicClose, .disableCard, .closeDevice]) := by
  obtain ⟨running, hwait, -⟩ := awaitReset_eq s td
  unfold shutdown
  split
  · exact Or.inl ⟨h.alive, rfl⟩
  · rw [hwait]
    dsimp only
    split
    · exact Or.inl ⟨h.alive, rfl⟩
    · refine Or.inr ?_
      simp [rebootFailsafe, hreb, h.alive, h.watchdog, closeWatchdog]

theorem armed_enterLoop {b₀ : Broker} {clock : Nat → Timespec} (signal : Bool) :
    Armed b₀.config (enterLoop b₀ clock true signal).trace (enterLoop b₀ clock true signal) := by
  refine ⟨?_, ?_, ?_, [], (List.append_nil _).symm, fun e he => (nomatch he)⟩
  · cases signal <;> rfl
  · cases signal <;> rfl
  · cases signal <;> rfl

/-- Start-up and the loop never disarm the device. -/
theorem Armed.not_disarmed {config : Config} {b₀ : Broker} {clock : Nat → Timespec} {signal : Bool}
    (h : Armed config (enterLoop b₀ clock true signal).trace s) :
    Event.magicClose ∉ s.trace ∧ Event.disableCard ∉ s.trace := by
  obtain ⟨ops, htrace, hops⟩ := h.trace
  have hstart : (enterLoop b₀ clock true signal).trace
      = [.openDevice, .setTimeout b₀.config.wdTimeoutS, .getBootStatus] := by
    cases signal <;> rfl
  rw [htrace, hstart]
  constructor
  · intro hmem
    rcases List.mem_append.mp hmem with h1 | h1
    · simp at h1
    · rcases hops _ h1 with h2 | h2 <;> cases h2
  · intro hmem
    rcases List.mem_append.mp hmem with h1 | h1
    · simp at h1
    · rcases hops _ h1 with h2 | h2 <;> cases h2

/-- **THE REBOOT FAILSAFE**: in every run of `main` with the device open in which
    every device and timer operation succeeds, for any order of commands, client
    timeouts and signals,
    * the process ends, its last device operations being `WDIOC_SETTIMEOUT` with
      the reboot timeout, one feed and the close, and has never disarmed the device,
      exactly if a REBOOT from root with nothing but blanks behind it was processed;
    * behind that REBOOT no command is processed;
    * a run that ends without one ends by disarming and closing the device, and has
      set no timeout since start-up. -/
theorem reboot_failsafe {file : Option (List Byte)} {clock : Nat → Timespec} {raws : Nat → Raw}
    {b₀ : Broker} (hboot : boot file clock raws = .ok b₀) (signal : Bool) {its : List Iteration}
    {td : Teardown} (hworks : ∀ it ∈ its, it.timerRead = true ∧ it.feedOk = true)
    (htd : td.feedOk = true) :
    let s := enterLoop b₀ clock true signal
    let final := mainFrom s its td
    ((final.exited = true ∧
        (∃ done, final.trace
          = done ++ [.setTimeout b₀.config.rebootTimeoutS, .feed, .closeDevice]) ∧
        Event.magicClose ∉ final.trace ∧ Event.disableCard ∉ final.trace) ↔
      ∃ r ∈ processed s its, Reboots r) ∧
    (∀ done r later, processed s its = done ++ r :: later → Reboots r → later = []) ∧
    (final.exited = true → (∀ r ∈ processed s its, ¬ Reboots r) →
      ∃ ops, final.trace = s.trace ++ ops ++ [.magicClose, .disableCard, .closeDevice] ∧
        ∀ t, Event.setTimeout t ∉ ops) := by
  intro s final
  have harmed : Armed b₀.config s.trace (mainLoop s its) :=
    armed_mainLoop its (armed_enterLoop signal) hworks
  have hstart : s.broker.reboot = false := by
    obtain ⟨text, -, -, -, hreb⟩ := boot_ok hboot
    cases signal <;> exact hreb
  obtain ⟨hmagic, hcard⟩ := harmed.not_disarmed
  refine ⟨?_, fun done r later => processed_after_reboot its, ?_⟩
  · rcases mainLoop_reboot its hstart with ⟨hset, hstopped, hroot⟩ | ⟨hclear, hnone⟩
    · refine iff_of_true ?_ hroot
      obtain ⟨hended, htrace⟩ := shutdown_reboots harmed hset hstopped htd
      have htrace' : final.trace = _ := htrace
      refine ⟨hended, ⟨_, htrace'⟩, ?_, ?_⟩
      · rw [htrace']
        simpa using hmagic
      · rw [htrace']
        simpa using hcard
    · refine iff_of_false ?_ fun ⟨r, hr, hroot⟩ => hnone r hr hroot
      rintro ⟨hended, -, hno, -⟩
      rcases @shutdown_disarms _ td _ _ harmed hclear with ⟨hgoes, -⟩ | ⟨-, htrace⟩
      · exact Bool.false_ne_true (hgoes.symm.trans hended)
      · have htrace' : final.trace = _ := htrace
        rw [htrace'] at hno
        exact hno (by simp)
  · intro hended hnone
    rcases mainLoop_reboot its hstart with ⟨-, -, r, hr, hroot⟩ | ⟨hclear, -⟩
    · exact absurd hroot (hnone r hr)
    · rcases @shutdown_disarms _ td _ _ harmed hclear with ⟨hgoes, -⟩ | ⟨-, htrace⟩
      · exact absurd (hgoes.symm.trans hended) Bool.false_ne_true
      · obtain ⟨ops, hops, hfeeds⟩ := harmed.trace
        refine ⟨ops, ?_, fun t ht => ?_⟩
        · rw [show final.trace = _ from htrace, hops]
        · rcases hfeeds _ ht with h1 | h1 <;> cases h1

/-- An iteration that serves root's REBOOT. -/
def rebootTurn : Iteration where
  select := .ready true false
  accept := .connection (rootRequest "REBOOT\n")
  check := fun _ => Timespec.zero
  timerRead := true
  feedOk := true
  signal := false

theorem reboots_root : Reboots (rootRequest "REBOOT\n") :=
  ⟨⟨1, 0⟩, bytes "\n", rfl, rfl, by decide, fun b hb => List.mem_singleton.mp hb ▸ rfl⟩

theorem reboot_failsafe_root :
    let final := mainFrom (enterLoop ⟨Table.zero, Parse.init.config, true, false⟩
      (fun _ => Timespec.zero) true false) [rebootTurn] ⟨false, true⟩
    final.exited = true ∧
      ∃ done, final.trace = done ++ [.setTimeout 60, .feed, .closeDevice] := by
  have hworks : ∀ it ∈ [rebootTurn], it.timerRead = true ∧ it.feedOk = true := by
    intro it hit
    rw [List.mem_singleton.mp hit]
    exact ⟨rfl, rfl⟩
  have hends := ((@reboot_failsafe _ _ _ _ boot_empty false [rebootTurn] ⟨false, true⟩ hworks
    rfl).1.mpr ⟨_, List.mem_cons_self, reboots_root⟩)
  exact ⟨hends.1, hends.2.1⟩

end WdReboot
