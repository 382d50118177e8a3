import Mathlib.Computability.RegularExpressions
import WdBroker.PrivilegeProofs
import WdBroker.RebootProofs

/-! # What happens to `/dev/watchdog`

    Everything the program does to the device, from the first line of `main` to its last,
    in whatever order commands, failures and signals come: `device_language` is the set of
    all sequences of device operations, as a regular expression. -/

namespace WdDevice

open RegularExpression CString WdClock WdTable WdClientID WdConfig WdCommand WdReach WdMain
  WdReboot Program WdStartUp WdPrivilege

/-- The operations on the device, without the marks. -/
def operations (trace : List Event) : List Event := trace.filter (· != .latch)

/-- Opened, armed with the timeout of the configuration and asked for its boot status; then
    fed, any number of times.  It may end there; or the device is disarmed and closed; or
    it is armed with the reboot timeout, fed once more, and closed if that succeeds. -/
def protocol (config : Config) : RegularExpression Event :=
  char .openDevice * (char (.setTimeout config.wdTimeoutS) * (char .getBootStatus *
    ((char .feed).star *
      (1 + (char .magicClose * (char .disableCard * char .closeDevice) +
        char (.setTimeout config.rebootTimeoutS) * (char .feed * (1 + char .closeDevice)))))))

/-- The ways in which it ends. -/
def endings (config : Config) : List (List Event) :=
  [[], [.magicClose, .disableCard, .closeDevice], [.setTimeout config.rebootTimeoutS, .feed],
    [.setTimeout config.rebootTimeoutS, .feed, .closeDevice]]

theorem mem_char_mul {a : Event} {P : RegularExpression Event} {w : List Event} :
    w ∈ (char a * P).matches' ↔ ∃ v ∈ P.matches', w = a :: v := by
  rw [matches'_mul, matches'_char, Language.mem_mul]
  constructor
  · rintro ⟨u, hu, v, hv, rfl⟩
    rw [Set.mem_singleton_iff.mp hu]
    exact ⟨v, hv, rfl⟩
  · rintro ⟨v, hv, rfl⟩
    exact ⟨[a], rfl, v, hv, rfl⟩

theorem mem_star_char {a : Event} {w : List Event} :
    w ∈ (char a).star.matches' ↔ ∃ n, w = List.replicate n a := by
  rw [matches'_star, matches'_char, Language.mem_kstar]
  constructor
  · rintro ⟨L, rfl, hL⟩
    refine ⟨L.length, ?_⟩
    induction L with
    | nil => rfl
    | cons u L ih =>
        rw [List.flatten_cons, ih fun v hv => hL v (List.mem_cons_of_mem u hv),
          Set.mem_singleton_iff.mp (hL u List.mem_cons_self)]
        rfl
  · rintro ⟨n, rfl⟩
    refine ⟨List.replicate n [a], ?_, fun v hv => List.eq_of_mem_replicate hv⟩
    simp

theorem mem_protocol {config : Config} {w : List Event} :
    w ∈ (protocol config).matches' ↔ ∃ n, ∃ tail ∈ endings config,
      w = .openDevice :: .setTimeout config.wdTimeoutS :: .getBootStatus ::
        (List.replicate n .feed ++ tail) := by
  have htail : ∀ v, v ∈ (1 + (char .magicClose * (char .disableCard * char .closeDevice) +
      char (.setTimeout config.rebootTimeoutS) * (char .feed * (1 + char .closeDevice))) :
        RegularExpression Event).matches' ↔ v ∈ endings config := by
    intro v
    simp only [matches'_add, Language.mem_add, mem_char_mul, matches'_epsilon, Language.mem_one,
      matches'_char, endings, List.mem_cons, List.not_mem_nil, or_false]
    constructor
    · rintro (rfl | ⟨_, ⟨_, rfl, rfl⟩, rfl⟩ | ⟨_, ⟨_, rfl | rfl, rfl⟩, rfl⟩)
      · exact Or.inl rfl
      · exact Or.inr (Or.inl rfl)
      · exact Or.inr (Or.inr (Or.inl rfl))
      · exact Or.inr (Or.inr (Or.inr rfl))
    · rintro (rfl | rfl | rfl | rfl)
      · exact Or.inl rfl
      · exact Or.inr (Or.inl ⟨_, ⟨_, rfl, rfl⟩, rfl⟩)
      · exact Or.inr (Or.inr ⟨_, ⟨_, Or.inl rfl, rfl⟩, rfl⟩)
      · exact Or.inr (Or.inr ⟨_, ⟨_, Or.inr rfl, rfl⟩, rfl⟩)
  unfold protocol
  rw [mem_char_mul]
  simp only [mem_char_mul]
  constructor
  · rintro ⟨_, ⟨_, ⟨_, hv, rfl⟩, rfl⟩, rfl⟩
    rw [matches'_mul, Language.mem_mul] at hv
    obtain ⟨u, hu, v, hv, rfl⟩ := hv
    obtain ⟨n, rfl⟩ := mem_star_char.mp hu
    exact ⟨n, v, (htail v).mp hv, rfl⟩
  · rintro ⟨n, tail, hmem, rfl⟩
    refine ⟨_, ⟨_, ⟨_, ?_, rfl⟩, rfl⟩, rfl⟩
    rw [matches'_mul]
    exact Language.append_mem_mul (mem_star_char.mpr ⟨n, rfl⟩) ((htail tail).mpr hmem)

-- ── every run keeps to the protocol ───────────────────────────────────────────

variable {s : Main} {it : Iteration} {its : List Iteration} {td : Teardown}

theorem operations_append (t t' : List Event) :
    operations (t ++ t') = operations t ++ operations t' := List.filter_append t t'

/-- An iteration feeds or does not. -/
theorem operations_iterate (s : Main) (it : Iteration) :
    ∃ n, operations (iterate s it).trace = operations s.trace ++ List.replicate n .feed := by
  cases hloop : s.looping with
  | false =>
      rw [iterate_stopped hloop]
      exact ⟨0, (List.append_nil _).symm⟩
  | true =>
      by_cases hf : Fails s it
      · obtain ⟨n, htrace, -⟩ := iterate_failing hloop hf
        refine ⟨0, ?_⟩
        rw [htrace, operations_append]
        congr 1
        exact List.filter_eq_nil_iff.mpr fun e he => by
          rw [List.eq_of_mem_replicate he]
          decide
      · have htrace : (iterate s it).trace
            = s.trace ++ if it.timerFires && s.watchdog then [.feed] else [] := by
          rw [iterate_looping hloop, (signalled_frame _ _).2.2.1,
            loopBody_passes (allOk_of_looping hloop) hf, ← (served_frame s it).2.2.1]
        rw [htrace, operations_append]
        split
        · exact ⟨1, rfl⟩
        · exact ⟨0, rfl⟩

theorem operations_mainLoop (its : List Iteration) :
    ∀ (s : Main), ∃ n, operations (mainLoop s its).trace
      = operations s.trace ++ List.replicate n .feed := by
  induction its with
  | nil => exact fun s => ⟨0, (List.append_nil _).symm⟩
  | cons it its ih =>
      intro s
      obtain ⟨n, hn⟩ := operations_iterate s it
      obtain ⟨m, hm⟩ := ih (iterate s it)
      refine ⟨n + m, ?_⟩
      show operations (mainLoop (iterate s it) its).trace = _
      rw [hm, hn, List.append_assoc, ← List.replicate_add]

/-- Configuration and device stay what they are. -/
theorem frame_mainLoop (its : List Iteration) :
    ∀ (s : Main), (mainLoop s its).broker.config = s.broker.config ∧
      (mainLoop s its).watchdog = s.watchdog := by
  induction its with
  | nil => exact fun s => ⟨rfl, rfl⟩
  | cons it its ih =>
      intro s
      have hstep : (iterate s it).broker.config = s.broker.config ∧
          (iterate s it).watchdog = s.watchdog := by
        cases hloop : s.looping with
        | false =>
            rw [iterate_stopped hloop]
            exact ⟨rfl, rfl⟩
        | true =>
            refine ⟨(iterate_served hloop).2.1.trans (served_config s it), ?_⟩
            rw [iterate_looping hloop, (signalled_frame _ _).1]
            by_cases hf : Fails s it
            · obtain ⟨n, hbody⟩ := loopBody_fails hf
              rw [hbody]
              exact (served_frame s it).1
            · rw [loopBody_passes (allOk_of_looping hloop) hf]
              exact (served_frame s it).1
      obtain ⟨hconfig, hwatchdog⟩ := ih (iterate s it)
      exact ⟨hconfig.trans hstep.1, hwatchdog.trans hstep.2⟩

/-- The way out adds one of the endings. -/
theorem shutdown_ending (hwd : s.watchdog = true) (td : Teardown) :
    ∃ tail ∈ endings s.broker.config, (shutdown s td).trace = s.trace ++ tail := by
  obtain ⟨running, hwait, -⟩ := awaitReset_eq s td
  have hnone : ([] : List Event) ∈ endings s.broker.config := List.mem_cons_self
  unfold shutdown
  split
  · exact ⟨[], hnone, (List.append_nil _).symm⟩
  · next hends =>
    rw [Bool.not_eq_true, Bool.or_eq_false_iff] at hends
    rw [hwait]
    dsimp only
    split
    · exact ⟨[], hnone, (List.append_nil _).symm⟩
    · cases hreb : s.broker.reboot with
      | false =>
          refine ⟨[.magicClose, .disableCard, .closeDevice], by simp [endings], ?_⟩
          simp [rebootFailsafe, closeWatchdog, hwd, hends.2]
      | true =>
          cases htd : td.feedOk with
          | false =>
              refine ⟨[.setTimeout s.broker.config.rebootTimeoutS, .feed], by simp [endings], ?_⟩
              simp [rebootFailsafe, hwd, htd]
          | true =>
              refine ⟨[.setTimeout s.broker.config.rebootTimeoutS, .feed, .closeDevice],
                by simp [endings], ?_⟩
              simp [rebootFailsafe, closeWatchdog, hwd, htd]

-- ── and every sequence it allows happens ──────────────────────────────────────

/-- Clock readings at which no slot has missed a heartbeat: those it stored itself. -/
def inTimeClock (b : Broker) (i : Nat) : Timespec := (b.clients.slots[i]?.getD Client.zero).lastPing

theorem anyMissed_inTimeClock (b : Broker) :
    anyMissed (inTimeClock b) b.clients.slots 0 = false := by
  rw [← Bool.not_eq_true, anyMissed_iff]
  rintro ⟨i, c, hc, hmiss⟩
  rw [Nat.zero_add, inTimeClock, hc, Option.getD_some, missed_iff] at hmiss
  have hage : msSince c.lastPing c.lastPing = 0 := by
    simp [msSince, elapsedMs]
  omega

/-- An iteration in which nothing fails: with a command or without, with the timer or
    without, with a signal or without. -/
def calm (b : Broker) (request : Option Request) (timer signal : Bool) : Iteration where
  select := .ready request.isSome timer
  accept := match request with
    | some r => .connection r
    | none => .fails .eagain
  check := inTimeClock b
  timerRead := true
  feedOk := true
  signal := signal

theorem served_calm (request : Option Request) (timer signal : Bool) (b : Broker) :
    (calm b request timer signal).request = request := by
  cases request <;> rfl

/-- It feeds if the timer fired. -/
theorem iterate_calm (hloop : s.looping = true) (hwd : s.watchdog = true)
    (request : Option Request) (timer signal : Bool)
    (hclients : (served s (calm s.broker request timer signal)).broker.clients
      = s.broker.clients) :
    iterate s (calm s.broker request timer signal)
      = ({ served s (calm s.broker request timer signal) with
          exited := false
          trace := s.trace ++ if timer then [.feed] else [] } : Main).signalled signal := by
  have hok := allOk_of_looping hloop
  have hpass : ¬ Fails s (calm s.broker request timer signal) := by
    rintro (⟨errno, hsel, -⟩ | ⟨timerFd, errno, hsel, hacc, hbad⟩ | ⟨-, hmiss⟩)
    · exact nomatch hsel
    · cases request with
      | none =>
          obtain rfl := Accept.fails.inj hacc
          exact Bool.noConfusion hbad
      | some r => exact nomatch hacc
    · rw [hclients] at hmiss
      exact Bool.false_ne_true ((anyMissed_inTimeClock s.broker).symm.trans hmiss)
  have hexit : s.exited = false := by
    simp only [Main.looping, Bool.and_eq_true, Bool.not_eq_true'] at hloop
    exact hloop.2
  obtain ⟨-, -, htrace, hexited⟩ := served_frame s (calm s.broker request timer signal)
  rw [iterate_looping hloop, loopBody_passes hok hpass, hexited, hexit, htrace, hwd]
  simp [Iteration.timerFails, Iteration.timerFires, calm]

/-- Any number of feeds. -/
theorem exists_feeds (n : Nat) :
    ∀ {s : Main}, s.looping = true → s.watchdog = true →
      ∃ its, mainLoop s its
        = { s with exited := false, trace := s.trace ++ List.replicate n .feed } := by
  induction n with
  | zero =>
      intro s hloop _
      have hexit : s.exited = false := by
        simp only [Main.looping, Bool.and_eq_true, Bool.not_eq_true'] at hloop
        exact hloop.2
      refine ⟨[], ?_⟩
      obtain ⟨broker, watchdog, allOk, exited, trace, log⟩ := s
      obtain rfl : exited = false := hexit
      show _ = Main.mk broker watchdog allOk false (trace ++ []) log
      rw [List.append_nil]
      rfl
  | succ n ih =>
      intro s hloop hwd
      have hstep := iterate_calm hloop hwd none true false rfl
      have hloop' :
          Main.looping { s with exited := false, trace := s.trace ++ [.feed] } = true := by
        simp only [Main.looping, Bool.and_eq_true] at hloop ⊢
        exact ⟨hloop.1, rfl⟩
      obtain ⟨its, hits⟩ := ih hloop' hwd
      refine ⟨calm s.broker none true false :: its, ?_⟩
      show mainLoop (iterate s (calm s.broker none true false)) its = _
      rw [hstep]
      refine hits.trans ?_
      rw [List.replicate_succ, List.append_assoc, List.singleton_append]

/-- Each of the endings. -/
theorem exists_ending (hloop : s.looping = true) (hwd : s.watchdog = true)
    (hreb : s.broker.reboot = false) {tail : List Event} (h : tail ∈ endings s.broker.config) :
    ∃ its td, (mainFrom s its td).trace = s.trace ++ tail := by
  have hok := allOk_of_looping hloop
  have hrun : s.broker.running = true := by
    simp only [Main.looping, Bool.and_eq_true] at hloop
    exact hloop.1.1
  -- root's REBOOT
  have hroot := @handleCommand_reboots s.broker _ reboots_root
  have hclients : (served s (calm s.broker (some (rootRequest "REBOOT\n")) false false)).broker
      = { s.broker with running := false, reboot := true } := hroot
  have hreboot := iterate_calm hloop hwd (some (rootRequest "REBOOT\n")) false false
    (by rw [hclients])
  simp only [endings, List.mem_cons, List.not_mem_nil, or_false] at h
  rcases h with rfl | rfl | rfl | rfl
  · refine ⟨[], ⟨false, true⟩, ?_⟩
    show (shutdown s _).trace = _
    rw [shutdown, hloop, List.append_nil]
    rfl
  · refine ⟨[calm s.broker none false true], ⟨false, true⟩, ?_⟩
    show (shutdown (iterate s _) _).trace = _
    rw [iterate_calm hloop hwd none false true rfl]
    simp [shutdown, Main.looping, Main.signalled, served, served_calm, awaitReset, hok,
      rebootFailsafe, closeWatchdog, hreb, hwd]
  · refine ⟨[calm s.broker (some (rootRequest "REBOOT\n")) false false], ⟨false, false⟩, ?_⟩
    show (shutdown (iterate s _) _).trace = _
    rw [hreboot]
    simp only [Main.signalled]
    rw [hclients]
    simp [shutdown, Main.looping, awaitReset, rebootFailsafe, (served_frame s _).1,
      (served_frame s _).2.1, hok, hwd]
  · refine ⟨[calm s.broker (some (rootRequest "REBOOT\n")) false false], ⟨false, true⟩, ?_⟩
    show (shutdown (iterate s _) _).trace = _
    rw [hreboot]
    simp only [Main.signalled]
    rw [hclients]
    simp [shutdown, Main.looping, awaitReset, rebootFailsafe, closeWatchdog, (served_frame s _).1,
      (served_frame s _).2.1, hok, hwd]

/-- **THE DEVICE PROTOCOL**: for every accepted configuration file, the sequences of device
    operations of `main`, from the loop's start to the end of the process, in all runs with
    any commands, failures and signals, are exactly those that the protocol allows. -/
theorem device_language {file : Option (List Byte)} {clock : Nat → Timespec} {raws : Nat → Raw}
    {b₀ : Broker} (hboot : boot file clock raws = .ok b₀) (w : List Event) :
    (∃ signal its td, w = operations (mainFrom (enterLoop b₀ clock true signal) its td).trace) ↔
      w ∈ (protocol b₀.config).matches' := by
  obtain ⟨-, -, -, hrun, hreb⟩ := boot_ok hboot
  rw [mem_protocol]
  constructor
  · rintro ⟨signal, its, td, rfl⟩
    have hstart : operations (enterLoop b₀ clock true signal).trace
        = [.openDevice, .setTimeout b₀.config.wdTimeoutS, .getBootStatus] := by
      cases signal <;> rfl
    have hframe : (enterLoop b₀ clock true signal).broker.config = b₀.config ∧
        (enterLoop b₀ clock true signal).watchdog = true := by
      cases signal <;> exact ⟨rfl, rfl⟩
    obtain ⟨hconfig, hwd⟩ := frame_mainLoop its (enterLoop b₀ clock true signal)
    obtain ⟨n, hn⟩ := operations_mainLoop its (enterLoop b₀ clock true signal)
    obtain ⟨tail, htail, htrace⟩ := shutdown_ending (hwd.trans hframe.2) td
    rw [hconfig, hframe.1] at htail
    have hmarks : operations tail = tail := by
      simp only [endings, List.mem_cons, List.not_mem_nil, or_false] at htail
      rcases htail with rfl | rfl | rfl | rfl <;> rfl
    refine ⟨n, tail, htail, ?_⟩
    rw [mainFrom, htrace, operations_append, hn, hstart, hmarks]
    rfl
  · rintro ⟨n, tail, htail, rfl⟩
    have hloop : (enterLoop b₀ clock true false).looping = true := by
      show (b₀.running && true && !false) = true
      rw [hrun]
      rfl
    obtain ⟨its, hits⟩ := exists_feeds n hloop rfl
    have hlooping : (mainLoop (enterLoop b₀ clock true false) its).looping = true := by
      rw [hits]
      exact hloop
    have hwd : (mainLoop (enterLoop b₀ clock true false) its).watchdog = true := by
      rw [hits]
      rfl
    have hnot : (mainLoop (enterLoop b₀ clock true false) its).broker.reboot = false := by
      rw [hits]
      exact hreb
    have htail' : tail ∈ endings (mainLoop (enterLoop b₀ clock true false) its).broker.config := by
      rw [hits]
      exact htail
    obtain ⟨js, td, htrace⟩ := exists_ending hlooping hwd hnot htail'
    refine ⟨false, its ++ js, td, ?_⟩
    have happend : mainFrom (enterLoop b₀ clock true false) (its ++ js) td
        = mainFrom (mainLoop (enterLoop b₀ clock true false) its) js td := by
      rw [mainFrom, mainFrom, mainLoop, Machine.run_append]
      rfl
    have hmarks : operations tail = tail := by
      simp only [endings, List.mem_cons, List.not_mem_nil, or_false] at htail
      rcases htail with rfl | rfl | rfl | rfl <;> rfl
    have hfeeds : operations (List.replicate n .feed) = List.replicate n .feed :=
      List.filter_eq_self.mpr fun e he => by
        rw [List.eq_of_mem_replicate he]
        rfl
    rw [happend, htrace, hits, operations_append, operations_append, hmarks, hfeeds]
    rfl

/-- Two feeds, root's REBOOT and a clean end are a run of the default configuration. -/
theorem device_language_empty :
    ∃ signal its td, [.openDevice, .setTimeout 10, .getBootStatus, .feed, .feed, .setTimeout 60,
        .feed, .closeDevice]
      = operations (mainFrom (enterLoop emptyBroker (fun _ => Timespec.zero) true signal)
          its td).trace :=
  (device_language boot_empty _).mpr (mem_protocol.mpr
    ⟨2, _, List.mem_cons_of_mem _ (List.mem_cons_of_mem _ (List.mem_cons_of_mem _
      List.mem_cons_self)), rfl⟩)

-- ── what start-up hands over to the loop ──────────────────────────────────────

variable {calls : Calls} {b : Broker} {path : List Byte}

theorem half_timeout {config : Config} (h : InRange config) :
    5 ≤ config.wdTimeoutS.tdiv 2 ∧ 2 * config.wdTimeoutS.tdiv 2 ≤ config.wdTimeoutS := by
  have hmin : (10 : Int) ≤ config.wdTimeoutS := h.1.1
  rw [Int.tdiv_eq_ediv_of_nonneg (by omega)]
  omega

end WdDevice
