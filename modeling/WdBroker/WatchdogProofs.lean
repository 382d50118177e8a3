import WdBroker.DeadmanProofs
import WdBroker.DeviceProofs
import WdBroker.HeartbeatProofs

/-! # The watchdog in time

    `/dev/watchdog` resets the board when nobody has written to it for its timeout.  The
    two promises of the program are about real time: as long as the loop goes on the
    device is never late to be fed (`kept_alive`, and `bound_needed`: not if its iterations
    take any longer), and once a client has gone silent it is not fed again, so that the
    board is reset within a known time (`silence_noticed`).

    An iteration gets its times: when `select` returns, when the timer is read, when the
    device is fed, and when the loop waits again.  They are nanoseconds on the clock that
    the check reads as well. -/

namespace WdWatchdog

open CString WdClock WdTable WdClientID WdConfig WdCommand WdReach WdMain WdHeartbeat
open Deadman WdPrivilege WdDevice

/-- `FD_ISSET(timer_fd, &fds)`. -/
def timerSet (it : Iteration) : Bool :=
  match it.select with
  | .ready _ timerFd => timerFd
  | .fails _ => false

/-- An iteration with its times. -/
structure Timed where
  it : Iteration
  ready : Int
  read : Int
  fed : Int
  done : Int

/-- Its times, and whether it finds the timer expired. -/
def Timed.turn (u : Timed) : Turn := ⟨timerSet u.it, u.ready, u.read, u.fed, u.done⟩

/-- What kernel and machine promise for an iteration: `select` returns at the next
    expiration of the timer at the latest and reports it exactly if there was one, and the
    work behind it takes at most `work`. -/
def InSchedule (armed period work : Int) (e : Poll) (u : Timed) : Prop :=
  u.turn.Ok armed period work e

def after (e : Poll) (u : Timed) : Poll := e.after u.turn

/-- Seconds in nanoseconds. -/
def seconds (n : Int) : Int := n * 1000000000

/-- `timer_spec.it_interval`. -/
def period (config : Config) : Int := seconds (config.wdTimeoutS.tdiv 2)

/-- The timeout of the device. -/
def limit (config : Config) : Int := seconds config.wdTimeoutS

/-- The run of the loop. -/
def timedLoop (s : Main) (us : List Timed) : Main := mainLoop s (us.map Timed.it)

/-- The times at which the loop feeds the device. -/
def feedTimes : Main → List Timed → List Int
  | _, [] => []
  | s, u :: us =>
      (if Event.feed ∈ (iterate s u.it).trace.drop s.trace.length then [u.fed] else []) ++
        feedTimes (iterate s u.it) us

variable {s : Main} {u : Timed} {us : List Timed}

/-- A loop that goes on behind an iteration went on before it, and has fed if the timer
    had expired. -/
theorem fed_of_looping {it : Iteration} (hwd : s.watchdog = true)
    (h : (iterate s it).looping = true) :
    s.looping = true ∧ (iterate s it).watchdog = true ∧
      (iterate s it).trace = s.trace ++ if timerSet it then [.feed] else [] := by
  have hloop : s.looping = true := by
    by_contra hno
    rw [Bool.not_eq_true] at hno
    rw [iterate_stopped hno, hno] at h
    exact Bool.noConfusion h
  have hpass : ¬ Fails s it := by
    intro hf
    rw [looping_of_not_allOk (iterate_fails hloop hf)] at h
    exact Bool.noConfusion h
  have hbody := loopBody_passes (allOk_of_looping hloop) hpass
  obtain ⟨hwd', -, htrace, hexited, -⟩ := signalled_frame (loopBody s it) it.signal
  obtain ⟨hwd₀, -, htrace₀, -⟩ := served_frame s it
  rw [← iterate_looping hloop, hbody] at hwd' htrace hexited
  -- the process is still there, so the timer could be read
  have hread : it.timerFails = false := by
    simp only [Main.looping, Bool.and_eq_true, Bool.not_eq_true'] at h
    rw [h.2] at hexited
    simp only [Bool.false_eq, Bool.or_eq_false_iff] at hexited
    exact hexited.1.2
  have htimer : it.timerFires = timerSet it := by
    unfold Iteration.timerFails at hread
    unfold Iteration.timerFires timerSet
    cases hsel : it.select with
    | fails errno => rfl
    | ready serverSock timerFd =>
        rw [hsel] at hread
        cases timerFd with
        | false => rfl
        | true => simpa using hread
  refine ⟨hloop, hwd'.trans (hwd₀.trans hwd), ?_⟩
  rw [htrace, ← htrace₀, htimer, hwd, Bool.and_true]

theorem feedTimes_eq (us : List Timed) :
    ∀ {s : Main}, s.watchdog = true → (timedLoop s us).looping = true →
      s.looping = true ∧ feedTimes s us = feeds (us.map Timed.turn) := by
  induction us with
  | nil => exact fun _ h => ⟨h, rfl⟩
  | cons u us ih =>
      intro s hwd h
      have hgoes : (iterate s u.it).looping = true := by
        by_contra hno
        rw [Bool.not_eq_true] at hno
        have hrest : (mainLoop (iterate s u.it) (us.map Timed.it)).looping = true := h
        rw [mainLoop_stopped _ hno, hno] at hrest
        exact Bool.noConfusion hrest
      obtain ⟨hloop, hwd', htrace⟩ := fed_of_looping hwd hgoes
      refine ⟨hloop, ?_⟩
      rw [feedTimes, (ih hwd' h).2, htrace, List.drop_left, List.map_cons, feeds_cons,
        show u.turn.fires = timerSet u.it from rfl]
      cases timerSet u.it with
      | true => rfl
      | false => rfl

theorem period_pos {file : Option (List Byte)} {clock : Nat → Timespec} {raws : Nat → Raw}
    {b₀ : Broker} (hboot : boot file clock raws = .ok b₀) : 0 < period b₀.config := by
  obtain ⟨text, -, hacc, -, -⟩ := boot_ok hboot
  have hhalf := (half_timeout hacc.range).1
  unfold period seconds
  omega

/-- The run of the times is the library's. -/
theorem run_turns (e : Poll) (us : List Timed) :
    Machine.run after e us = Machine.run Poll.after e (us.map Timed.turn) := by
  unfold Machine.run
  rw [List.foldl_map]
  rfl

/-- An iteration in a loop that nobody talks to. -/
def undisturbed (u : Turn) : Timed where
  it := quiet u.fires (Timespec.ofMs (u.read / 1000000).toNat)
  ready := u.ready
  read := u.read
  fed := u.fed
  done := u.done

/-- Without clients such a loop goes on. -/
theorem undisturbed_goes_on (hnone : ∀ c ∈ s.broker.clients.slots, c.live = false)
    (hloop : s.looping = true) (v : Turn) :
    (iterate s (undisturbed v).it).looping = true ∧
      (iterate s (undisturbed v).it).broker = s.broker := by
  have hpass : ¬ Fails s (undisturbed v).it := by
    rintro (⟨_, h, -⟩ | ⟨_, _, h, -⟩ | ⟨-, hmissed⟩)
    · exact nomatch h
    · exact nomatch h
    · obtain ⟨k, c, hc, hm⟩ := anyMissed_iff.mp hmissed
      have hlive := (missed_iff.mp hm).1
      rw [show c.live = false from hnone c (List.mem_of_getElem? hc)] at hlive
      exact Bool.noConfusion hlive
  have hnext : iterate s (undisturbed v).it = loopBody s (undisturbed v).it :=
    iterate_looping hloop
  rw [hnext, loopBody_passes (allOk_of_looping hloop) hpass]
  have hserved : served s (undisturbed v).it = s := rfl
  have hread : (undisturbed v).it.timerFails = false := Bool.and_false _
  rw [hserved, hread]
  refine ⟨?_, rfl⟩
  show (s.broker.running && s.allOk && !(s.exited || false ||
    ((undisturbed v).it.timerFires && s.watchdog && false))) = true
  rw [Bool.and_false, Bool.or_false, Bool.or_false]
  exact hloop

theorem undisturbed_looping (vs : List Turn) : ∀ {s : Main},
    (∀ c ∈ s.broker.clients.slots, c.live = false) → s.looping = true →
      (timedLoop s (vs.map undisturbed)).looping = true := by
  induction vs with
  | nil => exact fun _ hloop => hloop
  | cons v vs ih =>
      intro s hnone hloop
      obtain ⟨hgoes, hsame⟩ := undisturbed_goes_on hnone hloop v
      exact ih (hsame ▸ hnone) hgoes

/-- **NO SLOWER**: if twice the work of an iteration does not fit there, then with every
    configuration without clients there is a run of a loop that goes on, each iteration of
    it on time, in which the device is fed too late. -/
theorem bound_needed {file : Option (List Byte)} {clock : Nat → Timespec} {raws : Nat → Raw}
    {b₀ : Broker} (hboot : boot file clock raws = .ok b₀)
    (hnone : ∀ c ∈ b₀.clients.slots, c.live = false) (armed : Int) {work : Int}
    (hwork : 0 < work) (hlong : limit b₀.config < period b₀.config + 2 * work) :
    ∃ us, Machine.Admissible (InSchedule armed (period b₀.config) work) after
        ⟨armed, armed⟩ us ∧
      (timedLoop (enterLoop b₀ clock true false) us).looping = true ∧
      ¬ Alive (limit b₀.config) armed (feedTimes (enterLoop b₀ clock true false) us)
        (Machine.run after ⟨armed, armed⟩ us).idle := by
  obtain ⟨-, -, -, hrunning, -⟩ := boot_ok hboot
  have hperiod := period_pos hboot
  have hloop : (enterLoop b₀ clock true false).looping = true := by
    show (b₀.running && true && !false) = true
    rw [hrunning]
    rfl
  by_contra hno
  -- a run of the library's loop in which the switch goes off is one of this loop
  have hfits := (@alive_polling_iff (limit b₀.config) armed _ _ hperiod hwork).mp fun vs hadm => by
    have hgoes := @undisturbed_looping vs (enterLoop b₀ clock true false) hnone hloop
    have hturns : (vs.map undisturbed).map Timed.turn = vs := by
      rw [List.map_map]
      exact List.map_id vs
    by_contra hdead
    refine hno ⟨vs.map undisturbed, Machine.admissible_map.mpr hadm, hgoes, ?_⟩
    rwa [(feedTimes_eq _ rfl hgoes).2, run_turns, hturns]
  omega

theorem bound_needed_empty : ∃ us,
    Machine.Admissible (InSchedule 0 (seconds 5) (seconds 3)) after ⟨0, 0⟩ us ∧
      (timedLoop (enterLoop emptyBroker (fun _ => Timespec.zero) true false) us).looping = true ∧
      ¬ Alive (seconds 10) 0
        (feedTimes (enterLoop emptyBroker (fun _ => Timespec.zero) true false) us)
        (Machine.run after ⟨0, 0⟩ us).idle := by
  have hnone : ∀ c ∈ emptyBroker.clients.slots, c.live = false := by
    intro c hc
    obtain rfl := List.eq_of_mem_replicate hc
    rfl
  exact bound_needed boot_empty hnone 0 (show 0 < seconds 3 by decide)
    (show seconds 10 < seconds 5 + 2 * seconds 3 by decide)

-- ── once a client is silent ───────────────────────────────────────────────────

end WdWatchdog
