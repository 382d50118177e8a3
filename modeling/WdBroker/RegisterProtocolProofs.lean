import WdBroker.SessionProofs

/-! # REGISTER between the client library and the broker

    `wd_client_register` checks its arguments and the protocol version, connects,
    sends one packet and waits 500 ms for the answer.  The connection and the
    packet wait in the kernel until the broker accepts; a packet that has been
    sent stays readable after the sender has closed.  One call is followed here
    against the broker and everybody else's commands, in any order.

    The two sides agree when a slot that the call has filled belongs to a caller
    that got its clientID.  `agrees_iff` says which orders of steps keep that:
    what breaks it is a caller that stops waiting although its request has been,
    or is later, accepted. -/

namespace WdRegister

open CString Scanf WdClock WdTable WdClientID WdConfig WdCommand WdReach WdSession

def wdClientOk : Int := 0
def wdClientErr : Int := -1
def wdClientEparam : Int := -2
def wdClientEtimeout : Int := -3
def wdClientEversion : Int := -4

-- ── the client ────────────────────────────────────────────────────────────────

/-- The arguments of a call, and whose call it is. -/
structure Call where
  name : CStr wdClientNameLen
  timeoutMs : Nat
  ignorePid : Bool
  creds : Ucred

/-- The checks on the arguments. -/
def Call.paramsOk (call : Call) : Bool :=
  !call.name.chars.isEmpty &&
    !(decide (call.timeoutMs < wdClientTimeoutMinMs) ||
      decide (call.timeoutMs > wdClientTimeoutMaxMs))

/-- `cmd[128]`: `"REGISTER %s %u%s\n"`. -/
def Call.cmd (call : Call) : List Byte :=
  (cmdRegister ++ (call.name.chars ++ bytes " " ++ decimal call.timeoutMs ++
    (if call.ignorePid then bytes " ignorepid" else []) ++ bytes "\n")).take 127

/-- The end of the call: the returned code and `client->clientID`, from what the
    read on the socket does. -/
def readResponse (clientID : CStr wdClientIDLen) (incoming : Incoming) :
    Int × CStr wdClientIDLen :=
  let (len, response) := readWithTimeout 128 incoming
  if len < 0 then (wdClientErr, clientID)
  else if len = 0 then (wdClientEtimeout, clientID)
  else if strncmpEq (cstr response) (bytes "OK ") 3 then
    (wdClientOk, CStr.strncpy wdClientIDLen ((cstr response).drop 3))
  else (wdClientErr, clientID)

/-- How far the call has come. -/
inductive Phase where
  | checking
  | connected
  | waiting
  | returned (code : Int)
deriving DecidableEq

/-- What comes before the REGISTER connection: the version check on a connection
    of its own, then `connect`. -/
inductive Setup where
  | connects
  | brokerFails
  | incompatible
  | badPath
deriving DecidableEq

/-- How a wait ends without anything to read. -/
inductive Abandon where
  | timeout
  | selectFails
  | readFails
deriving DecidableEq

def Abandon.incoming : Abandon → Incoming
  | .timeout => .silent
  | .selectFails => .selectFails
  | .readFails => .readFails

-- ── the two parties ───────────────────────────────────────────────────────────

/-- Broker and client, and what is between them: whether the connection waits to
    be accepted, whether the packet has been sent, and an answer that has not been
    read.  `activated` is ghost: the slot that the request has filled, with the ID
    it was given. -/
structure World where
  broker : Broker
  phase : Phase
  clientID : CStr wdClientIDLen
  backlog : Bool
  sent : Bool
  reply : Option (List Byte)
  activated : Option (Nat × CStr wdClientIDLen)

/-- Before the call. -/
def World.start (b : Broker) : World :=
  ⟨b, .checking, CStr.empty wdClientIDLen, false, false, none, none⟩

/-- What can happen next. -/
inductive Step where
  | other (r : Request)
  | prepare (setup : Setup)
  | send (ok : Bool)
  | serve (now : Timespec) (raw : Raw) (readOk replied : Bool)
  | abandon (how : Abandon)
  | receive

/-- The connection as the broker sees it: nothing comes before the client has
    sent. -/
def Call.request (call : Call) (sent readOk : Bool) (now : Timespec) (raw : Raw) : Request where
  creds := some call.creds
  incoming := if !sent then .silent else if readOk then .packet call.cmd else .readFails
  now := now
  raw := raw

/-- The slot that a command has filled. -/
def filled (o : Outcome) : Option (Nat × CStr wdClientIDLen) :=
  match o.event with
  | some (.register i _ _) => some (i, (deref o.broker.clients i).clientID)
  | _ => none

/-- Arguments, version check and `connect`. -/
def prepare (call : Call) (w : World) (setup : Setup) : World :=
  if !call.paramsOk then { w with phase := .returned wdClientEparam }
  else
    match setup with
    | .connects => { w with phase := .connected, backlog := true }
    | .brokerFails => { w with phase := .returned wdClientErr }
    | .incompatible => { w with phase := .returned wdClientEversion }
    | .badPath => { w with phase := .returned wdClientEparam }

/-- The broker accepts the connection and handles what it reads; the answer may
    fail to be written. -/
def serve (call : Call) (w : World) (now : Timespec) (raw : Raw) (readOk replied : Bool) : World :=
  let o := handleCommand w.broker (call.request w.sent readOk now raw)
  { w with
    broker := o.broker
    backlog := false
    reply := if replied then o.replies.head?.map Reply.bytes else none
    activated := filled o }

/-- The call returns with what the read did. -/
def finish (w : World) (incoming : Incoming) : World :=
  { w with
    phase := .returned (readResponse w.clientID incoming).1
    clientID := (readResponse w.clientID incoming).2 }

/-- One step; where it is not possible nothing happens.  `write` fails on a
    connection that the broker has closed, and `read` then returns 0 once there is
    nothing left to read. -/
def step (call : Call) (w : World) : Step → World
  | .other r => { w with broker := command w.broker r }
  | .prepare setup => if w.phase = .checking then prepare call w setup else w
  | .send ok =>
      if w.phase = .connected then
        if ok && w.backlog then { w with phase := .waiting, sent := true }
        else { w with phase := .returned wdClientErr }
      else w
  | .serve now raw readOk replied => if w.backlog then serve call w now raw readOk replied else w
  | .abandon how => if w.phase = .waiting then finish w how.incoming else w
  | .receive =>
      if w.phase = .waiting then
        match w.reply with
        | some data => finish w (.packet data)
        | none => if w.backlog then w else finish w (.packet [])
      else w

/-- A slot that the call has filled belongs to a caller that received its ID: a
    call that returned anything else has filled none. -/
def Agrees (w : World) : Prop :=
  ∀ i id, w.activated = some (i, id) → ∀ code, w.phase = .returned code →
    code = wdClientOk ∧ w.clientID = id

/-- The broker's own checks let the request have a slot. -/
def Accepts (b : Broker) (r : Request) : Prop :=
  ∃ creds args i, Registers r creds args ∧
    getClientInstanceByName b.config b.clients.slots args.name = some i

/-- The step does not part the two sides: the client stops waiting without an
    answer only if its request has not been accepted, and when the broker comes to
    the request of a client that has stopped waiting, it does not accept it. -/
def StepOk (call : Call) (w : World) : Step → Prop
  | .abandon _ => w.phase = .waiting → w.activated = none
  | .receive => w.phase = .waiting → w.reply = none → w.activated = none
  | .serve now raw readOk _ => ∀ code, w.phase = .returned code → w.backlog = true →
      ¬ Accepts w.broker (call.request w.sent readOk now raw)
  | _ => True

-- ── what the broker answers and what the client makes of it ───────────────────

/-- A filled slot means an accepted request, whose ID is in the answer. -/
theorem filled_some {b : Broker} {r : Request} {i : Nat} {id : CStr wdClientIDLen}
    (hwf : WellFormed b) (h : filled (handleCommand b r) = some (i, id)) :
    Accepts b r ∧ (handleCommand b r).replies = [.text (okID id)] ∧ IsClientID id := by
  have hh := handled b r
  generalize handleCommand b r = o at hh h ⊢
  cases hh with
  | kept _ _ hevent =>
      unfold filled at h
      rw [hevent] at h
      exact nomatch h
  | registered creds args j c hreq hget hslot =>
      have hnew : (b.clients.update j (registerSlot args creds.pid r.now r.raw)).slots[j]?
          = some (registerSlot args creds.pid r.now r.raw c) := by
        rw [Table.update_self, hslot]; rfl
      have hid : (registerSlot args creds.pid r.now r.raw c).clientID = id := by
        rw [← deref_of_getElem? hnew]
        exact congrArg Prod.snd (Option.some.inj h)
      have hok := slotOk_registerSlot hreq (hwf.slots c (List.mem_of_getElem? hslot))
      refine ⟨⟨creds, args, j, hreq, hget⟩, ?_, hid ▸ hok.clientID rfl⟩
      rw [hid]
  | pinged => exact nomatch h
  | unregistered => exact nomatch h

/-- An accepted request fills a slot. -/
theorem filled_of_accepts {b : Broker} {r : Request} (h : Accepts b r) :
    ∃ i id, filled (handleCommand b r) = some (i, id) := by
  obtain ⟨creds, args, i, ⟨s, hc, hb, hparse⟩, hget⟩ := h
  rw [handleCommand_register hc hb, handleRegister, hparse]
  dsimp only
  rw [hget]
  exact ⟨i, _, rfl⟩

/-- The answer to an accepted request is understood. -/
theorem readResponse_okID {id : CStr wdClientIDLen} (old : CStr wdClientIDLen)
    (hid : IsClientID id) : readResponse old (.packet (okID id)) = (wdClientOk, id) := by
  have hlen : (okID id).length = 20 := by
    have := hid.1
    simp [okID, bytes, this, wdClientIDFmtLen]
  have hnul : (0 : Byte) ∉ okID id := by
    intro h0
    rcases List.mem_append.mp h0 with h | h
    · rcases List.mem_append.mp h with h | h
      · exact absurd h (by decide)
      · exact id.noNul h
    · exact absurd h (by decide)
  have hread : readWithTimeout 128 (.packet (okID id)) = (20, okID id) := by
    have htake : (okID id).take (128 - 1) = okID id := List.take_of_length_le (by omega)
    unfold readWithTimeout
    dsimp only
    rw [htake, hlen]
    rfl
  have hok : strncmpEq (okID id) (bytes "OK ") 3 = true :=
    (strncmpEq_length_iff _ (bytes "OK ")).mpr ⟨id.chars ++ bytes "\n", by simp [okID]⟩
  have hdrop : (okID id).drop 3 = id.chars ++ bytes "\n" := by
    rw [okID, List.append_assoc]
    exact List.drop_left' rfl
  have hcopy : CStr.strncpy wdClientIDLen (id.chars ++ bytes "\n") = id := by
    refine CStr.ext ?_
    show (cstr (id.chars ++ bytes "\n")).take 16 = id.chars
    have hnul' : (0 : Byte) ∉ id.chars ++ bytes "\n" := by
      rw [← hdrop]
      exact fun h0 => hnul (List.mem_of_mem_drop h0)
    rw [cstr_eq_self hnul']
    exact List.take_left' hid.1
  unfold readResponse
  rw [hread]
  dsimp only
  rw [cstr_eq_self hnul, hok, hdrop, hcopy]
  rfl

/-- A wait that ends without anything to read is no success. -/
theorem readResponse_abandon (old : CStr wdClientIDLen) (how : Abandon) :
    (readResponse old how.incoming).1 ≠ wdClientOk := by
  cases how with
  | timeout => exact (by decide : wdClientEtimeout ≠ wdClientOk)
  | selectFails => exact (by decide : wdClientErr ≠ wdClientOk)
  | readFails => exact (by decide : wdClientErr ≠ wdClientOk)

-- ── the invariant of the exchange ─────────────────────────────────────────────

/-- What holds of the exchange whether the two sides agree or not. -/
structure Exchange (w : World) : Prop where
  wellFormed : WellFormed w.broker
  fresh : w.phase = .checking → w.backlog = false ∧ w.reply = none
  unserved : w.backlog = true → w.activated = none ∧ w.reply = none
  unsent : w.phase = .checking ∨ w.phase = .connected → w.sent = false
  idle : w.sent = false → w.activated = none
  answer : ∀ data i id, w.reply = some data → w.activated = some (i, id) →
    data = okID id ∧ IsClientID id
  success : w.phase = .returned wdClientOk → w.backlog = false

theorem exchange_start {b : Broker} (h : WellFormed b) : Exchange (World.start b) :=
  ⟨h, fun _ => ⟨rfl, rfl⟩, fun _ => ⟨rfl, rfl⟩, fun _ => rfl, fun _ => rfl,
    fun _ _ _ h => (nomatch h), fun _ => rfl⟩

/-- A request that has not been sent is not accepted. -/
theorem not_accepts_unsent {b : Broker} {call : Call} {readOk : Bool} {now : Timespec}
    {raw : Raw} : ¬ Accepts b (call.request false readOk now raw) := by
  rintro ⟨creds, args, i, ⟨s, -, hb, -⟩, -⟩
  exact nomatch hb

/-- A call that returns keeps the exchange as it is. -/
theorem Exchange.returns {w : World} (h : Exchange w) (code : Int) (clientID : CStr wdClientIDLen)
    (hcode : code = wdClientOk → w.backlog = false) :
    Exchange { w with phase := .returned code, clientID := clientID } :=
  ⟨h.wellFormed, fun hp => (nomatch hp), h.unserved, fun hp => (nomatch hp), h.idle, h.answer,
    fun hp => hcode (Phase.returned.inj hp)⟩

theorem exchange_prepare {call : Call} {w : World} (setup : Setup) (h : Exchange w)
    (hphase : w.phase = .checking) : Exchange (prepare call w setup) := by
  have hsent := h.unsent (Or.inl hphase)
  unfold prepare
  split
  · exact h.returns _ _ fun hc => absurd hc (by decide)
  · cases setup with
    | connects =>
        exact ⟨h.wellFormed, fun hp => (nomatch hp), fun _ => ⟨h.idle hsent, (h.fresh hphase).2⟩,
          fun _ => hsent, h.idle, h.answer, fun hp => (nomatch hp)⟩
    | brokerFails => exact h.returns _ _ fun hc => absurd hc (by decide)
    | incompatible => exact h.returns _ _ fun hc => absurd hc (by decide)
    | badPath => exact h.returns _ _ fun hc => absurd hc (by decide)

theorem exchange_serve {call : Call} {w : World} (now : Timespec) (raw : Raw)
    (readOk replied : Bool) (h : Exchange w) (hbacklog : w.backlog = true) :
    Exchange (serve call w now raw readOk replied) := by
  refine ⟨wellFormed_command _ _ h.wellFormed, fun hp => ?_, fun hb => Bool.noConfusion hb,
    h.unsent, fun hsent => ?_, ?_, fun _ => rfl⟩
  · rw [(h.fresh hp).1] at hbacklog
    exact Bool.noConfusion hbacklog
  · show filled (handleCommand w.broker (call.request w.sent readOk now raw)) = none
    cases hfill : filled (handleCommand w.broker (call.request w.sent readOk now raw)) with
    | none => rfl
    | some p =>
        have hacc := (filled_some h.wellFormed hfill).1
        rw [show w.sent = false from hsent] at hacc
        exact absurd hacc not_accepts_unsent
  · intro data i id hreply hact
    obtain ⟨-, hok, hid⟩ := filled_some h.wellFormed hact
    have hdata : (if replied then (handleCommand w.broker
        (call.request w.sent readOk now raw)).replies.head?.map Reply.bytes else none)
        = some data := hreply
    rw [hok] at hdata
    cases replied with
    | true => exact ⟨(Option.some.inj hdata).symm, hid⟩
    | false => exact nomatch hdata

/-- Every step keeps the exchange in order. -/
theorem exchange_step {call : Call} (w : World) (st : Step) (h : Exchange w) :
    Exchange (step call w st) := by
  unfold step
  cases st with
  | other r => exact { h with wellFormed := wellFormed_command w.broker r h.wellFormed }
  | prepare setup =>
      dsimp only
      split
      · next hphase => exact exchange_prepare setup h hphase
      · exact h
  | send ok =>
      dsimp only
      split
      · next hphase =>
          split
          · next hok =>
              rw [Bool.and_eq_true] at hok
              refine ⟨h.wellFormed, fun hp => (nomatch hp), h.unserved, ?_, fun hs => (nomatch hs),
                h.answer, fun hp => (nomatch hp)⟩
              rintro (hp | hp) <;> exact nomatch hp
          · exact h.returns _ _ fun hc => absurd hc (by decide)
      · exact h
  | serve now raw readOk replied =>
      dsimp only
      split
      · next hbacklog => exact exchange_serve now raw readOk replied h hbacklog
      · exact h
  | abandon how =>
      dsimp only
      split
      · exact h.returns _ _ fun hc => absurd hc (readResponse_abandon _ how)
      · exact h
  | receive =>
      dsimp only
      split
      · cases hreply : w.reply with
        | some data =>
            refine h.returns _ _ fun _ => ?_
            cases hb : w.backlog with
            | false => rfl
            | true =>
                rw [(h.unserved hb).2] at hreply
                exact nomatch hreply
        | none =>
            dsimp only
            split
            · exact h
            · next hb => exact h.returns _ _ fun _ => by simpa using hb
      · exact h

-- ── agreement ─────────────────────────────────────────────────────────────────

/-- Without a filled slot there is nothing to agree on. -/
theorem agrees_of_none {w : World} (h : w.activated = none) : Agrees w := by
  intro i id hact
  rw [h] at hact
  exact nomatch hact

/-- A call that returns an error agrees exactly if it has filled no slot. -/
theorem agrees_error_iff {w : World} {code : Int} (hphase : w.phase = .returned code)
    (hcode : code ≠ wdClientOk) : Agrees w ↔ w.activated = none := by
  refine ⟨fun h => ?_, agrees_of_none⟩
  cases hact : w.activated with
  | none => rfl
  | some p => exact absurd (h p.1 p.2 hact code hphase).1 hcode

/-- The broker's step. -/
theorem agrees_serve_iff {call : Call} {w : World} {now : Timespec} {raw : Raw}
    {readOk replied : Bool} (h : Exchange w) (hbacklog : w.backlog = true) :
    Agrees (serve call w now raw readOk replied) ↔
      ∀ code, w.phase = .returned code → ¬ Accepts w.broker (call.request w.sent readOk now raw) := by
  have hserved : (serve call w now raw readOk replied).activated
      = filled (handleCommand w.broker (call.request w.sent readOk now raw)) := rfl
  constructor
  · intro hagree code hphase hacc
    obtain ⟨i, id, hfill⟩ := filled_of_accepts hacc
    obtain ⟨rfl, -⟩ := hagree i id (hserved.trans hfill) code hphase
    rw [h.success hphase] at hbacklog
    exact Bool.noConfusion hbacklog
  · intro hno i id hact code hphase
    rw [hserved] at hact
    exact absurd (filled_some h.wellFormed hact).1 (hno code hphase)

/-- **ONE STEP**: two sides that agree still do after the step exactly if it meets
    the condition. -/
theorem agrees_step_iff {call : Call} {w : World} (st : Step) (h : Exchange w)
    (hagree : Agrees w) : Agrees (step call w st) ↔ StepOk call w st := by
  unfold step StepOk
  cases st with
  | other r => exact iff_of_true hagree trivial
  | prepare setup =>
      refine iff_of_true ?_ trivial
      dsimp only
      split
      · next hphase =>
          refine agrees_of_none ?_
          have hidle := h.idle (h.unsent (Or.inl hphase))
          unfold prepare
          split
          · exact hidle
          · cases setup <;> exact hidle
      · exact hagree
  | send ok =>
      refine iff_of_true ?_ trivial
      dsimp only
      split
      · next hphase =>
          have hidle := h.idle (h.unsent (Or.inr hphase))
          split <;> exact agrees_of_none hidle
      · exact hagree
  | serve now raw readOk replied =>
      dsimp only
      cases hbacklog : w.backlog with
      | true =>
          rw [if_pos rfl, agrees_serve_iff h hbacklog]
          exact ⟨fun hno code hp _ => hno code hp, fun hno code hp => hno code hp rfl⟩
      | false => exact iff_of_true hagree fun _ _ hb => Bool.noConfusion hb
  | abandon how =>
      dsimp only
      by_cases hphase : w.phase = .waiting
      · rw [if_pos hphase,
          agrees_error_iff (w := finish w how.incoming) rfl (readResponse_abandon _ how)]
        exact ⟨fun hnone _ => hnone, fun hnone => hnone hphase⟩
      · rw [if_neg hphase]
        exact iff_of_true hagree fun hp => absurd hp hphase
  | receive =>
      dsimp only
      by_cases hphase : w.phase = .waiting
      · rw [if_pos hphase]
        cases hreply : w.reply with
        | some data =>
            refine iff_of_true ?_ fun _ hnone => nomatch hnone
            -- the answer to an accepted request carries the ID
            intro i id hact code hcode
            obtain ⟨rfl, hid⟩ := h.answer data i id hreply hact
            obtain rfl := Phase.returned.inj hcode
            show _ = _ ∧ (readResponse w.clientID (.packet (okID id))).2 = id
            rw [readResponse_okID w.clientID hid]
            exact ⟨rfl, rfl⟩
        | none =>
            dsimp only
            split
            · next hb => exact iff_of_true hagree fun _ _ => (h.unserved hb).1
            · rw [agrees_error_iff (w := finish w (.packet [])) rfl
                (by decide : wdClientEtimeout ≠ wdClientOk)]
              exact ⟨fun hnone _ _ => hnone, fun hnone => hnone hphase rfl⟩
      · rw [if_neg hphase]
        exact iff_of_true hagree fun hp => absurd hp hphase

/-- The condition, step by step. -/
theorem agrees_admissible {call : Call} (steps : List Step) :
    ∀ {w : World}, Exchange w → Agrees w →
      ((∀ js ks, steps = js ++ ks → Agrees (Machine.run (step call) w js)) ↔
        Machine.Admissible (StepOk call) (step call) w steps) := by
  induction steps with
  | nil =>
      intro w _ hagree
      refine iff_of_true (fun js ks hsplit => ?_) trivial
      rw [(List.append_eq_nil_iff.mp hsplit.symm).1]
      exact hagree
  | cons st steps ih =>
      intro w h hagree
      have hnext := ih (@exchange_step call w st h)
      constructor
      · intro hall
        have hst : Agrees (step call w st) := hall [st] steps rfl
        refine ⟨(agrees_step_iff st h hagree).mp hst, (hnext hst).mp fun js ks hsplit => ?_⟩
        exact hall (st :: js) ks (by rw [hsplit]; rfl)
      · rintro ⟨hst, hadm⟩ js ks hsplit
        cases js with
        | nil => exact hagree
        | cons st' js =>
            obtain ⟨rfl, hrest⟩ := List.cons.inj hsplit
            exact (hnext ((agrees_step_iff st h hagree).mpr hst)).mpr hadm js ks hrest

/-- **WHEN CLIENT AND BROKER AGREE**: from every reachable broker state, for every
    call and every order of steps, the two sides agree in every state of the run
    exactly if the client stops waiting without an answer only while its request
    has not been accepted, and the broker, when it comes to the request of a client
    that has stopped waiting, finds it unacceptable. -/
theorem agrees_iff {b : Broker} (hb : Reachable b) (call : Call) (steps : List Step) :
    (∀ js ks, steps = js ++ ks → Agrees (Machine.run (step call) (World.start b) js)) ↔
      ∀ js st ks, steps = js ++ st :: ks →
        StepOk call (Machine.run (step call) (World.start b) js) st := by
  rw [agrees_admissible steps (exchange_start (wellFormed_of_reachable hb))
    (agrees_of_none rfl)]
  exact Machine.admissible_iff

/-- A call of process 7: name `a`, five seconds. -/
def exampleCall : Call := ⟨CStr.strncpy wdClientNameLen (bytes "a"), 5000, false, ⟨7, 1000⟩⟩

/-- The client sends, the broker answers, the client reads the answer. -/
def promptBroker : List Step :=
  [.prepare .connects, .send true, .serve Timespec.zero (Vector.replicate 8 0) true true, .receive]

theorem agrees_iff_answered :
    (∀ js ks, promptBroker = js ++ ks → Agrees (Machine.run (step exampleCall)
        (World.start ⟨Table.zero, Parse.init.config, true, false⟩) js)) ↔
      ∀ js st ks, promptBroker = js ++ st :: ks →
        StepOk exampleCall (Machine.run (step exampleCall)
          (World.start ⟨Table.zero, Parse.init.config, true, false⟩) js) st :=
  agrees_iff ⟨_, _, _, _, [], boot_empty, rfl⟩ exampleCall promptBroker

/-- The client sends, gives up after 500 ms, and then the broker accepts. -/
def lateBroker : World :=
  Machine.run (step exampleCall) (World.start ⟨Table.zero, Parse.init.config, true, false⟩)
    [.prepare .connects, .send true, .abandon .timeout,
      .serve Timespec.zero (Vector.replicate 8 0) true true]

/-- **AN ORPHANED SLOT**: the call has returned `WD_CLIENT_ETIMEOUT`, and its
    request has filled slot 0. -/
theorem orphaned_slot :
    Reachable ⟨Table.zero, Parse.init.config, true, false⟩ ∧
      lateBroker.phase = .returned wdClientEtimeout ∧
      lateBroker.activated = some (0, makeClientID (Vector.replicate 8 0)) ∧
      ¬ Agrees lateBroker := by
  have hphase : lateBroker.phase = .returned wdClientEtimeout := by decide +kernel
  have hact : lateBroker.activated = some (0, makeClientID (Vector.replicate 8 0)) := by
    decide +kernel
  refine ⟨⟨_, _, _, _, [], boot_empty, rfl⟩, hphase, hact, fun hagree => ?_⟩
  exact absurd (hagree 0 _ hact _ hphase).1 (by decide)

end WdRegister
