import WdBroker.ProgramProofs
import WdBroker.EncodingProofs

/-! # `libwd-client` as a whole

    The functions of the client library from their first line to their return, as
    programs over the calls that they make.  Every function opens a connection for each
    command it sends and has several ways out of it.  `descriptors_closed` says that on all
    of them, whatever the calls answer, a descriptor is used only while it is open, and
    that nothing is open when the function returns. -/

namespace WdLibrary

open CString Scanf WdClock WdTable WdClientID WdCommand WdReach WdRegister WdEncoding Program Prog

-- ── wd_client_t and the calls ─────────────────────────────────────────────────

def wdClientStatusLen : Nat := 256

/-- `sizeof(sun_path)`. -/
def wdClientSockpathLen : Nat := 108

instance : NeZero wdClientStatusLen := ⟨by decide⟩

instance : NeZero wdClientSockpathLen := ⟨by decide⟩

/-- `wd_client_t`. -/
structure WdClient where
  socketPath : CStr wdClientSockpathLen
  name : CStr wdClientNameLen
  clientID : CStr wdClientIDLen
  status : CStr wdClientStatusLen

/-- `WD_SET_STATUS` with a text that is formatted already. -/
def WdClient.setStatus (client : WdClient) (text : List Byte) : WdClient :=
  { client with status := CStr.strncpy wdClientStatusLen text }

inductive Op where
  | socket
  | connect (fd : Nat) (path : List Byte)
  | write (fd : Nat) (data : List Byte)
  | read (fd : Nat)
  | close (fd : Nat)
  | strerror

/-- `read` stands for `read_with_timeout`, less its buffer; where only success matters,
    the answer says whether the call succeeded. -/
@[reducible] def Ans : Op → Type
  | .socket => Option Nat
  | .connect _ _ | .write _ _ => Bool
  | .read _ => Incoming
  | .close _ => Unit
  | .strerror => List Byte

/-- The library never ends the process. -/
abbrev Lib (α : Type) := Prog Op Ans Empty α

abbrev call (op : Op) : Lib (Ans op) := ask op

abbrev Calls := List (Call Op Ans)

-- ── the functions ─────────────────────────────────────────────────────────────

/-- A status with the text of `errno`. -/
def failErrno (client : WdClient) (text : List Byte) : Lib WdClient := do
  let e ← call .strerror
  pure (client.setStatus (text ++ bytes ": " ++ e))

/-- `wd_client_connect`: the descriptor, or the negative code. -/
def wdClientConnect (client : WdClient) : Lib (WdClient × Except Int Nat) :=
  if client.socketPath.chars = [] then
    pure (client.setStatus (bytes "Invalid parameters"), .error wdClientEparam)
  else do
    let fd ← call .socket
    match fd with
    | none => do
        let client ← failErrno client (bytes "Failed to create socket")
        pure (client, .error wdClientErr)
    | some fd => do
        let connected ← call (.connect fd client.socketPath.chars)
        if connected then
          pure (client.setStatus (bytes "Successfully connected via " ++ client.socketPath.chars),
            .ok fd)
        else do
          call (.close fd)
          let client ← failErrno client
            (bytes "Failed to connect to socket " ++ client.socketPath.chars)
          pure (client, .error wdClientErr)

/-- `strstr`: the rest of the string from the first occurrence on. -/
def strstr (needle : List Byte) : List Byte → Option (List Byte)
  | [] => if needle = [] then some [] else none
  | b :: s => if needle.isPrefixOf (b :: s) then some (b :: s) else strstr needle s

/-- What `wd_client_check_prot_version` makes of the answer. -/
def judgeVersion (client : WdClient) (buffer : List Byte) : WdClient × Int :=
  match strstr (bytes "protocol_version=") buffer with
  | none => (client.setStatus (bytes "VERSION response malformed: " ++ buffer), wdClientErr)
  | some found =>
      let ver := found.drop (bytes "protocol_version=").length
      if strncmpEq ver (bytes "1.0") 3 then (client, wdClientOk)
      else
        (client.setStatus (bytes "Incompatible protocol version " ++ ver ++ bytes ", expect 1.0"),
          wdClientEversion)

/-- `wd_client_check_prot_version`. -/
def wdClientCheckProtVersion (client : WdClient) : Lib (WdClient × Int) := do
  let (client, socketFd) ← wdClientConnect client
  match socketFd with
  | .error code => pure (client, code)
  | .ok fd => do
      let sent ← call (.write fd (bytes "VERSION\n"))
      if sent then do
        let incoming ← call (.read fd)
        call (.close fd)
        -- the length, and the buffer
        let got := readWithTimeout 128 incoming
        if got.1 ≤ 0 then
          pure (client.setStatus (bytes "Failed to read VERSION response"), wdClientErr)
        else pure (judgeVersion client (cstr got.2))
      else do
        call (.close fd)
        let client ← failErrno client (bytes "Failed to send VERSION command")
        pure (client, wdClientErr)

/-- What the other three have in common: one command on a connection of its own, and
    what is made of the answer. -/
def sendCommand (client : WdClient) (keyword cmd : List Byte) (size : Nat)
    (judge : WdClient → List Byte → WdClient × Int) : Lib (WdClient × Int) := do
  let (client, socketFd) ← wdClientConnect client
  match socketFd with
  | .error code => pure (client, code)
  | .ok fd => do
      let sent ← call (.write fd cmd)
      if sent then do
        let incoming ← call (.read fd)
        call (.close fd)
        let got := readWithTimeout size incoming
        if got.1 < 0 then do
          let client ← failErrno client (bytes "Failed to read " ++ keyword ++ bytes " response")
          pure (client, wdClientErr)
        else if got.1 = 0 then
          pure (client.setStatus (bytes "Timeout while waiting for " ++ keyword ++
            bytes " response"), wdClientEtimeout)
        else pure (judge client (cstr got.2))
      else do
        call (.close fd)
        let client ← failErrno client (bytes "Failed to send " ++ keyword ++ bytes " command")
        pure (client, wdClientErr)

/-- `cmd[128]` of `wd_client_register`. -/
def registerCmd (name : List Byte) (timeoutMs : Nat) (ignorePid : Bool) : List Byte :=
  (cmdRegister ++ (name ++ bytes " " ++ decimal timeoutMs ++
    (if ignorePid then bytes " ignorepid" else []) ++ bytes "\n")).take 127

def judgeRegister (client : WdClient) (response : List Byte) : WdClient × Int :=
  if strncmpEq response (bytes "OK ") 3 then
    let client := { client with clientID := CStr.strncpy wdClientIDLen (response.drop 3) }
    (client.setStatus (bytes "Client registered successfully with ID: " ++ client.clientID.chars),
      wdClientOk)
  else (client.setStatus (bytes "REGISTER failed at wd-broker: " ++ response), wdClientErr)

/-- `wd_client_register`. -/
def wdClientRegister (client : WdClient) (timeoutMs : Nat) (ignorePid : Bool) :
    Lib (WdClient × Int) :=
  if client.name.chars = [] then
    pure (client.setStatus (bytes "Invalid parameters"), wdClientEparam)
  else if timeoutMs < wdClientTimeoutMinMs ∨ timeoutMs > wdClientTimeoutMaxMs then
    pure (client.setStatus (bytes "Invalid timeout value"), wdClientEparam)
  else do
    let (client, ret) ← wdClientCheckProtVersion client
    if ret ≠ wdClientOk then pure (client, ret)
    else
      sendCommand client (bytes "REGISTER") (registerCmd client.name.chars timeoutMs ignorePid) 128
        judgeRegister

/-- What `wd_client_ping` and `wd_client_unregister` make of the answer. -/
def judgeID (keyword : List Byte) (client : WdClient) (response : List Byte) : WdClient × Int :=
  if strncmpEq response (bytes "OK") 2 then
    (client.setStatus (keyword ++ bytes " successful for client " ++ client.name.chars ++
      bytes " (" ++ client.clientID.chars ++ bytes ") "), wdClientOk)
  else (client.setStatus (keyword ++ bytes " failed at wd-broker: " ++ response), wdClientErr)

/-- A command that carries the clientID, built in `cmd[64]`. -/
def sendCommandID (client : WdClient) (keyword cmd : List Byte) : Lib (WdClient × Int) :=
  if client.clientID.chars = [] then
    pure (client.setStatus (bytes "Invalid parameters"), wdClientEparam)
  else
    sendCommand client keyword ((cmd ++ (client.clientID.chars ++ bytes "\n")).take 63) 64
      (judgeID keyword)

/-- `wd_client_ping`. -/
def wdClientPing (client : WdClient) : Lib (WdClient × Int) :=
  sendCommandID client (bytes "PING") cmdPing

/-- `wd_client_unregister`. -/
def wdClientUnregister (client : WdClient) : Lib (WdClient × Int) :=
  sendCommandID client (bytes "UNREGISTER") cmdUnregister

/-- The calls of the interface. -/
inductive ApiCall where
  | register (timeoutMs : Nat) (ignorePid : Bool)
  | ping
  | unregister

def ApiCall.run (client : WdClient) : ApiCall → Lib (WdClient × Int)
  | .register timeoutMs ignorePid => wdClientRegister client timeoutMs ignorePid
  | .ping => wdClientPing client
  | .unregister => wdClientUnregister client

/-- An application that makes one call after another, with the codes returned. -/
def application (client : WdClient) : List ApiCall → Lib (WdClient × List Int)
  | [] => pure (client, [])
  | api :: apis => do
      let (client, code) ← api.run client
      let (client, codes) ← application client apis
      pure (client, code :: codes)

-- ── descriptors ───────────────────────────────────────────────────────────────

/-- What a call does to the open descriptors. -/
def afterCall (fds : List Nat) : Call Op Ans → List Nat
  | ⟨.socket, some fd⟩ => fd :: fds
  | ⟨.close fd, _⟩ => fds.erase fd
  | _ => fds

/-- The descriptors that are open behind the calls. -/
def opened (calls : Calls) : List Nat := calls.foldl afterCall []

/-- The circumstances under which a call is made: one descriptor at a time, used in the
    order in which a connection is made, asked, read and closed. -/
def Orderly (before : Calls) : Op → Prop
  | .socket => opened before = []
  | .connect fd _ => opened before = [fd] ∧ before.getLast? = some ⟨.socket, some fd⟩
  | .write fd _ => opened before = [fd] ∧ ∃ path, before.getLast? = some ⟨.connect fd path, true⟩
  | .read fd => opened before = [fd] ∧ ∃ data, before.getLast? = some ⟨.write fd data, true⟩
  | .close fd => opened before = [fd]
  | .strerror => True

/-- The same, looking back. -/
def Pre (h : Calls) (op : Op) : Prop := Orderly h.reverse op

/-- Nothing is open. -/
def Closed (h : Calls) : Prop := opened h.reverse = []

/-- One descriptor is open, and this was the last call. -/
structure Holds (fd : Nat) (c : Call Op Ans) (h : Calls) : Prop where
  opened : opened h.reverse = [fd]
  last : h.head? = some c

variable {h : Calls} {client : WdClient} {fd : Nat} {c : Call Op Ans}

theorem opened_cons : opened (c :: h).reverse = afterCall (opened h.reverse) c := by
  unfold opened
  rw [List.reverse_cons, List.foldl_append]
  rfl

theorem closed_strerror {e : List Byte} (hc : Closed h) : Closed (⟨.strerror, e⟩ :: h) :=
  opened_cons.trans hc

theorem Holds.closed (hh : Holds fd c h) : Closed (⟨.close fd, ()⟩ :: h) := by
  refine opened_cons.trans ?_
  rw [hh.opened]
  simp [afterCall]

/-- No library function ends the process. -/
abbrev never : Calls → Empty → Prop := fun _ _ => False

theorem safe_failErrno {text : List Byte} (hc : Closed h) :
    Safe Pre (fun h _ => Closed h) never h (failErrno client text) :=
  safe_bind.mpr (safe_ask.mpr ⟨trivial, fun _ => closed_strerror hc⟩)

/-- `connect` leaves a connection behind, or nothing. -/
theorem safe_connect (hc : Closed h) :
    Safe Pre (fun h (a : WdClient × Except Int Nat) => match a.2 with
      | .error _ => Closed h
      | .ok fd => ∃ path, Holds fd ⟨.connect fd path, true⟩ h) never h
      (wdClientConnect client) := by
  unfold wdClientConnect
  split
  · exact hc
  · refine safe_bind.mpr (safe_ask.mpr ⟨hc, fun fd => ?_⟩)
    cases fd with
    | none =>
        have hnone : Closed (⟨.socket, (none : Option Nat)⟩ :: h : Calls) := opened_cons.trans hc
        exact safe_bind.mpr ((safe_failErrno hnone).mono fun _ _ hc => hc)
    | some fd =>
        have hopen : opened (⟨.socket, some fd⟩ :: h : Calls).reverse = [fd] := by
          rw [opened_cons, show opened h.reverse = [] from hc]
          rfl
        refine safe_bind.mpr (safe_ask.mpr ⟨⟨hopen, ?_⟩, fun connected => ?_⟩)
        · rw [List.reverse_cons, List.getLast?_concat]
        · have hholds : Holds fd ⟨.connect fd client.socketPath.chars, connected⟩
              (⟨.connect fd client.socketPath.chars, connected⟩ :: ⟨.socket, some fd⟩ :: h) :=
            ⟨opened_cons.trans hopen, rfl⟩
          cases connected with
          | true => exact ⟨_, hholds⟩
          | false =>
              exact safe_bind.mpr (safe_ask.mpr ⟨hholds.opened, fun _ =>
                safe_bind.mpr ((safe_failErrno hholds.closed).mono fun _ _ hc => hc)⟩)

/-- One command on the connection: behind the answer the descriptor is closed. -/
theorem safe_exchange {path data : List Byte} {α : Type} {failed : Lib α}
    {answered : Incoming → Lib α} (hh : Holds fd ⟨.connect fd path, true⟩ h)
    (hfailed : ∀ h, Closed h → Safe Pre (fun h _ => Closed h) never h failed)
    (hanswered : ∀ h incoming, Closed h →
      Safe Pre (fun h _ => Closed h) never h (answered incoming)) :
    Safe Pre (fun h _ => Closed h) never h (do
      let sent ← call (.write fd data)
      if sent then do
        let incoming ← call (.read fd)
        call (.close fd)
        answered incoming
      else do
        call (.close fd)
        failed) := by
  have hopen : ∀ sent, opened (⟨.write fd data, sent⟩ :: h : Calls).reverse = [fd] :=
    fun sent => opened_cons.trans hh.opened
  have hlast : h.reverse.getLast? = some ⟨.connect fd path, true⟩ := by
    rw [List.getLast?_reverse]
    exact hh.last
  refine safe_bind.mpr (safe_ask.mpr ⟨⟨hh.opened, path, hlast⟩, fun sent => ?_⟩)
  cases sent with
  | false =>
      have hsent : Holds fd ⟨.write fd data, false⟩ (⟨.write fd data, false⟩ :: h) :=
        ⟨hopen false, rfl⟩
      exact safe_bind.mpr (safe_ask.mpr ⟨hsent.opened, fun _ => hfailed _ hsent.closed⟩)
  | true =>
      refine safe_bind.mpr (safe_ask.mpr ⟨⟨hopen true, data, ?_⟩, fun incoming => ?_⟩)
      · rw [List.reverse_cons, List.getLast?_concat]
      · have hread : Holds fd ⟨.read fd, incoming⟩
            (⟨.read fd, incoming⟩ :: ⟨.write fd data, true⟩ :: h) :=
          ⟨opened_cons.trans (hopen true), rfl⟩
        exact safe_bind.mpr (safe_ask.mpr ⟨hread.opened, fun _ => hanswered _ _ hread.closed⟩)

theorem safe_version (hc : Closed h) :
    Safe Pre (fun h _ => Closed h) never h (wdClientCheckProtVersion client) := by
  unfold wdClientCheckProtVersion
  refine safe_bind.mpr ((safe_connect hc).mono fun h a ha => ?_)
  obtain ⟨client, socketFd⟩ := a
  cases socketFd with
  | error code => exact ha
  | ok fd =>
      obtain ⟨path, hh⟩ := ha
      refine safe_exchange hh (fun h hc => ?_) fun h incoming hc => ?_
      · exact safe_bind.mpr ((safe_failErrno hc).mono fun _ _ hc => hc)
      · dsimp only
        split <;> exact hc

theorem safe_sendCommand {keyword cmd : List Byte} {size : Nat}
    {judge : WdClient → List Byte → WdClient × Int} (hc : Closed h) :
    Safe Pre (fun h _ => Closed h) never h (sendCommand client keyword cmd size judge) := by
  unfold sendCommand
  refine safe_bind.mpr ((safe_connect hc).mono fun h a ha => ?_)
  obtain ⟨client, socketFd⟩ := a
  cases socketFd with
  | error code => exact ha
  | ok fd =>
      obtain ⟨path, hh⟩ := ha
      refine safe_exchange hh (fun h hc => ?_) fun h incoming hc => ?_
      · exact safe_bind.mpr ((safe_failErrno hc).mono fun _ _ hc => hc)
      · dsimp only
        split
        · exact safe_bind.mpr ((safe_failErrno hc).mono fun _ _ hc => hc)
        split <;> exact hc

theorem safe_api {api : ApiCall} (hc : Closed h) :
    Safe Pre (fun h _ => Closed h) never h (api.run client) := by
  cases api with
  | register timeoutMs ignorePid =>
      show Safe Pre _ never h (wdClientRegister client timeoutMs ignorePid)
      unfold wdClientRegister
      split
      · exact hc
      split
      · exact hc
      refine safe_bind.mpr ((safe_version hc).mono fun h a hc => ?_)
      dsimp only
      split
      · exact hc
      · exact safe_sendCommand hc
  | ping =>
      show Safe Pre _ never h (sendCommandID client (bytes "PING") cmdPing)
      unfold sendCommandID
      split
      · exact hc
      · exact safe_sendCommand hc
  | unregister =>
      show Safe Pre _ never h (sendCommandID client (bytes "UNREGISTER") cmdUnregister)
      unfold sendCommandID
      split
      · exact hc
      · exact safe_sendCommand hc

theorem safe_application (apis : List ApiCall) :
    ∀ {client : WdClient} {h : Calls}, Closed h →
      Safe Pre (fun h _ => Closed h) never h (application client apis) := by
  induction apis with
  | nil => exact fun hc => hc
  | cons api apis ih =>
      exact fun hc => safe_bind.mpr ((safe_api hc).mono fun _ _ hc =>
        safe_bind.mpr ((ih hc).mono fun _ _ hc => hc))

/-- **DESCRIPTORS**: whatever calls an application makes and whatever the kernel answers,
    up to any point: a socket is made only while none is open, it is connected, written,
    read and closed in this order while it is open, and whenever the application has got
    its last code back, nothing is open. -/
theorem descriptors_closed {client : WdClient} {apis : List ApiCall} {calls : Calls}
    {e : Status Empty (WdClient × List Int)} (hexec : Exec (application client apis) calls e) :
    (∀ before op r after, calls = before ++ ⟨op, r⟩ :: after → Orderly before op) ∧
      ∀ a, e = .done a → opened calls = [] := by
  have hsafe := @safe_application apis client [] rfl
  constructor
  · intro before op r after hcalls
    have hpre := safe_calls hexec hsafe before op r after hcalls
    rwa [List.append_nil, Pre, List.reverse_reverse] at hpre
  · intro a ha
    have hpost := (safe_ends hexec hsafe).1 a ha
    rwa [List.append_nil, Closed, List.reverse_reverse] at hpost

/-- The calls of one command that is answered. -/
def exchange (path cmd data : List Byte) : Calls :=
  [⟨.socket, some 3⟩, ⟨.connect 3 path, true⟩, ⟨.write 3 cmd, true⟩, ⟨.read 3, .packet data⟩,
    ⟨.close 3, ()⟩]

/-- The status that a connection leaves behind. -/
def connectedTo (client : WdClient) : WdClient :=
  client.setStatus (bytes "Successfully connected via " ++ client.socketPath.chars)

theorem exec_connected (hpath : client.socketPath.chars ≠ []) :
    Exec (wdClientConnect client) [⟨.socket, some 3⟩, ⟨.connect 3 client.socketPath.chars, true⟩]
      (.done (connectedTo client, .ok 3)) := by
  unfold wdClientConnect
  rw [if_neg hpath]
  exact exec_ask_bind.mpr ⟨some 3, _, rfl, exec_ask_bind.mpr ⟨true, [], rfl, .done _⟩⟩

theorem exec_answered {keyword cmd data : List Byte} {size : Nat}
    {judge : WdClient → List Byte → WdClient × Int} (hpath : client.socketPath.chars ≠ [])
    (hread : 0 < (readWithTimeout size (.packet data)).1) :
    Exec (sendCommand client keyword cmd size judge) (exchange client.socketPath.chars cmd data)
      (.done (judge (connectedTo client) (cstr (data.take (size - 1))))) := by
  refine exec_bind_done.mpr ⟨_, _, _, rfl, exec_connected hpath, exec_ask_bind.mpr ⟨true, _, rfl,
    exec_ask_bind.mpr ⟨.packet data, _, rfl, exec_ask_bind.mpr ⟨(), [], rfl, ?_⟩⟩⟩⟩
  dsimp only
  rw [if_neg (by omega), if_neg (by omega)]
  exact .done _

def aClient : WdClient :=
  ⟨CStr.strncpy _ (bytes "/run/wd-broker.sock"), CStr.strncpy _ (bytes "a"), CStr.empty _,
    CStr.empty _⟩

def aClientID : CStr wdClientIDLen := makeClientID (Vector.replicate 8 0)

/-- A PING of a client with this clientID, answered `OK`. -/
def aPing : Calls :=
  exchange aClient.socketPath.chars (bytes "PING 0000000000000000\n") (bytes "OK\n")

theorem exec_aPing {client : WdClient} (hid : client.clientID = aClientID)
    (hpath : client.socketPath = aClient.socketPath) :
    Exec (wdClientPing client) aPing
      (.done (judgeID (bytes "PING") (connectedTo client) (bytes "OK\n"))) := by
  have hcmd : (cmdPing ++ (aClientID.chars ++ bytes "\n")).take 63 =
      bytes "PING 0000000000000000\n" := by decide
  unfold wdClientPing sendCommandID
  rw [hid, if_neg (by decide), hcmd]
  have hexec := @exec_answered client (bytes "PING") (bytes "PING 0000000000000000\n")
    (bytes "OK\n") 64 (judgeID (bytes "PING")) (by rw [hpath]; decide) (by decide)
  rw [hpath] at hexec
  exact hexec

theorem descriptors_closed_ping : opened aPing = [] :=
  (@descriptors_closed { aClient with clientID := aClientID } [.ping] aPing _
    (exec_bind_done.mpr ⟨_, _, [], rfl, exec_aPing rfl rfl, .done _⟩)).2 _ rfl

end WdLibrary
