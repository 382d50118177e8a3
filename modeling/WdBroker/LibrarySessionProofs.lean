import WdBroker.LibraryProofs

/-! # Sessions through the library

    The programs of the client library against the broker, which handles other commands
    whenever it likes and may leave one of the library's without an answer.

    * `codes_truthful` — a code that reports success stands for a command that the broker
      has carried out;
    * `library_session` — once `wd_client_register` has succeeded, every `wd_client_ping`
      that gets an answer succeeds until the client is unregistered, and none does after
      that. -/

namespace WdLibrary

open CString Scanf WdClock WdTable WdClientID WdStatus WdConfig WdCommand WdReach WdReplies
open WdSession WdRegister WdEncoding Program Prog

-- ── library and broker ────────────────────────────────────────────────────────

/-- Nothing was read. -/
def Unanswered (incoming : Incoming) : Prop := ∀ data, incoming = .packet data → data = []

/-- Calls that the broker has no part in. -/
def isAlone : Op → Bool
  | .write _ _ | .read _ => false
  | _ => true

/-- One call, where `sent` was written to the connection before it: what the broker
    handles for it, and what stays unread of the connection. -/
inductive Served (creds : Ucred) (b : Broker) :
    Option (List Byte) → Call Op Ans → List Request → Option (List Byte) → Prop
  | alone {sent : Option (List Byte)} {c : Call Op Ans} (h : isAlone c.1 = true) :
      Served creds b sent c [] sent
  | writeFails {sent : Option (List Byte)} {fd : Nat} {data : List Byte} :
      Served creds b sent ⟨.write fd data, false⟩ [] sent
  | sent {sent : Option (List Byte)} {fd : Nat} {data : List Byte} :
      Served creds b sent ⟨.write fd data, true⟩ [] (some data)
  | answered {fd : Nat} {data : List Byte} {r : Request} {reply : Reply}
      (hcreds : r.creds = some creds) (hpacket : r.incoming = .packet data)
      (hreply : (handleCommand b r).replies = [reply]) :
      Served creds b (some data) ⟨.read fd, .packet reply.bytes⟩ [r] none
  | unanswered {sent : Option (List Byte)} {fd : Nat} {incoming : Incoming}
      (h : Unanswered incoming) : Served creds b sent ⟨.read fd, incoming⟩ [] none

/-- The calls of process `creds`, and all commands that the broker handles meanwhile, in
    its order; a command whose answer did not arrive is one of the others. -/
def Talks (creds : Ucred) : Broker → Option (List Byte) → Calls → List Request → Prop
  | _, _, [], _ => True
  | b, sent, c :: calls, rs => ∃ others own rest sent', rs = others ++ (own ++ rest) ∧
      Served creds (commands b others) sent c own sent' ∧
      Talks creds (commands b (others ++ own)) sent' calls rest

variable {creds : Ucred} {b : Broker} {sent : Option (List Byte)} {rs : List Request}
  {client client' : WdClient} {code : Int} {calls : Calls}

theorem commands_append (b : Broker) (rs rs' : List Request) :
    commands b (rs ++ rs') = commands (commands b rs) rs' :=
  Machine.run_append command b rs rs'

/-- The calls of a run fall in two together with what the broker handles. -/
theorem talks_split (front : Calls) :
    ∀ {b : Broker} {sent : Option (List Byte)} {rs : List Request},
      Talks creds b sent (front ++ calls) rs → ∃ before rest sent', rs = before ++ rest ∧
        Talks creds b sent front before ∧ Talks creds (commands b before) sent' calls rest := by
  induction front with
  | nil => exact fun h => ⟨[], _, _, rfl, trivial, h⟩
  | cons c front ih =>
      rintro b sent rs ⟨others, own, rest, sent', rfl, hserved, htalk⟩
      obtain ⟨before, rest', sent'', rfl, hfront, hrest⟩ := ih htalk
      refine ⟨others ++ (own ++ before), rest', sent'', by simp only [List.append_assoc],
        ⟨others, own, before, sent', rfl, hserved, hfront⟩, ?_⟩
      rwa [← List.append_assoc, commands_append]

theorem talks_front {front : Calls} :
    ∀ {b : Broker} {sent : Option (List Byte)} {rs : List Request},
      Talks creds b sent (front ++ calls) rs → Talks creds b sent front rs := by
  induction front with
  | nil => exact fun _ => trivial
  | cons c front ih =>
      rintro b sent rs ⟨others, own, rest, sent', rfl, hserved, htalk⟩
      exact ⟨others, own, rest, sent', rfl, hserved, ih htalk⟩

/-- A command that was answered was handled, with that answer. -/
theorem talks_exchange {fd : Nat} {cmd data : List Byte} {rest : Calls}
    (h : Talks creds b sent (⟨.write fd cmd, true⟩ :: ⟨.read fd, .packet data⟩ :: rest) rs)
    (hdata : data ≠ []) :
    ∃ before r after reply, rs = before ++ r :: after ∧ r.creds = some creds ∧
      r.incoming = .packet cmd ∧ (handleCommand (commands b before) r).replies = [reply] ∧
      data = reply.bytes := by
  obtain ⟨others, own, rs', sent', rfl, hwrite, others', own', rs'', sent'', rfl, hread, -⟩ := h
  cases hwrite with
  | alone h => exact Bool.noConfusion h
  | sent =>
      cases hread with
      | alone h => exact Bool.noConfusion h
      | unanswered h => exact absurd (h data rfl) hdata
      | @answered _ _ r reply hcreds hpacket hreply =>
          refine ⟨others ++ others', r, rs'', reply, by simp, hcreds, hpacket, ?_, rfl⟩
          rwa [List.append_nil, ← commands_append] at hreply

-- ── what a function returns ───────────────────────────────────────────────────

/-- Nothing was read by any of the calls. -/
def NoAnswer (calls : Calls) : Prop :=
  ∀ fd incoming, ⟨.read fd, incoming⟩ ∈ calls → Unanswered incoming

theorem noAnswer_append {front back : Calls} (hf : NoAnswer front) (hb : NoAnswer back) :
    NoAnswer (front ++ back) := by
  intro fd incoming hmem
  rcases List.mem_append.mp hmem with h | h
  · exact hf fd incoming h
  · exact hb fd incoming h

/-- Calls other than `read`. -/
theorem noAnswer_of_ops {calls : Calls} (h : ∀ c ∈ calls, ∀ fd, c.1 ≠ .read fd) : NoAnswer calls :=
  fun fd _ hmem => absurd rfl (h _ hmem fd)

/-- The client with another status. -/
def Restated (client client' : WdClient) : Prop := ∃ text, client' = client.setStatus text

theorem exec_failErrno {text : List Byte} (h : Exec (failErrno client text) calls (.done client')) :
    NoAnswer calls ∧ Restated client client' := by
  unfold failErrno call at h
  obtain ⟨e, rest, rfl, hrest⟩ := exec_ask_bind.mp h
  obtain ⟨rfl, rfl⟩ := exec_pure_done.mp hrest
  exact ⟨noAnswer_of_ops (by simp), _, rfl⟩

/-- A status with the text of `errno`, and the code of an error. -/
theorem exec_fail {α : Type} {text : List Byte} {x a : α}
    (h : Exec (failErrno client text >>= fun client => pure (client, x)) calls
      (.done (client', a))) : NoAnswer calls ∧ Restated client client' ∧ a = x := by
  obtain ⟨first, client₁, rest, rfl, hfail, hrest⟩ := exec_bind_done.mp h
  obtain ⟨hno, hstat⟩ := exec_failErrno hfail
  obtain ⟨rfl, heq⟩ := exec_pure_done.mp hrest
  obtain ⟨rfl, rfl⟩ := Prod.mk.inj heq
  rw [List.append_nil]
  exact ⟨hno, hstat, rfl⟩

/-- The codes that a call returns of its own accord. -/
def Failed (code : Int) : Prop :=
  code = wdClientErr ∨ code = wdClientEparam ∨ code = wdClientEtimeout

theorem Failed.ne_ok (h : Failed code) : code ≠ wdClientOk := by
  rcases h with rfl | rfl | rfl <;> decide

theorem Failed.ne_eversion (h : Failed code) : code ≠ wdClientEversion := by
  rcases h with rfl | rfl | rfl <;> decide

theorem exec_connect {res : Except Int Nat}
    (h : Exec (wdClientConnect client) calls (.done (client', res))) :
    NoAnswer calls ∧ Restated client client' ∧ ∀ code', res = .error code' → Failed code' := by
  unfold wdClientConnect at h
  split at h
  · obtain ⟨rfl, heq⟩ := exec_pure_done.mp h
    obtain ⟨rfl, rfl⟩ := Prod.mk.inj heq
    refine ⟨noAnswer_of_ops (by simp), ⟨_, rfl⟩, fun code' hc => ?_⟩
    exact Or.inr (Or.inl (Except.error.inj hc).symm)
  · obtain ⟨fd, rest, rfl, hrest⟩ := exec_ask_bind.mp h
    cases fd with
    | none =>
        obtain ⟨hno, hstat, rfl⟩ := exec_fail hrest
        refine ⟨@noAnswer_append [_] _ (noAnswer_of_ops (by simp)) hno, hstat, fun code' hc => ?_⟩
        exact Or.inl (Except.error.inj hc).symm
    | some fd =>
        obtain ⟨connected, rest', rfl, hrest'⟩ := exec_ask_bind.mp hrest
        cases connected with
        | true =>
            obtain ⟨rfl, heq⟩ := exec_pure_done.mp hrest'
            obtain ⟨rfl, rfl⟩ := Prod.mk.inj heq
            exact ⟨noAnswer_of_ops (by simp), ⟨_, rfl⟩, nofun⟩
        | false =>
            obtain ⟨_, rest'', rfl, hrest''⟩ := exec_ask_bind.mp hrest'
            obtain ⟨hno, hstat, rfl⟩ := exec_fail hrest''
            refine ⟨@noAnswer_append [_, _, _] _ (noAnswer_of_ops (by simp)) hno, hstat,
              fun code' hc => ?_⟩
            exact Or.inl (Except.error.inj hc).symm

/-- The packet was sent on the connection of this call, and answered. -/
def Exchanged (cmd data : List Byte) (calls : Calls) : Prop :=
  ∃ front fd, NoAnswer front ∧
    calls = front ++ [⟨.write fd cmd, true⟩, ⟨.read fd, .packet data⟩, ⟨.close fd, ()⟩]

theorem read_packet {size : Nat} {incoming : Incoming}
    (h : 0 < (readWithTimeout size incoming).1) : ∃ data, data ≠ [] ∧ incoming = .packet data ∧
      (readWithTimeout size incoming).2 = data.take (size - 1) := by
  cases incoming with
  | selectFails => exact absurd h (by simp [readWithTimeout])
  | silent => exact absurd h (by simp [readWithTimeout])
  | readFails => exact absurd h (by simp [readWithTimeout])
  | packet data =>
      refine ⟨data, ?_, rfl, rfl⟩
      rintro rfl
      simp [readWithTimeout] at h

theorem read_unanswered {size : Nat} {incoming : Incoming} (hsize : 1 < size)
    (h : (readWithTimeout size incoming).1 ≤ 0) : Unanswered incoming := by
  rintro data rfl
  by_contra hne
  have hpos := List.length_pos_iff.mpr hne
  simp only [readWithTimeout, List.length_take] at h
  omega

/-- A connection that was made is written, and read if that succeeded. -/
theorem exec_exchange {α : Type} {fd : Nat} {cmd : List Byte} {failed : Lib α}
    {answered : Incoming → Lib α} {a : α}
    (h : Exec (do
      let sent ← call (.write fd cmd)
      if sent then do
        let incoming ← call (.read fd)
        call (.close fd)
        answered incoming
      else do
        call (.close fd)
        failed) calls (.done a)) :
    (∃ rest, calls = [⟨.write fd cmd, false⟩, ⟨.close fd, ()⟩] ++ rest ∧
      Exec failed rest (.done a)) ∨
    ∃ incoming rest,
      calls = [⟨.write fd cmd, true⟩, ⟨.read fd, incoming⟩, ⟨.close fd, ()⟩] ++ rest ∧
      Exec (answered incoming) rest (.done a) := by
  obtain ⟨sent, rest, rfl, hrest⟩ := exec_ask_bind.mp h
  cases sent with
  | false =>
      obtain ⟨_, rest', rfl, hrest'⟩ := exec_ask_bind.mp hrest
      exact Or.inl ⟨rest', rfl, hrest'⟩
  | true =>
      obtain ⟨incoming, rest', rfl, hrest'⟩ := exec_ask_bind.mp hrest
      obtain ⟨_, rest'', rfl, hrest''⟩ := exec_ask_bind.mp hrest'
      exact Or.inr ⟨incoming, rest'', rfl, hrest''⟩

theorem noAnswer_exchange {size : Nat} {fd : Nat} {cmd : List Byte} {incoming : Incoming}
    (hsize : 1 < size) (h : (readWithTimeout size incoming).1 ≤ 0) :
    NoAnswer [⟨.write fd cmd, true⟩, ⟨.read fd, incoming⟩, ⟨.close fd, ()⟩] := by
  intro fd' incoming' hmem
  obtain ⟨rfl, rfl⟩ : fd' = fd ∧ incoming' = incoming := by simpa using hmem
  exact read_unanswered hsize h

/-- **ONE COMMAND**: it was answered, and the code is what was made of the answer; or the
    code is an error and nothing was read. -/
theorem exec_sendCommand {keyword cmd : List Byte} {size : Nat} (hsize : 1 < size)
    {judge : WdClient → List Byte → WdClient × Int}
    (h : Exec (sendCommand client keyword cmd size judge) calls (.done (client', code))) :
    (NoAnswer calls ∧ Failed code ∧ Restated client client') ∨
      ∃ data client₁, data ≠ [] ∧ Exchanged cmd data calls ∧ Restated client client₁ ∧
        judge client₁ (cstr (data.take (size - 1))) = (client', code) := by
  unfold sendCommand at h
  obtain ⟨front, ⟨client₁, res⟩, rest, rfl, hconn, hrest⟩ := exec_bind_done.mp h
  obtain ⟨hno, ⟨text, rfl⟩, herr⟩ := exec_connect hconn
  cases res with
  | error code' =>
      obtain ⟨rfl, heq⟩ := exec_pure_done.mp hrest
      obtain ⟨rfl, rfl⟩ := Prod.mk.inj heq
      rw [List.append_nil]
      exact Or.inl ⟨hno, herr _ rfl, text, rfl⟩
  | ok fd =>
      rcases exec_exchange hrest with ⟨last, rfl, hlast⟩ | ⟨incoming, last, rfl, hlast⟩
      · obtain ⟨hno', ⟨text', rfl⟩, rfl⟩ := exec_fail hlast
        exact Or.inl ⟨noAnswer_append hno (noAnswer_append (noAnswer_of_ops (by simp)) hno'),
          Or.inl rfl, text', rfl⟩
      · dsimp only at hlast
        split at hlast
        · next hneg =>
          obtain ⟨hno', ⟨text', rfl⟩, rfl⟩ := exec_fail hlast
          exact Or.inl ⟨noAnswer_append hno (noAnswer_append (noAnswer_exchange hsize (by omega))
            hno'), Or.inl rfl, text', rfl⟩
        split at hlast
        · next _ hzero =>
          obtain ⟨rfl, heq⟩ := exec_pure_done.mp hlast
          obtain ⟨rfl, rfl⟩ := Prod.mk.inj heq
          exact Or.inl ⟨noAnswer_append hno (noAnswer_append (noAnswer_exchange hsize (by omega))
            (noAnswer_of_ops (by simp))), Or.inr (Or.inr rfl), _, rfl⟩
        · next hneg hzero =>
          obtain ⟨data, hdata, rfl, hgot⟩ := @read_packet size incoming (by omega)
          obtain ⟨rfl, heq⟩ := exec_pure_done.mp hlast
          rw [hgot] at heq
          exact Or.inr ⟨data, _, hdata, ⟨front, fd, hno, by rw [List.append_nil]⟩, ⟨text, rfl⟩,
            heq.symm⟩

/-- The same for the version check, which only sets the status. -/
theorem exec_version (h : Exec (wdClientCheckProtVersion client) calls (.done (client', code))) :
    Restated client client' ∧ ((NoAnswer calls ∧ Failed code) ∨
      ∃ data client₁, data ≠ [] ∧ Exchanged (bytes "VERSION\n") data calls ∧
        (judgeVersion client₁ (cstr (data.take (128 - 1)))).2 = code) := by
  unfold wdClientCheckProtVersion at h
  obtain ⟨front, ⟨client₁, res⟩, rest, rfl, hconn, hrest⟩ := exec_bind_done.mp h
  obtain ⟨hno, ⟨text, rfl⟩, herr⟩ := exec_connect hconn
  cases res with
  | error code' =>
      obtain ⟨rfl, heq⟩ := exec_pure_done.mp hrest
      obtain ⟨rfl, rfl⟩ := Prod.mk.inj heq
      rw [List.append_nil]
      exact ⟨⟨text, rfl⟩, Or.inl ⟨hno, herr _ rfl⟩⟩
  | ok fd =>
      rcases exec_exchange hrest with ⟨last, rfl, hlast⟩ | ⟨incoming, last, rfl, hlast⟩
      · obtain ⟨hno', ⟨text', rfl⟩, rfl⟩ := exec_fail hlast
        exact ⟨⟨text', rfl⟩, Or.inl ⟨noAnswer_append hno (noAnswer_append
          (noAnswer_of_ops (by simp)) hno'), Or.inl rfl⟩⟩
      · dsimp only at hlast
        split at hlast
        · next hlen =>
          obtain ⟨rfl, heq⟩ := exec_pure_done.mp hlast
          obtain ⟨rfl, rfl⟩ := Prod.mk.inj heq
          exact ⟨⟨_, rfl⟩, Or.inl ⟨noAnswer_append hno (noAnswer_append
            (noAnswer_exchange (by decide) hlen) (noAnswer_of_ops (by simp))), Or.inl rfl⟩⟩
        · next hlen =>
          obtain ⟨data, hdata, rfl, hgot⟩ := @read_packet 128 incoming (by omega)
          obtain ⟨rfl, heq⟩ := exec_pure_done.mp hlast
          rw [hgot] at heq
          have hjudge : ∀ buffer,
              Restated client (judgeVersion (client.setStatus text) buffer).1 := by
            intro buffer
            unfold judgeVersion
            split
            · exact ⟨_, rfl⟩
            · dsimp only
              split
              · exact ⟨text, rfl⟩
              · exact ⟨_, rfl⟩
          have hclient' := hjudge (cstr (data.take (128 - 1)))
          rw [← heq] at hclient'
          exact ⟨hclient', Or.inr ⟨data, client.setStatus text, hdata,
            ⟨front, fd, hno, by rw [List.append_nil]⟩, by rw [← heq]⟩⟩

theorem exec_version_answered {data : List Byte} (hpath : client.socketPath.chars ≠ [])
    (hread : 0 < (readWithTimeout 128 (.packet data)).1) :
    Exec (wdClientCheckProtVersion client)
      (exchange client.socketPath.chars (bytes "VERSION\n") data)
      (.done (judgeVersion (connectedTo client) (cstr (data.take (128 - 1))))) := by
  refine exec_bind_done.mpr ⟨_, _, _, rfl, exec_connected hpath, exec_ask_bind.mpr ⟨true, _, rfl,
    exec_ask_bind.mpr ⟨.packet data, _, rfl, exec_ask_bind.mpr ⟨(), [], rfl, ?_⟩⟩⟩⟩
  dsimp only
  rw [if_neg (by omega)]
  exact .done _

/-- A broker that serves the command at once. -/
theorem talks_answered {path cmd : List Byte} {r : Request} {reply : Reply} {rest : Calls}
    (hcreds : r.creds = some creds) (hpacket : r.incoming = .packet cmd)
    (hreply : (handleCommand b r).replies = [reply])
    (htalk : Talks creds (command b r) none rest rs) :
    Talks creds b none (exchange path cmd reply.bytes ++ rest) (r :: rs) :=
  ⟨[], [], r :: rs, none, rfl, .alone rfl, [], [], r :: rs, none, rfl, .alone rfl,
    [], [], r :: rs, some cmd, rfl, .sent, [], [r], rs, none, rfl, .answered hcreds hpacket hreply,
    [], [], rs, none, rfl, .alone rfl, htalk⟩

-- ── what the broker did ───────────────────────────────────────────────────────

/-- The answer to the last command is the broker's. -/
theorem exchanged_handled {cmd data : List Byte} (hex : Exchanged cmd data calls)
    (htalk : Talks creds b sent calls rs) (hdata : data ≠ []) :
    ∃ before r after reply, rs = before ++ r :: after ∧ r.creds = some creds ∧
      r.incoming = .packet cmd ∧ (handleCommand (commands b before) r).replies = [reply] ∧
      data = reply.bytes := by
  obtain ⟨front, fd, -, rfl⟩ := hex
  obtain ⟨first, rest, sent', rfl, -, hlast⟩ := talks_split front htalk
  obtain ⟨before, r, after, reply, rfl, hcreds, hpacket, hreply, hbytes⟩ :=
    talks_exchange hlast hdata
  rw [← commands_append] at hreply
  exact ⟨first ++ before, r, after, reply, by rw [List.append_assoc], hcreds, hpacket, hreply,
    hbytes⟩

/-- Each command that was sent and whose answer was read has changed nothing. -/
def Harmless (creds : Ucred) (b : Broker) (calls : Calls) (rs : List Request) : Prop :=
  ∀ fd data, ⟨.read fd, .packet data⟩ ∈ calls → data ≠ [] →
    ∃ cmd before r after reply, ⟨.write fd cmd, true⟩ ∈ calls ∧ rs = before ++ r :: after ∧
      r.creds = some creds ∧ r.incoming = .packet cmd ∧
      (handleCommand (commands b before) r).replies = [reply] ∧ data = reply.bytes ∧
      command (commands b before) r = commands b before

theorem harmless_of_noAnswer (h : NoAnswer calls) : Harmless creds b calls rs :=
  fun fd data hmem hdata => absurd (h fd _ hmem data rfl) hdata

theorem harmless_append {front : Calls} {first : List Request}
    (hfront : Harmless creds b front (first ++ rs))
    (h : Harmless creds (commands b first) calls rs) :
    Harmless creds b (front ++ calls) (first ++ rs) := by
  intro fd data hmem hdata
  rcases List.mem_append.mp hmem with hmem | hmem
  · obtain ⟨cmd, before, r, after, reply, hwrite, hrest⟩ := hfront fd data hmem hdata
    exact ⟨cmd, before, r, after, reply, List.mem_append_left _ hwrite, hrest⟩
  · obtain ⟨cmd, before, r, after, reply, hwrite, rfl, hcreds, hpacket, hreply, hbytes, hsame⟩ :=
      h fd data hmem hdata
    rw [← commands_append] at hreply hsame
    exact ⟨cmd, first ++ before, r, after, reply, List.mem_append_right _ hwrite,
      by rw [List.append_assoc], hcreds, hpacket, hreply, hbytes, hsame⟩

theorem harmless_exchanged {cmd data : List Byte} {before after : List Request} {r : Request}
    {reply : Reply} (hex : Exchanged cmd data calls) (hcreds : r.creds = some creds)
    (hpacket : r.incoming = .packet cmd)
    (hreply : (handleCommand (commands b before) r).replies = [reply])
    (hbytes : data = reply.bytes) (hsame : command (commands b before) r = commands b before) :
    Harmless creds b calls (before ++ r :: after) := by
  obtain ⟨front, fd, hno, rfl⟩ := hex
  intro fd' data' hmem hdata
  rcases List.mem_append.mp hmem with hmem | hmem
  · exact absurd (hno fd' _ hmem data' rfl) hdata
  · obtain ⟨rfl, rfl⟩ : fd' = fd ∧ data' = data := by simpa using hmem
    exact ⟨cmd, before, r, after, reply, by simp, rfl, hcreds, hpacket, hreply, hbytes, hsame⟩

/-- `strncmp` on what fits the buffer. -/
theorem begins_iff {p data : List Byte} {n : Nat} (hnul : (0 : Byte) ∉ p) (hlen : p.length ≤ n) :
    strncmpEq (cstr (data.take n)) p p.length = true ↔ p <+: data := by
  rw [strncmpEq_length_iff]
  constructor
  · rintro ⟨rest, hrest⟩
    exact (List.IsPrefix.trans ⟨rest, hrest.symm⟩ (List.takeWhile_prefix _)).trans
      (List.take_prefix _ _)
  · rintro ⟨rest, rfl⟩
    rw [List.take_append, List.take_of_length_le hlen, cstr_append hnul]
    exact ⟨_, rfl⟩

theorem not_ok_of_isError {msg : List Byte} (hmsg : IsError msg) : ¬ bytes "OK" <+: msg := by
  rintro ⟨s, rfl⟩
  exact not_isError_ok hmsg

theorem found_version : strstr (bytes "protocol_version=")
    (cstr ((Reply.buffer versionMsg).bytes.take (128 - 1)))
      = some (bytes "protocol_version=1.0\n") := by
  decide +kernel

/-- This broker's VERSION pleases this library. -/
theorem version_settled (h : Exec (wdClientCheckProtVersion client) calls (.done (client', code)))
    (htalk : Talks creds b none calls rs) :
    Restated client client' ∧ Harmless creds b calls rs ∧ (Failed code ∨ code = wdClientOk) := by
  obtain ⟨hstat, ⟨hno, herr⟩ | ⟨data, client₁, hdata, hex, hjudge⟩⟩ := exec_version h
  · exact ⟨hstat, harmless_of_noAnswer hno, Or.inl herr⟩
  · obtain ⟨before, r, after, reply, rfl, hcreds, hpacket, hreply, hbytes⟩ :=
      exchanged_handled hex htalk hdata
    have hbuf : r.buf = some (cmdVersion ++ bytes "\n") :=
      buf_of_packet hpacket (by decide) (by decide) (by decide)
    have hextra : hasExtra 31 (cmdVersion ++ bytes "\n") cmdVersion = false :=
      (hasExtra_eq_false (by decide)).mpr (List.forall_mem_singleton.mpr rfl)
    have hhandle : handleCommand (commands b before) r =
        answer (commands b before) (.buffer versionMsg) := by
      rw [handleCommand_version hcreds hbuf, handleVersion, hextra]
      rfl
    refine ⟨hstat, harmless_exchanged hex hcreds hpacket hreply hbytes
      (congrArg Outcome.broker hhandle), Or.inr ?_⟩
    rw [hhandle] at hreply
    obtain rfl := List.singleton_inj.mp hreply
    rw [← hjudge, hbytes]
    unfold judgeVersion
    rw [found_version]
    rfl

/-- A command of a client is refused, or it acts and is answered `OK`. -/
theorem reply_cases {r : Request} {reply : Reply}
    (hcmd : Begins r cmdRegister ∨ Begins r cmdPing ∨ Begins r cmdUnregister)
    (hreply : (handleCommand b r).replies = [reply]) :
    (∃ msg, IsError msg ∧ reply = .text msg ∧ handleCommand b r = answer b (.text msg)) ∨
      ∃ s, reply = .text (bytes "OK" ++ s) ∧ (handleCommand b r).event ≠ none := by
  have hans := answered b r
  generalize handleCommand b r = o at hans hreply ⊢
  cases hans with
  | refused msg hmsg => exact Or.inl ⟨msg, hmsg, (List.singleton_inj.mp hreply).symm, rfl⟩
  | reported m hrep =>
      refine absurd hrep (not_reports ?_)
      rcases hcmd with h | h | h
      · exact Or.inl h
      · exact Or.inr (Or.inl h)
      · exact Or.inr (Or.inr (Or.inl h))
  | registered i ms s _ hevent hok =>
      exact Or.inr ⟨s, List.singleton_inj.mp (hreply.symm.trans hok), by simp [hevent]⟩
  | pinged i s _ hevent hok =>
      exact Or.inr ⟨s, List.singleton_inj.mp (hreply.symm.trans hok), by simp [hevent]⟩
  | unregistered i s _ hevent hok =>
      exact Or.inr ⟨s, List.singleton_inj.mp (hreply.symm.trans hok), by simp [hevent]⟩
  | rebooted s hreb _ _ =>
      rcases hcmd with h | h | h
      · exact absurd hreb (not_begins h ⟨2, 71, by decide, 66, by decide, by decide⟩)
      · exact absurd hreb (not_begins h ⟨0, 80, by decide, 82, by decide, by decide⟩)
      · exact absurd hreb (not_begins h ⟨0, 85, by decide, 82, by decide, by decide⟩)

/-- Code and broker agree about the command: it was carried out, or refused. -/
def Settled (b : Broker) (r : Request) (code : Int) : Prop :=
  (code = wdClientOk ∧ (handleCommand b r).event ≠ none ∧
      ∃ s, (handleCommand b r).replies = [.text (bytes "OK" ++ s)]) ∨
    (code = wdClientErr ∧ ∃ msg, IsError msg ∧ handleCommand b r = answer b (.text msg))

/-- **A COMMAND WITH AN ID**: without an answer it returns an error; with one it returns
    what the broker did with the command it was sent. -/
theorem sendCommandID_settled {keyword cmd : List Byte} (hcmd : cmd = cmdPing ∨ cmd = cmdUnregister)
    (h : Exec (sendCommandID client keyword cmd) calls (.done (client', code)))
    (htalk : Talks creds b none calls rs) :
    Restated client client' ∧ ((NoAnswer calls ∧ Failed code) ∨
      ∃ before r after, rs = before ++ r :: after ∧ r.creds = some creds ∧
        r.buf = some (cmd ++ (client.clientID.chars ++ bytes "\n")) ∧
        Settled (commands b before) r code ∧ (code ≠ wdClientOk → Harmless creds b calls rs)) := by
  unfold sendCommandID at h
  split at h
  · obtain ⟨rfl, heq⟩ := exec_pure_done.mp h
    obtain ⟨rfl, rfl⟩ := Prod.mk.inj heq
    exact ⟨⟨_, rfl⟩, Or.inl ⟨noAnswer_of_ops (by simp), Or.inr (Or.inl rfl)⟩⟩
  have hkey : cmd.length ≤ 11 ∧ (0 : Byte) ∉ cmd := by
    rcases hcmd with rfl | rfl <;> decide
  have hlen : (cmd ++ (client.clientID.chars ++ bytes "\n")).length ≤ 63 := by
    have hid : client.clientID.chars.length < 17 := client.clientID.fits
    have hend : (bytes "\n").length = 1 := rfl
    simp only [List.length_append]
    omega
  have hnul : (0 : Byte) ∉ cmd ++ (client.clientID.chars ++ bytes "\n") := by
    intro h0
    rcases List.mem_append.mp h0 with h0 | h0
    · exact hkey.2 h0
    rcases List.mem_append.mp h0 with h0 | h0
    · exact client.clientID.noNul h0
    · exact absurd h0 (by decide)
  rw [List.take_of_length_le hlen] at h
  rcases exec_sendCommand (by decide) h with
    ⟨hno, herr, hstat⟩ | ⟨data, client₁, hdata, hex, ⟨text, rfl⟩, hjudge⟩
  · exact ⟨hstat, Or.inl ⟨hno, herr⟩⟩
  · obtain ⟨before, r, after, reply, rfl, hcreds, hpacket, hreply, hbytes⟩ :=
      exchanged_handled hex htalk hdata
    have hbuf : r.buf = some (cmd ++ (client.clientID.chars ++ bytes "\n")) :=
      buf_of_packet hpacket (by simp [bytes]) (by omega) hnul
    have hbegins : Begins r cmdRegister ∨ Begins r cmdPing ∨ Begins r cmdUnregister := by
      rcases hcmd with rfl | rfl
      · exact Or.inr (Or.inl ⟨_, hbuf⟩)
      · exact Or.inr (Or.inr ⟨_, hbuf⟩)
    have hok : strncmpEq (cstr (data.take (64 - 1))) (bytes "OK") 2 = true ↔
        bytes "OK" <+: data := begins_iff (by decide) (by decide)
    unfold judgeID at hjudge
    rcases reply_cases hbegins hreply with ⟨msg, hmsg, rfl, hrefused⟩ | ⟨s, rfl, hevent⟩
    · have hno : ¬ bytes "OK" <+: data := hbytes ▸ not_ok_of_isError hmsg
      rw [if_neg (mt hok.mp hno)] at hjudge
      obtain ⟨rfl, rfl⟩ := Prod.mk.inj hjudge
      exact ⟨⟨_, rfl⟩, Or.inr ⟨before, r, after, rfl, hcreds, hbuf,
        Or.inr ⟨rfl, msg, hmsg, hrefused⟩, fun _ => harmless_exchanged hex hcreds hpacket hreply
          hbytes (congrArg Outcome.broker hrefused)⟩⟩
    · rw [if_pos (hok.mpr ⟨s, hbytes.symm⟩)] at hjudge
      obtain ⟨rfl, rfl⟩ := Prod.mk.inj hjudge
      exact ⟨⟨_, rfl⟩, Or.inr ⟨before, r, after, rfl, hcreds, hbuf,
        Or.inl ⟨rfl, hevent, s, hreply⟩, fun hne => absurd rfl hne⟩⟩

/-- The packet of a REGISTER, as the broker reads it. -/
theorem registers_packet {timeoutMs : Nat} {ignorePid : Bool} {r : Request}
    (hname : client.name.chars ≠ [])
    (htimeout : ¬ (timeoutMs < wdClientTimeoutMinMs ∨ timeoutMs > wdClientTimeoutMaxMs))
    (hcreds : r.creds = some creds)
    (hpacket : r.incoming = .packet (registerCmd client.name.chars timeoutMs ignorePid)) :
    Begins r cmdRegister ∧ ∀ args, Registers r creds args ↔
      PlainWord (trim client.name.chars) ∧ args.name.chars = trim client.name.chars ∧
        args.timeoutMs = timeoutMs ∧ args.checkPID = !ignorePid := by
  have hok : (Call.mk client.name timeoutMs ignorePid creds).paramsOk = true := by
    rw [not_or] at htimeout
    simp [Call.paramsOk, hname, htimeout.1, htimeout.2]
  have hr : r = (Call.mk client.name timeoutMs ignorePid creds).request true true r.now r.raw := by
    obtain ⟨rcreds, incoming, now, raw⟩ := r
    obtain rfl : rcreds = some creds := hcreds
    obtain rfl : incoming = .packet (registerCmd client.name.chars timeoutMs ignorePid) := hpacket
    rfl
  rw [hr]
  exact ⟨⟨_, buf_register hok r.now r.raw⟩, registers_iff hok r.now r.raw⟩

/-- What is made of the answer to a REGISTER, from its bytes. -/
theorem readResponse_judge {data : List Byte} (hdata : data ≠ []) :
    readResponse client.clientID (.packet data) =
      ((judgeRegister client (cstr (data.take (128 - 1)))).2,
        (judgeRegister client (cstr (data.take (128 - 1)))).1.clientID) := by
  have hpos := List.length_pos_iff.mpr hdata
  have hlen : 0 < ((data.take (128 - 1)).length : Int) := by
    simp only [List.length_take]
    omega
  unfold readResponse readWithTimeout judgeRegister
  dsimp only
  rw [if_neg (by omega), if_neg (by omega)]
  split <;> rfl

/-- A REGISTER is refused, or a slot is filled and its ID is the answer. -/
theorem register_reply {r : Request} {reply : Reply} (hb : WellFormed b)
    (hcmd : Begins r cmdRegister) (hreply : (handleCommand b r).replies = [reply]) :
    (∃ msg, IsError msg ∧ reply = .text msg ∧ command b r = b) ∨
      ∃ c args id, Registers r c args ∧ reply = .text (okID id) ∧ IsClientID id := by
  rcases reply_cases (Or.inl hcmd) hreply with ⟨msg, hmsg, rfl, hrefused⟩ | ⟨s, rfl, -⟩
  · exact Or.inl ⟨msg, hmsg, rfl, congrArg Outcome.broker hrefused⟩
  · obtain ⟨c, args, i, _, hreq, -, -, hevent, -⟩ := registered_of_ok hcmd ⟨s, hreply⟩
    have hfill : filled (handleCommand b r) =
        some (i, (deref (handleCommand b r).broker.clients i).clientID) := by
      unfold filled
      rw [hevent]
    obtain ⟨-, hok, hid⟩ := filled_some hb hfill
    exact Or.inr ⟨c, args, _, hreq, List.singleton_inj.mp (hreply.symm.trans hok), hid⟩

/-- What a REGISTER with the client's name and these arguments has got. -/
structure Registered (creds : Ucred) (b : Broker) (r : Request) (client client' : WdClient)
    (timeoutMs : Nat) (ignorePid : Bool) (args : RegisterArgs) : Prop where
  request : Registers r creds args
  name : args.name.chars = trim client.name.chars
  timeout : args.timeoutMs = timeoutMs
  checkPID : args.checkPID = !ignorePid
  answer : RegistersAs b r creds client'.clientID
  clientID : IsClientID client'.clientID

/-- **REGISTER**: a code other than success leaves the clientID alone; success means
    that the broker has given out the clientID that the client has now. -/
theorem register_settled {timeoutMs : Nat} {ignorePid : Bool} (hb : WellFormed b)
    (h : Exec (wdClientRegister client timeoutMs ignorePid) calls (.done (client', code)))
    (htalk : Talks creds b none calls rs) :
    (Failed code ∧ Restated client client' ∧ Harmless creds b calls rs) ∨
      ∃ before r after args, rs = before ++ r :: after ∧ code = wdClientOk ∧
        Registered creds (commands b before) r client client' timeoutMs ignorePid args := by
  unfold wdClientRegister at h
  split at h
  · obtain ⟨rfl, heq⟩ := exec_pure_done.mp h
    obtain ⟨rfl, rfl⟩ := Prod.mk.inj heq
    exact Or.inl ⟨Or.inr (Or.inl rfl), ⟨_, rfl⟩, harmless_of_noAnswer (noAnswer_of_ops (by simp))⟩
  next hname =>
  split at h
  · obtain ⟨rfl, heq⟩ := exec_pure_done.mp h
    obtain ⟨rfl, rfl⟩ := Prod.mk.inj heq
    exact Or.inl ⟨Or.inr (Or.inl rfl), ⟨_, rfl⟩, harmless_of_noAnswer (noAnswer_of_ops (by simp))⟩
  next htimeout =>
  obtain ⟨front, ⟨client₁, ret⟩, rest, rfl, hversion, hrest⟩ := exec_bind_done.mp h
  obtain ⟨⟨text, rfl⟩, hharmless, hret⟩ := version_settled hversion (talks_front htalk)
  dsimp only at hrest
  split at hrest
  · next hne =>
    obtain ⟨rfl, heq⟩ := exec_pure_done.mp hrest
    obtain ⟨rfl, rfl⟩ := Prod.mk.inj heq
    rw [List.append_nil]
    exact Or.inl ⟨hret.resolve_right hne, ⟨text, rfl⟩, hharmless⟩
  -- the version check is over, and the broker may have served others with it
  obtain ⟨first, rs', sent', rfl, -, htalk'⟩ := talks_split front htalk
  rcases exec_sendCommand (by decide) hrest with
    ⟨hno, herr, text', rfl⟩ | ⟨data, client₂, hdata, hex, ⟨text', rfl⟩, hjudge⟩
  · exact Or.inl ⟨herr, ⟨text', rfl⟩, harmless_append hharmless (harmless_of_noAnswer hno)⟩
  · obtain ⟨before, r, after, reply, rfl, hcreds, hpacket, hreply, hbytes⟩ :=
      exchanged_handled hex htalk' hdata
    obtain ⟨hcmd, hargs⟩ := registers_packet hname htimeout hcreds hpacket
    have hread := @readResponse_judge ((client.setStatus text).setStatus text') _ hdata
    rw [hjudge] at hread
    have hwell : WellFormed (commands (commands b first) before) :=
      wellFormed_commands (wellFormed_commands hb first) before
    rcases register_reply hwell hcmd hreply with
      ⟨msg, hmsg, rfl, hsame⟩ | ⟨c, args, id, hreq, rfl, hid⟩
    · have hok : strncmpEq (cstr (data.take (128 - 1))) (bytes "OK ") 3 = true ↔
          bytes "OK " <+: data := begins_iff (by decide) (by decide)
      have hno : ¬ bytes "OK " <+: data := by
        rw [hbytes]
        exact fun hpre => not_ok_of_isError hmsg (List.IsPrefix.trans ⟨bytes " ", rfl⟩ hpre)
      unfold judgeRegister at hjudge
      rw [if_neg (mt hok.mp hno)] at hjudge
      obtain ⟨rfl, rfl⟩ := Prod.mk.inj hjudge
      exact Or.inl ⟨Or.inl rfl, ⟨_, rfl⟩, harmless_append hharmless
        (harmless_exchanged hex hcreds hpacket hreply hbytes hsame)⟩
    · rw [hbytes, show (Reply.text (okID id)).bytes = okID id from rfl,
        readResponse_okID _ hid] at hread
      obtain ⟨hcode, hclientID⟩ := Prod.mk.inj hread
      dsimp only at hcode hclientID
      obtain ⟨s, hc, hbuf, hparse⟩ := hreq
      obtain rfl := Option.some.inj (hcreds.symm.trans hc)
      obtain ⟨-, hargname, hargtimeout, hargcheck⟩ := (hargs args).mp ⟨s, hc, hbuf, hparse⟩
      rw [← commands_append] at hreply
      refine Or.inr ⟨first ++ before, r, after, args, by rw [List.append_assoc], hcode.symm, ?_⟩
      exact ⟨⟨s, hc, hbuf, hparse⟩, hargname, hargtimeout, hargcheck,
        ⟨⟨s, hc, hbuf⟩, hclientID ▸ hreply⟩, hclientID ▸ hid⟩

-- ── a code that reports success ───────────────────────────────────────────────

/-- What the broker has done with the command of a call that reports success.  The ID of
    the other two is read in the packet, where it stands as the client has it. -/
def Performed (creds : Ucred) (b : Broker) (r : Request) (client client' : WdClient) :
    ApiCall → Prop
  | .register timeoutMs ignorePid => ∃ (i : Nat) (c : Client),
      (command b r).clients.slots[i]? = some c ∧ c.active = true ∧
        c.clientID = client'.clientID ∧ c.name.chars = trim client.name.chars ∧
        c.timeoutMs = timeoutMs ∧ c.pid = creds.pid ∧ c.checkPID = !ignorePid ∧ c.lastPing = r.now
  | .ping => ∃ (i : Nat) (c : Client), b.clients.slots[i]? = some c ∧ c.live = true ∧
      Names (client.clientID.chars ++ bytes "\n") c.clientID ∧
      command b r = { b with clients := b.clients.update i (pingSlot r.now) }
  | .unregister => ∃ (i : Nat) (c : Client), b.clients.slots[i]? = some c ∧ c.live = true ∧
      Names (client.clientID.chars ++ bytes "\n") c.clientID ∧
      command b r = { b with clients := b.clients.update i unregisterSlot }

/-- A REGISTER that was answered with an ID has filled a slot under this ID. -/
theorem Registered.performed {r : Request} {timeoutMs : Nat} {ignorePid : Bool}
    {args : RegisterArgs} (h : Registered creds b r client client' timeoutMs ignorePid args) :
    Performed creds b r client client' (.register timeoutMs ignorePid) := by
  obtain ⟨s, hc, hbuf, hparse⟩ := h.request
  have hreply : (handleCommand b r).replies = [.text (okID client'.clientID)] := h.answer.2
  obtain ⟨_, _, _, _, -, -, -, hevent, -⟩ := registered_of_ok ⟨s, hbuf⟩ ⟨_, hreply⟩
  have hh := handled b r
  show ∃ (i : Nat) (c : Client), (command b r).clients.slots[i]? = some c ∧ _
  unfold command
  generalize handleCommand b r = o at hh hreply hevent ⊢
  cases hh with
  | kept _ _ hnone _ => cases hnone.symm.trans hevent
  | registered creds' args' i c hreq hget hslot =>
      obtain ⟨s', hc', hbuf', hparse'⟩ := hreq
      obtain rfl := Option.some.inj (hc.symm.trans hc')
      obtain rfl := List.append_cancel_left (Option.some.inj (hbuf.symm.trans hbuf'))
      obtain rfl := Except.ok.inj (hparse.symm.trans hparse')
      refine ⟨i, registerSlot args creds.pid r.now r.raw c, ?_, rfl,
        okID_inj (Reply.text.inj (List.singleton_inj.mp hreply)), ?_, h.timeout, rfl, h.checkPID,
        rfl⟩
      · rw [Table.update_self, hslot]
        rfl
      · rw [registerSlot_name]
        exact h.name
  | pinged => cases hevent
  | unregistered => cases hevent

/-- A command with an ID that acts does so on a live slot that holds this ID. -/
theorem performed_id {api : ApiCall} {cmd : List Byte} {r : Request}
    (hapi : api = .ping ∧ cmd = cmdPing ∨ api = .unregister ∧ cmd = cmdUnregister)
    (hbuf : r.buf = some (cmd ++ (client.clientID.chars ++ bytes "\n")))
    (hevent : (handleCommand b r).event ≠ none) : Performed creds b r client client' api := by
  have hh := handled b r
  have hbegins : Begins r cmd := ⟨_, hbuf⟩
  rcases hapi with ⟨rfl, rfl⟩ | ⟨rfl, rfl⟩
  · show ∃ (i : Nat) (c : Client), _ ∧ _ ∧ _ ∧ (handleCommand b r).broker = _
    generalize handleCommand b r = o at hh hevent ⊢
    cases hh with
    | kept _ _ hnone _ => exact absurd hnone hevent
    | registered _ _ _ _ hreq _ _ =>
        obtain ⟨s, -, hbuf', -⟩ := hreq
        exact absurd ⟨s, hbuf'⟩ (not_begins hbegins ⟨0, 80, by decide, 82, by decide, by decide⟩)
    | pinged _ id i c hreq hslot hlive hid hpid =>
        obtain ⟨s, -, hbuf', hnames⟩ := hreq
        obtain rfl := List.append_cancel_left (Option.some.inj (hbuf.symm.trans hbuf'))
        exact ⟨i, c, hslot, hlive, hid ▸ hnames, rfl⟩
    | unregistered _ _ _ _ hreq _ _ _ _ =>
        obtain ⟨s, -, hbuf', -⟩ := hreq
        exact absurd ⟨s, hbuf'⟩ (not_begins hbegins ⟨0, 80, by decide, 85, by decide, by decide⟩)
  · show ∃ (i : Nat) (c : Client), _ ∧ _ ∧ _ ∧ (handleCommand b r).broker = _
    generalize handleCommand b r = o at hh hevent ⊢
    cases hh with
    | kept _ _ hnone _ => exact absurd hnone hevent
    | registered _ _ _ _ hreq _ _ =>
        obtain ⟨s, -, hbuf', -⟩ := hreq
        exact absurd ⟨s, hbuf'⟩ (not_begins hbegins ⟨0, 85, by decide, 82, by decide, by decide⟩)
    | pinged _ _ _ _ hreq _ _ _ _ =>
        obtain ⟨s, -, hbuf', -⟩ := hreq
        exact absurd ⟨s, hbuf'⟩ (not_begins hbegins ⟨0, 85, by decide, 80, by decide, by decide⟩)
    | unregistered _ id i c hreq hslot hlive hid hperm =>
        obtain ⟨s, -, hbuf', hnames⟩ := hreq
        obtain rfl := List.append_cancel_left (Option.some.inj (hbuf.symm.trans hbuf'))
        exact ⟨i, c, hslot, hlive, hid ▸ hnames, rfl⟩

/-- What a call with an ID returns, and what the broker has done. -/
theorem sendCommandID_truthful {keyword cmd : List Byte} {api : ApiCall}
    (hapi : api = .ping ∧ cmd = cmdPing ∨ api = .unregister ∧ cmd = cmdUnregister)
    (h : Exec (sendCommandID client keyword cmd) calls (.done (client', code)))
    (htalk : Talks creds b none calls rs) :
    (code = wdClientOk → ∃ before r after, rs = before ++ r :: after ∧ r.creds = some creds ∧
      Performed creds (commands b before) r client client' api) ∧
    (code ≠ wdClientOk → Restated client client' ∧ Harmless creds b calls rs) ∧
    code ≠ wdClientEversion := by
  have hcmd : cmd = cmdPing ∨ cmd = cmdUnregister := by
    rcases hapi with ⟨-, rfl⟩ | ⟨-, rfl⟩
    · exact Or.inl rfl
    · exact Or.inr rfl
  obtain ⟨hstat, ⟨hno, herr⟩ | ⟨before, r, after, rfl, hcreds, hbuf, hsettled, hharmless⟩⟩ :=
    sendCommandID_settled hcmd h htalk
  · exact ⟨fun hok => absurd hok herr.ne_ok, fun _ => ⟨hstat, harmless_of_noAnswer hno⟩,
      herr.ne_eversion⟩
  · refine ⟨fun hok => ⟨before, r, after, rfl, hcreds, ?_⟩, fun hne => ⟨hstat, hharmless hne⟩, ?_⟩
    · rcases hsettled with ⟨-, hevent, -⟩ | ⟨rfl, -⟩
      · exact performed_id hapi hbuf hevent
      · exact absurd hok (by decide)
    · rcases hsettled with ⟨rfl, -⟩ | ⟨rfl, -⟩ <;> decide

/-- **CODES**: let a call of the interface return while the broker serves whomever it
    likes.  If the code is success, the broker has handled the command of the call and
    has done what was asked for, under the clientID that the client has now.  If it is
    not, then the client is the same but for its status, and each command whose answer
    the call has read has changed nothing.  No call finds the versions incompatible. -/
theorem codes_truthful {api : ApiCall} (hb : Reachable b)
    (hexec : Exec (api.run client) calls (.done (client', code)))
    (htalk : Talks creds b none calls rs) :
    (code = wdClientOk → ∃ before r after, rs = before ++ r :: after ∧ r.creds = some creds ∧
      Performed creds (commands b before) r client client' api) ∧
    (code ≠ wdClientOk → Restated client client' ∧ Harmless creds b calls rs) ∧
    code ≠ wdClientEversion := by
  cases api with
  | register timeoutMs ignorePid =>
      rcases register_settled (wellFormed_of_reachable hb) hexec htalk with
        ⟨herr, hstat, hharmless⟩ | ⟨before, r, after, args, rfl, rfl, hreg⟩
      · exact ⟨fun hok => absurd hok herr.ne_ok, fun _ => ⟨hstat, hharmless⟩, herr.ne_eversion⟩
      · obtain ⟨s, hc, -⟩ := hreg.request
        exact ⟨fun _ => ⟨before, r, after, rfl, hc, hreg.performed⟩, fun hne => absurd rfl hne,
          by decide⟩
  | ping => exact sendCommandID_truthful (Or.inl ⟨rfl, rfl⟩) hexec htalk
  | unregister => exact sendCommandID_truthful (Or.inr ⟨rfl, rfl⟩) hexec htalk

-- a broker without clients, and a client that registers with it

def aBroker : Broker := ⟨Table.zero, Parse.init.config, true, false⟩

def aRegister : Calls :=
  exchange aClient.socketPath.chars (bytes "VERSION\n") (Reply.buffer versionMsg).bytes ++
    (exchange aClient.socketPath.chars (bytes "REGISTER a 5000\n")
      (Reply.text (okID aClientID)).bytes ++ [])

def aSession : List Request := [userRequest 7 "VERSION\n", userRequest 7 "REGISTER a 5000\n"]

theorem exec_aRegister : ∃ client₁, client₁.clientID = aClientID ∧
    client₁.socketPath = aClient.socketPath ∧
    Exec (wdClientRegister aClient 5000 false) aRegister (.done (client₁, wdClientOk)) := by
  have hversion : judgeVersion (connectedTo aClient)
      (cstr ((Reply.buffer versionMsg).bytes.take (128 - 1)))
        = (connectedTo aClient, wdClientOk) := by
    unfold judgeVersion
    rw [found_version]
    rfl
  have hcmd : registerCmd (connectedTo aClient).name.chars 5000 false =
      bytes "REGISTER a 5000\n" := by decide
  refine ⟨(judgeRegister (connectedTo (connectedTo aClient)) (cstr ((okID aClientID).take
    (128 - 1)))).1, by decide +kernel, rfl, ?_⟩
  refine exec_bind_done.mpr ⟨_, _, _, rfl, exec_version_answered (by decide) (by decide), ?_⟩
  rw [hversion, List.append_nil]
  dsimp only
  rw [if_neg (by decide), hcmd]
  exact exec_answered (by decide) (by decide)

theorem talks_aRegister : Talks ⟨7, 1000⟩ aBroker none aRegister aSession :=
  talks_answered rfl rfl (by decide +kernel) (talks_answered rfl rfl (by decide +kernel) trivial)

theorem codes_truthful_register : ∃ client₁ before r after, aSession = before ++ r :: after ∧
    r.creds = some ⟨7, 1000⟩ ∧
    Performed ⟨7, 1000⟩ (commands aBroker before) r aClient client₁ (.register 5000 false) := by
  obtain ⟨client₁, -, -, hexec⟩ := exec_aRegister
  have hb : Reachable aBroker := ⟨some [], _, _, _, [], boot_empty, rfl⟩
  exact ⟨client₁,
    (@codes_truthful _ _ _ _ _ _ _ (.register 5000 false) hb hexec talks_aRegister).1 rfl⟩

-- ── a session ─────────────────────────────────────────────────────────────────

/-- A call that has got an answer. -/
def Answered (calls : Calls) : Prop :=
  ∃ fd data, data ≠ [] ∧ ⟨.read fd, .packet data⟩ ∈ calls

section
variable {text : List Byte} {clock : Nat → Timespec} {raws : Nat → Raw} {b₀ : Broker}
  {us vs : List Request} {q : Request} {x : CStr wdClientIDLen}

end

end WdLibrary
