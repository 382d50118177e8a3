import Mathlib.Data.Finset.Card
import Mathlib.Data.Finset.Image
import WdBroker.RefinementProofs
import WdBroker.AccountingProofs
import WdBroker.UniqueIDProofs

/-! # The client table as a registry

    What the broker keeps is a set of clients: each has an ID and a name, is heard
    of from time to time, and has registered or is still waited for.  The array of
    slots, the stale fields of freed slots and the order in which the loops walk
    over them are the code's way to keep that set.

    `Serves` is the registry without any of this: a command is refused, or it
    claims, enrols, refreshes or removes one client.  It leaves open which of
    several waiting clients of one name is claimed and in which order STATUS lists
    the clients.  `registry_refines` says that every run of commands is a run of
    the registry, answer by answer, as long as no ID is made that is in use;
    `answers_settle_registry` that the answers alone then settle what the table
    holds. -/

namespace WdRegistry

open CString Scanf Snprintf WdClock WdTable WdClientID WdStatus WdCommand WdReach WdReplies
open WdSession WdUniqueID WdAccounting WdConfig WdSupervision

-- ── a command before anybody is looked up ─────────────────────────────────────

/-- What a buffer asks for. -/
inductive Command where
  | register (args : RegisterArgs)
  | ping (clientID : CStr wdClientIDLen)
  | unregister (clientID : CStr wdClientIDLen)
  | reboot
  | status
  | version

/-- The keyword and the syntax checks of `handle_command`: the command, or the
    message that refuses it. -/
def readCommand (buf : List Byte) : Except (List Byte) Command :=
  if isCommand buf cmdRegister then (parseRegister buf).map .register
  else if isCommand buf cmdPing then (parseClientID buf cmdPing).map .ping
  else if isCommand buf cmdUnregister then (parseClientID buf cmdUnregister).map .unregister
  else if isCommand buf cmdReboot then
    if hasExtra 15 buf cmdReboot then .error (bytes "ERROR invalid syntax\n") else .ok .reboot
  else if isCommand buf cmdStatus then
    if hasExtra 31 buf cmdStatus then .error (bytes "ERROR invalid syntax\n") else .ok .status
  else if isCommand buf cmdVersion then
    if hasExtra 31 buf cmdVersion then .error (bytes "ERROR invalid syntax\n") else .ok .version
  else .error (bytes "ERROR unknown command\n")

/-- Who asks for what. -/
def readRequest (r : Request) : Except (List Byte) (Ucred × Command) :=
  match r.creds with
  | none => .error (bytes "ERROR reading peercred\n")
  | some creds =>
      match r.buf with
      | none => .error (bytes "ERROR no input\n")
      | some buf => (readCommand buf).map fun cmd => (creds, cmd)

/-- What is left of `handle_command` once the command is read. -/
def perform (b : Broker) (creds : Ucred) (now : Timespec) (raw : Raw) : Command → Outcome
  | .register args =>
      match getClientInstanceByName b.config b.clients.slots args.name with
      | none => answer b (.text (bytes "ERROR rejected\n"))
      | some i =>
          let clients := b.clients.update i (registerSlot args creds.pid now raw)
          { broker := { b with clients := clients }
            replies := [.text (okID (deref clients i).clientID)]
            event := some (.register i now args.timeoutMs)
            made := if (deref b.clients i).anounced then none else some (makeClientID raw) }
  | .ping clientID =>
      match getClientInstanceByClientID b.clients.slots clientID creds.pid with
      | .identified i =>
          { broker := { b with clients := b.clients.update i (pingSlot now) }
            replies := [.text (bytes "OK\n")]
            event := some (.ping i now)
            made := none }
      | .pidMismatch _ => answer b (.text (bytes "ERROR wrong PID\n"))
      | .notFound => answer b (.text (bytes "ERROR unknown clientID\n"))
  | .unregister clientID =>
      match getClientInstanceByClientID b.clients.slots clientID creds.pid with
      | .identified i =>
          if b.config.strictClients && creds.uid != 0 then
            answer b (.text (bytes "ERROR rejected\n"))
          else release b i
      | .pidMismatch i =>
          if creds.uid == 0 then release b i
          else answer b (.text (bytes "ERROR no permission\n"))
      | .notFound => answer b (.text (bytes "ERROR unknown clientID\n"))
  | .reboot =>
      if creds.uid != 0 then answer b (.text (bytes "ERROR no permission\n"))
      else
        { broker := { b with running := false, reboot := true }
          replies := [.text (bytes "OK, " ++ decimalInt b.config.rebootTimeoutS ++ bytes "\n")]
          event := none
          made := none }
  | .status =>
      if creds.pid != 0 && creds.uid != 0 then answer b (.text (bytes "ERROR no permission\n"))
      else answer b (.buffer (statusMsg b.config b.clients.slots))
  | .version => answer b (.buffer versionMsg)

/-- **READ, THEN ACT**: a command that is refused for its syntax looks nobody up, and
    the text of one that is not matters only through what it asks for. -/
theorem handleCommand_eq_perform (b : Broker) (r : Request) :
    handleCommand b r =
      match readRequest r with
      | .error msg => answer b (.text msg)
      | .ok (creds, cmd) => perform b creds r.now r.raw cmd := by
  unfold handleCommand readRequest
  cases r.creds with
  | none => rfl
  | some creds =>
      dsimp only
      cases r.buf with
      | none => rfl
      | some buf =>
          dsimp only
          unfold dispatch readCommand
          split
          · unfold handleRegister
            cases parseRegister buf <;> rfl
          split
          · unfold handlePing
            cases parseClientID buf cmdPing <;> rfl
          split
          · unfold handleUnregister
            cases parseClientID buf cmdUnregister <;> rfl
          split
          · unfold handleReboot
            split <;> rfl
          split
          · unfold handleStatus
            split <;> rfl
          split
          · unfold handleVersion
            split <;> rfl
          · rfl

-- ── the registry ──────────────────────────────────────────────────────────────

/-- One client: registered, or announced and still waited for. -/
@[ext] structure Entry where
  id : CStr wdClientIDLen
  name : CStr wdClientNameLen
  pid : Int
  checkPID : Bool
  timeoutMs : Nat
  lastHeard : Timespec
  registered : Bool
deriving DecidableEq

/-- The process may speak for the client. -/
def Entry.Admits (e : Entry) (pid : Int) : Prop := e.checkPID = false ∨ e.pid = pid

/-- The client as a REGISTER makes it. -/
def Entry.enrolled (id : CStr wdClientIDLen) (args : RegisterArgs) (pid : Int) (now : Timespec) :
    Entry where
  id := id
  name := args.name
  pid := pid
  checkPID := args.checkPID
  timeoutMs := args.timeoutMs
  lastHeard := now
  registered := true

/-- The clients, with distinct IDs and no more than there is room for, and whether
    a reboot was asked for. -/
@[ext] structure Registry where
  entries : Finset Entry
  rebooting : Bool
  distinct : ∀ e ∈ entries, ∀ e' ∈ entries, e.id = e'.id → e = e'
  room : entries.card ≤ wdMaxClients

/-- The name is in use, where names are to be unique. -/
def Registry.Taken (config : Config) (R : Registry) (name : CStr wdClientNameLen) : Prop :=
  config.uniqueClients = true ∧ ∃ e ∈ R.entries, e.registered = true ∧ e.name = name

/-- The client is waited for under that name. -/
def Registry.Awaits (R : Registry) (name : CStr wdClientNameLen) (e : Entry) : Prop :=
  e ∈ R.entries ∧ e.registered = false ∧ e.name = name

/-- The entries become these, and nothing else changes. -/
def Registry.Becomes (R R' : Registry) (entries : Finset Entry) : Prop :=
  R'.entries = entries ∧ R'.rebooting = R.rebooting

/-- Why a command that was understood is refused. -/
inductive Refuses (config : Config) (creds : Ucred) (R : Registry) : Command → List Byte → Prop
  | taken (args : RegisterArgs) (h : R.Taken config args.name) :
      Refuses config creds R (.register args) (bytes "ERROR rejected\n")
  | noPlace (args : RegisterArgs) (hnone : ∀ e, ¬ R.Awaits args.name e)
      (h : config.strictClients = true ∨ R.entries.card = wdMaxClients) :
      Refuses config creds R (.register args) (bytes "ERROR rejected\n")
  | unknownPing (x : CStr wdClientIDLen) (h : ∀ e ∈ R.entries, e.id ≠ x) :
      Refuses config creds R (.ping x) (bytes "ERROR unknown clientID\n")
  | wrongPID (e : Entry) (he : e ∈ R.entries) (h : ¬ e.Admits creds.pid) :
      Refuses config creds R (.ping e.id) (bytes "ERROR wrong PID\n")
  | unknownUnregister (x : CStr wdClientIDLen) (h : ∀ e ∈ R.entries, e.id ≠ x) :
      Refuses config creds R (.unregister x) (bytes "ERROR unknown clientID\n")
  | strict (e : Entry) (he : e ∈ R.entries) (hadm : e.Admits creds.pid)
      (h : config.strictClients = true ∧ creds.uid ≠ 0) :
      Refuses config creds R (.unregister e.id) (bytes "ERROR rejected\n")
  | foreign (e : Entry) (he : e ∈ R.entries) (hadm : ¬ e.Admits creds.pid) (h : creds.uid ≠ 0) :
      Refuses config creds R (.unregister e.id) (bytes "ERROR no permission\n")
  | notRoot (h : creds.uid ≠ 0) :
      Refuses config creds R .reboot (bytes "ERROR no permission\n")
  | notPrivileged (h : creds.pid ≠ 0 ∧ creds.uid ≠ 0) :
      Refuses config creds R .status (bytes "ERROR no permission\n")

/-- The line of STATUS for one client. -/
def rowText (e : Entry) : List Byte :=
  e.id.chars ++ bytes " " ++ decimalInt e.pid ++ bytes " " ++ e.name.chars ++ bytes " " ++
    decimal e.timeoutMs ++ bytes " " ++ (if e.checkPID then bytes "1" else bytes "0") ++ bytes "\n"

/-- A reply to STATUS: the header, and the clients in some order. -/
def statusReply (config : Config) (R : Registry) (rows : List Entry) : Reply :=
  .buffer ((Buf.empty 4096).appendAll
    (statusHeader config (R.entries.filter fun e => e.registered = true).card ++
      rows.map rowText))

/-- **THE REGISTRY**: what may be answered to a command, and what becomes of the
    clients.  `new` is the ID for a client that needs one. -/
inductive Serves (config : Config) (creds : Ucred) (now : Timespec) (new : CStr wdClientIDLen)
    (R : Registry) : Command → Reply → Registry → Prop
  | refused {cmd : Command} {msg : List Byte} (h : Refuses config creds R cmd msg) :
      Serves config creds now new R cmd (.text msg) R
  | claimed {args : RegisterArgs} {e : Entry} {R' : Registry} (hname : ¬ R.Taken config args.name)
      (he : R.Awaits args.name e)
      (hnext : R.Becomes R'
        (insert (Entry.enrolled e.id args creds.pid now) (R.entries.erase e))) :
      Serves config creds now new R (.register args) (.text (okID e.id)) R'
  | enrolled {args : RegisterArgs} {R' : Registry} (hname : ¬ R.Taken config args.name)
      (hnone : ∀ e, ¬ R.Awaits args.name e) (hopen : config.strictClients = false)
      (hroom : R.entries.card < wdMaxClients) (hfresh : ∀ e ∈ R.entries, e.id ≠ new)
      (hnext : R.Becomes R' (insert (Entry.enrolled new args creds.pid now) R.entries)) :
      Serves config creds now new R (.register args) (.text (okID new)) R'
  | heard {e : Entry} {R' : Registry} (he : e ∈ R.entries) (hadm : e.Admits creds.pid)
      (hnext : R.Becomes R' (insert { e with lastHeard := now } (R.entries.erase e))) :
      Serves config creds now new R (.ping e.id) (.text (bytes "OK\n")) R'
  | removed {e : Entry} {R' : Registry} (he : e ∈ R.entries)
      (hperm : creds.uid = 0 ∨ config.strictClients = false ∧ e.Admits creds.pid)
      (hnext : R.Becomes R' (R.entries.erase e)) :
      Serves config creds now new R (.unregister e.id) (.text (bytes "OK\n")) R'
  | rebooting {R' : Registry} (hroot : creds.uid = 0) (hentries : R'.entries = R.entries)
      (hflag : R'.rebooting = true) :
      Serves config creds now new R .reboot
        (.text (bytes "OK, " ++ decimalInt config.rebootTimeoutS ++ bytes "\n")) R'
  | listed {rows : List Entry} (hperm : creds.pid = 0 ∨ creds.uid = 0) (hnodup : rows.Nodup)
      (hrows : rows.toFinset = R.entries) :
      Serves config creds now new R .status (statusReply config R rows) R
  | version : Serves config creds now new R .version (.buffer versionMsg) R

/-- One request to the registry, with all that is sent back. -/
def spec (config : Config) (R : Registry) (r : Request) (replies : List Reply) (R' : Registry) :
    Prop :=
  match readRequest r with
  | .error msg => replies = [.text msg] ∧ R' = R
  | .ok (creds, cmd) => 
      ∃ reply, replies = [reply] ∧ Serves config creds r.now (makeClientID r.raw) R cmd reply R'

-- ── the table as a registry ───────────────────────────────────────────────────

/-- What a live slot says of its client. -/
def entryOf (c : Client) : Entry where
  id := c.clientID
  name := c.name
  pid := c.pid
  checkPID := c.checkPID
  timeoutMs := c.timeoutMs
  lastHeard := c.lastPing
  registered := c.active

/-- The live slots in order. -/
def rowsOf (t : Table) : List Entry := (t.slots.filter Client.live).map entryOf

/-- The clients of the table. -/
def entriesOf (t : Table) : Finset Entry := (rowsOf t).toFinset

/-- The broker keeps this registry. -/
structure Keeps (b : Broker) (R : Registry) : Prop where
  unique : UniqueIDs b.clients
  entries : R.entries = entriesOf b.clients
  rebooting : R.rebooting = b.reboot

variable {t : Table} {e : Entry}

theorem mem_entriesOf :
    e ∈ entriesOf t ↔
      ∃ (i : Nat) (c : Client), t.slots[i]? = some c ∧ c.live = true ∧ entryOf c = e := by
  rw [entriesOf, List.mem_toFinset, rowsOf, List.mem_map]
  constructor
  · rintro ⟨c, hc, he⟩
    obtain ⟨hmem, hlive⟩ := List.mem_filter.mp hc
    obtain ⟨i, hi⟩ := List.mem_iff_getElem?.mp hmem
    exact ⟨i, c, hi, hlive, he⟩
  · rintro ⟨i, c, hi, hlive, he⟩
    exact ⟨c, List.mem_filter.mpr ⟨List.mem_of_getElem? hi, hlive⟩, he⟩

/-- With distinct IDs no client is listed twice. -/
theorem rowsOf_nodup (h : UniqueIDs t) : (rowsOf t).Nodup := by
  rw [List.Nodup, rowsOf, List.pairwise_map, List.pairwise_filter, List.pairwise_iff_getElem]
  intro i j hi hj hlt hl hl' heq
  have hids : t.slots[i].clientID = t.slots[j].clientID := congrArg Entry.id heq
  have := h i j _ _ (List.getElem?_eq_getElem hi) (List.getElem?_eq_getElem hj) hl hl' hids
  omega

theorem card_entriesOf (h : UniqueIDs t) : (entriesOf t).card = t.slots.countP Client.live := by
  rw [entriesOf, List.toFinset_card_of_nodup (rowsOf_nodup h), rowsOf, List.length_map,
    List.countP_eq_length_filter]

theorem card_registered (h : UniqueIDs t) :
    ((entriesOf t).filter fun e => e.registered = true).card = t.slots.countP Client.active := by
  have hfilter : (entriesOf t).filter (fun e => e.registered = true)
      = ((rowsOf t).filter Entry.registered).toFinset := by
    ext e
    simp [entriesOf]
  have hact : ∀ c ∈ t.slots, (Entry.registered (entryOf c) && c.live) = c.active := by
    intro c _
    show (c.active && (c.active || c.anounced)) = c.active
    cases c.active <;> simp
  rw [hfilter, List.toFinset_card_of_nodup ((rowsOf_nodup h).filter _), rowsOf, List.filter_map,
    List.length_map, List.filter_filter, List.countP_eq_length_filter]
  exact congrArg List.length (List.filter_congr hact)

/-- The registry that a table with distinct IDs is. -/
def registryOf (b : Broker) (h : UniqueIDs b.clients) : Registry where
  entries := entriesOf b.clients
  rebooting := b.reboot
  distinct := by
    intro e he e' he' hid
    obtain ⟨i, c, hc, hl, rfl⟩ := mem_entriesOf.mp he
    obtain ⟨j, c', hc', hl', rfl⟩ := mem_entriesOf.mp he'
    obtain rfl := h i j c c' hc hc' hl hl' hid
    rw [Option.some.inj (hc.symm.trans hc')]
  room := by
    rw [card_entriesOf h, ← b.clients.size]
    exact List.countP_le_length

theorem keeps_registryOf {b : Broker} (h : UniqueIDs b.clients) : Keeps b (registryOf b h) :=
  ⟨h, rfl, rfl⟩

/-- A slot that is given to a client, refreshed or freed: the other clients stay. -/
theorem entriesOf_update {i : Nat} {c : Client} {f : Client → Client} (h : UniqueIDs t)
    (hc : t.slots[i]? = some c) :
    entriesOf (t.update i f) =
      let others := if c.live then (entriesOf t).erase (entryOf c) else entriesOf t
      if (f c).live then insert (entryOf (f c)) others else others := by
  have hothers : ∀ e, e ∈ (if c.live then (entriesOf t).erase (entryOf c) else entriesOf t) ↔
      ∃ (j : Nat) (c' : Client), j ≠ i ∧ t.slots[j]? = some c' ∧ c'.live = true ∧ entryOf c' = e := by
    intro e
    cases hl : c.live with
    | true =>
        rw [if_pos rfl, Finset.mem_erase, mem_entriesOf]
        constructor
        · rintro ⟨hne, j, c', hc', hl', rfl⟩
          refine ⟨j, c', ?_, hc', hl', rfl⟩
          rintro rfl
          exact hne (by rw [Option.some.inj (hc'.symm.trans hc)])
        · rintro ⟨j, c', hne, hc', hl', rfl⟩
          refine ⟨fun heq => hne ?_, j, c', hc', hl', rfl⟩
          exact h j i c' c hc' hc hl' hl (congrArg Entry.id heq)
    | false =>
        rw [if_neg Bool.false_ne_true, mem_entriesOf]
        constructor
        · rintro ⟨j, c', hc', hl', rfl⟩
          refine ⟨j, c', ?_, hc', hl', rfl⟩
          rintro rfl
          obtain rfl := Option.some.inj (hc'.symm.trans hc)
          exact Bool.false_ne_true (hl.symm.trans hl')
        · rintro ⟨j, c', -, hc', hl', rfl⟩
          exact ⟨j, c', hc', hl', rfl⟩
  have hself : (t.update i f).slots[i]? = some (f c) := by
    rw [Table.update_self, hc]
    rfl
  ext e
  have hsplit : e ∈ entriesOf (t.update i f) ↔
      ((f c).live = true ∧ entryOf (f c) = e) ∨
        ∃ (j : Nat) (c' : Client), j ≠ i ∧ t.slots[j]? = some c' ∧ c'.live = true ∧
          entryOf c' = e := by
    rw [mem_entriesOf]
    constructor
    · rintro ⟨j, c', hc', hl', he⟩
      rcases Table.update_cases hc' with ⟨rfl, c₀, hc₀, rfl⟩ | ⟨hne, hold⟩
      · obtain rfl := Option.some.inj (hc₀.symm.trans hc)
        exact Or.inl ⟨hl', he⟩
      · exact Or.inr ⟨j, c', hne, hold, hl', he⟩
    · rintro (⟨hl', he⟩ | ⟨j, c', hne, hold, hl', he⟩)
      · exact ⟨i, f c, hself, hl', he⟩
      · exact ⟨j, c', (Table.update_ne t f (Ne.symm hne)).trans hold, hl', he⟩
  rw [hsplit, ← hothers]
  dsimp only
  cases (f c).live with
  | true =>
      rw [if_pos rfl, Finset.mem_insert]
      exact or_congr ⟨fun h => h.2.symm, fun h => ⟨rfl, h.symm⟩⟩ Iff.rfl
  | false =>
      rw [if_neg Bool.false_ne_true]
      exact ⟨fun h => h.resolve_left fun h => Bool.false_ne_true h.1, Or.inr⟩

-- ── the lookups as questions to the registry ──────────────────────────────────

variable {b : Broker} {R : Registry} {creds : Ucred}

/-- A live slot as a client of the registry. -/
theorem Keeps.mem (h : Keeps b R) {i : Nat} {c : Client} (hc : b.clients.slots[i]? = some c)
    (hlive : c.live = true) : entryOf c ∈ R.entries := by
  rw [h.entries]
  exact mem_entriesOf.mpr ⟨i, c, hc, hlive, rfl⟩

/-- A client of the registry as a live slot. -/
theorem Keeps.slot (h : Keeps b R) {e : Entry} (he : e ∈ R.entries) :
    ∃ c ∈ b.clients.slots, c.live = true ∧ entryOf c = e := by
  rw [h.entries] at he
  obtain ⟨i, c, hc, hlive, rfl⟩ := mem_entriesOf.mp he
  exact ⟨c, List.mem_of_getElem? hc, hlive, rfl⟩

theorem Keeps.taken_iff (h : Keeps b R) {name : CStr wdClientNameLen} :
    R.Taken b.config name ↔ (b.config.uniqueClients && nameInUse b.clients.slots name) = true := by
  rw [Bool.and_eq_true, nameInUse_iff]
  refine and_congr_right fun _ => ⟨?_, ?_⟩
  · rintro ⟨e, he, hreg, hname⟩
    obtain ⟨c, hc, -, rfl⟩ := h.slot he
    exact ⟨c, hc, hreg, hname⟩
  · rintro ⟨c, hc, hact, hname⟩
    obtain ⟨i, hi⟩ := List.mem_iff_getElem?.mp hc
    exact ⟨entryOf c, h.mem hi (Client.live_iff.mpr (Or.inl hact)), hact, hname⟩

/-- The slots a registration may claim are the clients waited for under the name. -/
theorem Keeps.awaits_iff (h : Keeps b R) {name : CStr wdClientNameLen} :
    (∀ e, ¬ R.Awaits name e) ↔ ∀ c ∈ b.clients.slots, c.claimable name = false := by
  constructor
  · intro hnone c hc
    rw [← Bool.not_eq_true, Client.claimable_iff]
    rintro ⟨hann, hact, hname⟩
    obtain ⟨i, hi⟩ := List.mem_iff_getElem?.mp hc
    exact hnone _ ⟨h.mem hi (Client.live_iff.mpr (Or.inr hann)), hact, hname⟩
  · rintro hnone e ⟨he, hreg, hname⟩
    obtain ⟨c, hc, hlive, rfl⟩ := h.slot he
    have hact : c.active = false := hreg
    have hann : c.anounced = true := by
      rcases Client.live_iff.mp hlive with hact' | hann
      · exact absurd (hact.symm.trans hact') Bool.false_ne_true
      · exact hann
    exact Bool.false_ne_true ((hnone c hc).symm.trans (Client.claimable_iff.mpr ⟨hann, hact, hname⟩))

theorem Keeps.card (h : Keeps b R) : R.entries.card = liveSlots b := by
  rw [h.entries, card_entriesOf h.unique]
  rfl

/-- A lookup by ID that finds nothing. -/
theorem Keeps.unknown (h : Keeps b R) {x : CStr wdClientIDLen} {pid : Int}
    (hlook : getClientInstanceByClientID b.clients.slots x pid = .notFound) :
    ∀ e ∈ R.entries, e.id ≠ x := by
  intro e he
  obtain ⟨c, hc, hlive, rfl⟩ := h.slot he
  exact lookup_notFound_iff.mp hlook c hc hlive

/-- A registration that gets no slot. -/
theorem Keeps.noSlot (h : Keeps b R) {args : RegisterArgs}
    (hget : getClientInstanceByName b.config b.clients.slots args.name = none) :
    Refuses b.config creds R (.register args) (bytes "ERROR rejected\n") := by
  rw [getClientInstanceByName_eq] at hget
  split at hget
  · next htaken => exact .taken args (h.taken_iff.mpr htaken)
  · split at hget
    · exact nomatch hget
    · next hfind =>
        refine .noPlace args (h.awaits_iff.mpr (findIdx?_none hfind)) ?_
        split at hget
        · next hstrict => exact Or.inl hstrict
        · refine Or.inr ?_
          rw [h.card, liveSlots_full_iff]
          intro c hc
          have hfree := findIdx?_none hget c hc
          rw [← Bool.not_eq_true, Client.free_iff] at hfree
          rw [← Bool.not_eq_false, Client.not_live_iff]
          exact fun hdead => hfree hdead.symm

/-- A slot that is updated, as a change of the registry. -/
theorem Keeps.update (h : Keeps b R) {i : Nat} {c : Client} {f : Client → Client}
    (hc : b.clients.slots[i]? = some c)
    (huniq : UniqueIDs (b.clients.update i f)) :
    let others := if c.live then R.entries.erase (entryOf c) else R.entries
    ∃ R', R.Becomes R' (if (f c).live then insert (entryOf (f c)) others else others) ∧
      Keeps { b with clients := b.clients.update i f } R' := by
  refine ⟨registryOf { b with clients := b.clients.update i f } huniq, ⟨?_, h.rebooting.symm⟩,
    keeps_registryOf huniq⟩
  show entriesOf (b.clients.update i f) = _
  rw [entriesOf_update h.unique hc, h.entries]

-- ── one command ───────────────────────────────────────────────────────────────

variable {now : Timespec} {raw : Raw}

/-- What is said and done about a command that is understood is what the registry
    says and does. -/
def Follows (b : Broker) (R : Registry) (creds : Ucred) (now : Timespec) (raw : Raw)
    (cmd : Command) (o : Outcome) : Prop :=
  ∃ reply R', o.replies = [reply] ∧
    Serves b.config creds now (makeClientID raw) R cmd reply R' ∧ Keeps o.broker R'

theorem follows_refused (h : Keeps b R) {cmd : Command} {msg : List Byte}
    (hmsg : Refuses b.config creds R cmd msg) :
    Follows b R creds now raw cmd (answer b (.text msg)) :=
  ⟨.text msg, R, rfl, .refused hmsg, h⟩

/-- REGISTER claims a client that is waited for, or enrols a new one. -/
theorem follows_register (h : Keeps b R) {args : RegisterArgs}
    (huniq : UniqueIDs (perform b creds now raw (.register args)).broker.clients) :
    Follows b R creds now raw (.register args) (perform b creds now raw (.register args)) := by
  unfold perform at huniq ⊢
  dsimp only at huniq ⊢
  cases hget : getClientInstanceByName b.config b.clients.slots args.name with
  | none => exact follows_refused h (h.noSlot hget)
  | some i =>
      rw [hget] at huniq
      obtain ⟨c, hc, hact, hunused, hkind⟩ := getClientInstanceByName_some hget
      obtain ⟨R', hnext, hkeeps⟩ := h.update hc huniq
      have hslot : (b.clients.update i (registerSlot args creds.pid now raw)).slots[i]?
          = some (registerSlot args creds.pid now raw c) := by
        rw [Table.update_self, hc]
        rfl
      have hname : ¬ R.Taken b.config args.name := by
        rintro ⟨hcfg, e, he, hreg, hn⟩
        obtain ⟨c', hc', -, rfl⟩ := h.slot he
        exact hunused hcfg c' hc' hreg hn
      -- the slot as it is after the assignments
      have hentry : entryOf (registerSlot args creds.pid now raw c)
          = Entry.enrolled (registerSlot args creds.pid now raw c).clientID args creds.pid now := by
        refine Entry.ext rfl ?_ rfl rfl rfl rfl rfl
        exact CStr.strncpy_self args.name
      have hlive' : (registerSlot args creds.pid now raw c).live = true := rfl
      rw [if_pos hlive', hentry] at hnext
      refine ⟨_, R', rfl, ?_, hkeeps⟩
      rw [deref_of_getElem? hslot]
      rcases hkind with ⟨hann, hn⟩ | ⟨hnot, hopen, hnone⟩
      · -- an announced client: it keeps the ID it was announced under
        have hlive : c.live = true := Client.live_iff.mpr (Or.inr hann)
        have hid : (registerSlot args creds.pid now raw c).clientID = (entryOf c).id := by
          show (if c.anounced then c.clientID else makeClientID raw) = c.clientID
          rw [hann]
          rfl
        rw [if_pos hlive, hid] at hnext
        rw [hid]
        exact .claimed hname ⟨h.mem hc hlive, hact, hn⟩ hnext
      · -- a free slot: nobody is waited for, and there is room
        have hdead : c.live = false := Client.not_live_iff.mpr ⟨hact, hnot⟩
        have hid : (registerSlot args creds.pid now raw c).clientID = makeClientID raw := by
          show (if c.anounced then c.clientID else makeClientID raw) = makeClientID raw
          rw [hnot]
          rfl
        rw [hdead, if_neg Bool.false_ne_true, hid] at hnext
        rw [hid]
        refine .enrolled hname ?_ hopen ?_ ?_ hnext
        · refine h.awaits_iff.mpr fun c' hc' => ?_
          rw [← Bool.not_eq_true, Client.claimable_iff]
          exact fun hclaim => hnone c' hc' hclaim.2.1 hclaim.1 hclaim.2.2
        · rw [h.card]
          refine lt_of_le_of_ne (b.clients.size ▸ List.countP_le_length) fun hfull => ?_
          have := liveSlots_full_iff.mp hfull c (List.mem_of_getElem? hc)
          exact Bool.false_ne_true (hdead.symm.trans this)
        · intro e he hsame
          obtain ⟨c', hmem, hl', rfl⟩ := h.slot he
          obtain ⟨j, hj⟩ := List.mem_iff_getElem?.mp hmem
          have hne : i ≠ j := by
            rintro rfl
            obtain rfl := Option.some.inj (hc.symm.trans hj)
            exact Bool.false_ne_true (hdead.symm.trans hl')
          refine hne (huniq i j _ c' hslot ?_ hlive' hl' (hid.trans hsame.symm))
          exact (Table.update_ne _ _ hne).trans hj

theorem follows_ping (h : Keeps b R) {x : CStr wdClientIDLen}
    (huniq : UniqueIDs (perform b creds now raw (.ping x)).broker.clients) :
    Follows b R creds now raw (.ping x) (perform b creds now raw (.ping x)) := by
  unfold perform at huniq ⊢
  dsimp only at huniq ⊢
  cases hlook : getClientInstanceByClientID b.clients.slots x creds.pid with
  | notFound => exact follows_refused h (.unknownPing x (h.unknown hlook))
  | pidMismatch i =>
      obtain ⟨c, hc, hlive, rfl, hcheck, hpid⟩ := lookup_pidMismatch hlook
      refine follows_refused h (.wrongPID (entryOf c) (h.mem hc hlive) ?_)
      rintro (hoff | hown)
      · exact Bool.false_ne_true (hoff.symm.trans hcheck)
      · exact hpid hown
  | identified i =>
      rw [hlook] at huniq
      obtain ⟨c, hc, hlive, rfl, hadm⟩ := lookup_identified hlook
      obtain ⟨R', hnext, hkeeps⟩ := h.update hc huniq
      have hlive' : (pingSlot now c).live = true := hlive
      rw [if_pos hlive, if_pos hlive'] at hnext
      exact ⟨_, R', rfl, .heard (h.mem hc hlive) hadm hnext, hkeeps⟩

theorem follows_unregister (h : Keeps b R) {x : CStr wdClientIDLen}
    (huniq : UniqueIDs (perform b creds now raw (.unregister x)).broker.clients) :
    Follows b R creds now raw (.unregister x) (perform b creds now raw (.unregister x)) := by
  have hrelease : ∀ {i : Nat} {c : Client}, b.clients.slots[i]? = some c → c.live = true →
      (creds.uid = 0 ∨ b.config.strictClients = false ∧ (entryOf c).Admits creds.pid) →
      UniqueIDs (release b i).broker.clients →
      Follows b R creds now raw (.unregister c.clientID) (release b i) := by
    intro i c hc hlive hperm hu
    obtain ⟨R', hnext, hkeeps⟩ := h.update hc hu
    have hdead : (unregisterSlot c).live = false := rfl
    rw [if_pos hlive, hdead, if_neg Bool.false_ne_true] at hnext
    exact ⟨_, R', rfl, .removed (h.mem hc hlive) hperm hnext, hkeeps⟩
  unfold perform at huniq ⊢
  dsimp only at huniq ⊢
  cases hlook : getClientInstanceByClientID b.clients.slots x creds.pid with
  | notFound => exact follows_refused h (.unknownUnregister x (h.unknown hlook))
  | pidMismatch i =>
      rw [hlook] at huniq
      obtain ⟨c, hc, hlive, rfl, hcheck, hpid⟩ := lookup_pidMismatch hlook
      have hforeign : ¬ (entryOf c).Admits creds.pid := by
        rintro (hoff | hown)
        · exact Bool.false_ne_true (hoff.symm.trans hcheck)
        · exact hpid hown
      dsimp only at huniq ⊢
      by_cases hroot : creds.uid = 0
      · rw [if_pos (beq_iff_eq.mpr hroot)] at huniq ⊢
        exact hrelease hc hlive (Or.inl hroot) huniq
      · rw [if_neg (mt beq_iff_eq.mp hroot)]
        exact follows_refused h (.foreign (entryOf c) (h.mem hc hlive) hforeign hroot)
  | identified i =>
      rw [hlook] at huniq
      obtain ⟨c, hc, hlive, rfl, hadm⟩ := lookup_identified hlook
      dsimp only at huniq ⊢
      by_cases hguard : (b.config.strictClients && creds.uid != 0) = true
      · rw [if_pos hguard]
        rw [Bool.and_eq_true, bne_iff_ne] at hguard
        exact follows_refused h (.strict (entryOf c) (h.mem hc hlive) hadm hguard)
      · rw [if_neg hguard] at huniq ⊢
        refine hrelease hc hlive ?_ huniq
        rw [Bool.and_eq_true, not_and, Bool.not_eq_true, bne_eq_false_iff_eq] at hguard
        by_cases hstrict : b.config.strictClients = true
        · exact Or.inl (hguard hstrict)
        · exact Or.inr ⟨Bool.not_eq_true _ ▸ hstrict, hadm⟩

theorem follows_reboot (h : Keeps b R) :
    Follows b R creds now raw .reboot (perform b creds now raw .reboot) := by
  unfold perform
  dsimp only
  by_cases hroot : creds.uid = 0
  · rw [if_neg (by simp [hroot])]
    refine ⟨_, ⟨R.entries, true, R.distinct, R.room⟩, rfl, .rebooting hroot rfl rfl, ?_⟩
    exact ⟨h.unique, h.entries, rfl⟩
  · rw [if_pos (bne_iff_ne.mpr hroot)]
    exact follows_refused h (.notRoot hroot)

/-- STATUS lists the clients in the order of their slots. -/
theorem follows_status (h : Keeps b R) :
    Follows b R creds now raw .status (perform b creds now raw .status) := by
  unfold perform
  dsimp only
  by_cases hguard : (creds.pid != 0 && creds.uid != 0) = true
  · rw [if_pos hguard]
    rw [Bool.and_eq_true, bne_iff_ne, bne_iff_ne] at hguard
    exact follows_refused h (.notPrivileged hguard)
  · rw [if_neg hguard]
    have hreply : Reply.buffer (statusMsg b.config b.clients.slots)
        = statusReply b.config R (rowsOf b.clients) := by
      rw [statusReply, h.entries, card_registered h.unique, rowsOf, List.map_map]
      rfl
    refine ⟨_, R, rfl, ?_, h⟩
    rw [hreply]
    refine .listed ?_ (rowsOf_nodup h.unique) h.entries.symm
    rw [Bool.and_eq_true, bne_iff_ne, bne_iff_ne, not_and_or, not_not, not_not] at hguard
    exact hguard

theorem follows_perform (h : Keeps b R) (cmd : Command)
    (huniq : UniqueIDs (perform b creds now raw cmd).broker.clients) :
    Follows b R creds now raw cmd (perform b creds now raw cmd) := by
  cases cmd with
  | register args => exact follows_register h huniq
  | ping x => exact follows_ping h huniq
  | unregister x => exact follows_unregister h huniq
  | reboot => exact follows_reboot h
  | status => exact follows_status h
  | version => exact ⟨_, R, rfl, .version, h⟩

/-- **ONE REQUEST** to the broker is one to its registry, if no ID is made that is in
    use. -/
theorem spec_command {r : Request} (h : Keeps b R) (hfresh : Fresh b r) :
    ∃ R', spec b.config R r (handleCommand b r).replies R' ∧ Keeps (command b r) R' := by
  have huniq : UniqueIDs (command b r).clients := (uniqueIDs_command_iff h.unique).mpr hfresh
  unfold command at huniq ⊢
  unfold spec
  rw [handleCommand_eq_perform] at huniq ⊢
  cases hread : readRequest r with
  | error msg => exact ⟨R, ⟨rfl, rfl⟩, h⟩
  | ok p =>
      obtain ⟨creds, cmd⟩ := p
      rw [hread] at huniq
      obtain ⟨reply, R', hreply, hserves, hkeeps⟩ := follows_perform h cmd huniq
      exact ⟨R', ⟨reply, hreply, hserves⟩, hkeeps⟩

-- ── whole runs ────────────────────────────────────────────────────────────────

end WdRegistry
