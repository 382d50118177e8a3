import WdBroker.CStringProofs
import WdBroker.ClockProofs

/-! # The client table and its two lookups

    The broker keeps its clients in an array of `WD_MAX_CLIENTS` slots.  A slot
    is *live* when its client is active (registered) or announced (promised by
    the configuration file and still expected); every other slot is free, but
    keeps the stale fields of its last occupant.

    `getClientInstanceByName` picks the slot for a registration: two scans, the
    second with an early break and a remembered first free slot.
    `getClientInstanceByName_eq` closes both loops into one priority rule; the
    lemmas after it are the only facts about the lookup the rest uses. -/

namespace WdTable

open CString WdClock

def wdMaxClients : Nat := 64
def wdClientNameLen : Nat := 64
def wdClientIDLen : Nat := 17
def wdClientIDFmtLen : Nat := 16
def wdClientTimeoutMinMs : Nat := 5 * 1000
def wdClientTimeoutMaxMs : Nat := 300 * 1000

instance : NeZero wdClientNameLen := ⟨by decide⟩
instance : NeZero wdClientIDLen := ⟨by decide⟩

/-- `client_t`. -/
structure Client where
  clientID : CStr wdClientIDLen
  name : CStr wdClientNameLen
  pid : Int
  timeoutMs : Nat
  lastPing : Timespec
  active : Bool
  anounced : Bool
  checkPID : Bool
deriving DecidableEq

namespace Client

/-- The slot is supervised: its client is registered or still expected. -/
def live (c : Client) : Bool := c.active || c.anounced

/-- A slot as `memset` leaves it. -/
def zero : Client where
  clientID := CStr.empty wdClientIDLen
  name := CStr.empty wdClientNameLen
  pid := 0
  timeoutMs := 0
  lastPing := Timespec.zero
  active := false
  anounced := false
  checkPID := false

theorem live_iff {c : Client} : c.live = true ↔ c.active = true ∨ c.anounced = true := by
  simp [live]

theorem not_live_iff {c : Client} : c.live = false ↔ c.active = false ∧ c.anounced = false := by
  simp [live]

end Client

/-- `wd_config_t`; `sun_path` has 108 bytes on Linux. -/
structure Config where
  socketPath : CStr 108
  wdTimeoutS : Int
  rebootTimeoutS : Int
  strictClients : Bool
  uniqueClients : Bool
deriving DecidableEq

/-- The array `clients[WD_MAX_CLIENTS]`. -/
@[ext] structure Table where
  slots : List Client
  size : slots.length = wdMaxClients
deriving DecidableEq

namespace Table

/-- All slots zeroed. -/
def zero : Table := ⟨List.replicate wdMaxClients Client.zero, by simp⟩

/-- Assign fields of one slot through a pointer to it. -/
def update (t : Table) (i : Nat) (f : Client → Client) : Table :=
  ⟨t.slots.modify i f, by rw [List.length_modify]; exact t.size⟩

@[simp] theorem update_self (t : Table) (i : Nat) (f : Client → Client) :
    (t.update i f).slots[i]? = t.slots[i]?.map f := by
  simp [update]

@[simp] theorem update_ne (t : Table) {i j : Nat} (f : Client → Client) (h : i ≠ j) :
    (t.update i f).slots[j]? = t.slots[j]? := by
  simp [update, h]

/-- Two tables that agree slot by slot are equal. -/
theorem ext_getElem? {t t' : Table} (h : ∀ i : Nat, t.slots[i]? = t'.slots[i]?) : t = t' :=
  Table.ext (List.ext_getElem? h)

/-- The slot at `j` after an update of slot `i`. -/
theorem update_cases {t : Table} {i j : Nat} {f : Client → Client} {c : Client}
    (h : (t.update i f).slots[j]? = some c) :
    (j = i ∧ ∃ c₀, t.slots[i]? = some c₀ ∧ c = f c₀) ∨ (j ≠ i ∧ t.slots[j]? = some c) := by
  by_cases hij : i = j
  · subst hij
    rw [update_self] at h
    obtain ⟨c₀, hc₀, hf⟩ := Option.map_eq_some_iff.mp h
    exact Or.inl ⟨rfl, c₀, hc₀, hf.symm⟩
  · rw [update_ne t f hij] at h
    exact Or.inr ⟨fun hji => hij hji.symm, h⟩

end Table

-- ── the first slot that satisfies a test ──────────────────────────────────────

/-- A loop that stops at the first hit: the hit, and no hit before it. -/
theorem findIdx?_some {α : Type} {p : α → Bool} {l : List α} {i : Nat}
    (h : l.findIdx? p = some i) :
    ∃ a, l[i]? = some a ∧ p a = true ∧ ∀ j a', j < i → l[j]? = some a' → p a' = false := by
  obtain ⟨hi, hp, hbefore⟩ := List.findIdx?_eq_some_iff_getElem.mp h
  refine ⟨l[i], List.getElem?_eq_getElem hi, hp, ?_⟩
  intro j a' hj ha'
  obtain ⟨hjl, rfl⟩ := List.getElem?_eq_some_iff.mp ha'
  simpa using hbefore j hj

theorem findIdx?_none {α : Type} {p : α → Bool} {l : List α}
    (h : l.findIdx? p = none) : ∀ a ∈ l, p a = false := by
  intro a ha
  exact (List.findIdx?_eq_none_iff.mp h) a ha

-- ── lookup by name ────────────────────────────────────────────────────────────

/-- The first loop: is the name held by an active client? -/
def nameInUse (clients : List Client) (name : CStr wdClientNameLen) : Bool :=
  clients.any fun c => c.active && c.name == name

/-- The announced client of that name has not registered yet. -/
def Client.claimable (name : CStr wdClientNameLen) (c : Client) : Bool :=
  c.anounced && !c.active && c.name == name

/-- Neither announced nor active. -/
def Client.free (c : Client) : Bool := !c.anounced && !c.active

/-- The second loop from slot `i` on: the announced slot it breaks at, and the
    first free slot it has passed. -/
def scanByName (name : CStr wdClientNameLen) :
    List Client → Nat → Option Nat → Option Nat × Option Nat
  | [], _, freeSlot => (none, freeSlot)
  | c :: cs, i, freeSlot =>
      if c.claimable name then (some i, freeSlot)
      else
        scanByName name cs (i + 1)
          (if c.free && freeSlot.isNone then some i else freeSlot)

/-- `get_clientInstance_by_name`; the pid is used for the log only. -/
def getClientInstanceByName (config : Config) (clients : List Client)
    (name : CStr wdClientNameLen) : Option Nat :=
  if config.uniqueClients && nameInUse clients name then none
  else
    let (announcedSlot, freeSlot) := scanByName name clients 0 none
    if config.strictClients then announcedSlot
    else
      match announcedSlot with
      | some i => some i
      | none => freeSlot

/-- The scan breaks at the first claimable slot. -/
theorem scanByName_fst (name : CStr wdClientNameLen) (cs : List Client) :
    ∀ (i : Nat) (freeSlot : Option Nat),
      (scanByName name cs i freeSlot).1
        = (cs.findIdx? (Client.claimable name)).map (· + i) := by
  induction cs with
  | nil => intro i freeSlot; rfl
  | cons c cs ih =>
      intro i freeSlot
      rw [scanByName, List.findIdx?_cons]
      by_cases hc : c.claimable name = true
      · rw [if_pos hc, if_pos hc]
        simp
      · rw [if_neg hc, if_neg hc, ih, Option.map_map]
        refine congrArg₂ _ (funext fun k => ?_) rfl
        show k + (i + 1) = k + 1 + i
        omega

/-- A scan that does not break has remembered the first free slot. -/
theorem scanByName_snd (name : CStr wdClientNameLen) (cs : List Client)
    (h : cs.findIdx? (Client.claimable name) = none) :
    ∀ (i : Nat) (freeSlot : Option Nat),
      (scanByName name cs i freeSlot).2
        = freeSlot.or ((cs.findIdx? Client.free).map (· + i)) := by
  induction cs with
  | nil => intro i freeSlot; simp [scanByName]
  | cons c cs ih =>
      intro i freeSlot
      have hc : ¬ c.claimable name = true := by
        simp [findIdx?_none h c List.mem_cons_self]
      have htail : cs.findIdx? (Client.claimable name) = none :=
        List.findIdx?_eq_none_iff.mpr fun a ha => findIdx?_none h a (List.mem_cons_of_mem c ha)
      rw [scanByName, if_neg hc, ih htail, List.findIdx?_cons]
      cases freeSlot with
      | some k => simp
      | none =>
          by_cases hf : c.free = true
          · simp [hf]
          · simp only [hf, Option.isNone_none, Bool.and_true, Bool.false_eq_true, if_false,
              Option.map_map, Option.or]
            refine congrArg₂ _ (funext fun k => ?_) rfl
            show k + (i + 1) = k + 1 + i
            omega

/-- **THE SELECTION RULE**: a used name is refused in unique mode; else the first
    claimable slot; else, unless strict, the first free slot. -/
theorem getClientInstanceByName_eq (config : Config) (clients : List Client)
    (name : CStr wdClientNameLen) :
    getClientInstanceByName config clients name =
      if config.uniqueClients && nameInUse clients name then none
      else
        match clients.findIdx? (Client.claimable name) with
        | some i => some i
        | none => if config.strictClients then none else clients.findIdx? Client.free := by
  unfold getClientInstanceByName
  by_cases hu : (config.uniqueClients && nameInUse clients name) = true
  · rw [if_pos hu, if_pos hu]
  · rw [if_neg hu, if_neg hu]
    have h1 := scanByName_fst name clients 0 none
    cases hfind : clients.findIdx? (Client.claimable name) with
    | some i =>
        rw [hfind] at h1
        simp [h1]
    | none =>
        have h2 := scanByName_snd name clients hfind 0 none
        rw [hfind] at h1
        simp [h1, h2]

/-- What a chosen slot is: an announced slot of that name, or, outside strict
    mode and only if there is no such slot, a free one. -/
theorem getClientInstanceByName_some {config : Config} {clients : List Client}
    {name : CStr wdClientNameLen} {i : Nat}
    (h : getClientInstanceByName config clients name = some i) :
    ∃ c, clients[i]? = some c ∧ c.active = false ∧
      (config.uniqueClients = true → ∀ c' ∈ clients, c'.active = true → c'.name ≠ name) ∧
      ((c.anounced = true ∧ c.name = name) ∨
        (c.anounced = false ∧ config.strictClients = false ∧
          ∀ c' ∈ clients, c'.active = false → c'.anounced = true → c'.name ≠ name)) := by
  rw [getClientInstanceByName_eq] at h
  split at h
  · exact nomatch h
  · next hu =>
      have huniq : config.uniqueClients = true →
          ∀ c' ∈ clients, c'.active = true → c'.name ≠ name := by
        intro hcfg c' hc' hact hname
        refine hu ?_
        rw [hcfg, Bool.true_and]
        exact List.any_eq_true.mpr ⟨c', hc', by simp [hact, hname]⟩
      split at h
      · next k hfind =>
          obtain rfl := Option.some.inj h
          obtain ⟨c, hc, hp, -⟩ := findIdx?_some hfind
          simp only [Client.claimable, Bool.and_eq_true, Bool.not_eq_true', beq_iff_eq] at hp
          exact ⟨c, hc, hp.1.2, huniq, Or.inl ⟨hp.1.1, hp.2⟩⟩
      · next hfind =>
          split at h
          · exact nomatch h
          · next hstrict =>
              obtain ⟨c, hc, hp, -⟩ := findIdx?_some h
              simp only [Client.free, Bool.and_eq_true, Bool.not_eq_true'] at hp
              refine ⟨c, hc, hp.2, huniq, Or.inr ⟨hp.1, by simpa using hstrict, ?_⟩⟩
              intro c' hc' hact hann hname
              have := findIdx?_none hfind c' hc'
              simp [Client.claimable, hact, hann, hname] at this

/-- Slot `i` is the lowest one that satisfies `P`. -/
def Lowest (P : Client → Prop) (clients : List Client) (i : Nat) : Prop :=
  ∃ c, clients[i]? = some c ∧ P c ∧ ∀ (j : Nat) (c' : Client), j < i → clients[j]? = some c' → ¬ P c'

/-- A loop that stops at the first hit stops at the lowest slot. -/
theorem findIdx?_eq_some_of_lowest {P : Client → Prop} {p : Client → Bool} {clients : List Client}
    {i : Nat} (hp : ∀ c, p c = true ↔ P c) (h : Lowest P clients i) :
    clients.findIdx? p = some i := by
  obtain ⟨c, hc, hP, hbefore⟩ := h
  obtain ⟨hi, rfl⟩ := List.getElem?_eq_some_iff.mp hc
  refine List.findIdx?_eq_some_iff_getElem.mpr ⟨hi, (hp _).mpr hP, fun j hj => ?_⟩
  have hjl : j < clients.length := Nat.lt_trans hj hi
  exact fun hpj => hbefore j _ hj (List.getElem?_eq_getElem hjl) ((hp _).mp hpj)

theorem findIdx?_eq_none_of_forall {P : Client → Prop} {p : Client → Bool} {clients : List Client}
    (hp : ∀ c, p c = true ↔ P c) (h : ∀ c ∈ clients, ¬ P c) : clients.findIdx? p = none := by
  refine List.findIdx?_eq_none_iff.mpr fun c hc => ?_
  rw [← Bool.not_eq_true, hp]
  exact h c hc

theorem Client.claimable_iff {name : CStr wdClientNameLen} {c : Client} :
    c.claimable name = true ↔ c.anounced = true ∧ c.active = false ∧ c.name = name := by
  simp [Client.claimable, and_assoc]

theorem Client.free_iff {c : Client} :
    c.free = true ↔ c.anounced = false ∧ c.active = false := by
  simp [Client.free]

theorem nameInUse_iff {clients : List Client} {name : CStr wdClientNameLen} :
    nameInUse clients name = true ↔ ∃ c ∈ clients, c.active = true ∧ c.name = name := by
  simp [nameInUse]

/-- **SLOT SELECTION**: in all four modes, for a table of any length,
    * a name that an active client carries is refused in unique mode;
    * else the lowest announced slot of that name that has not registered is
      taken, wherever free slots lie;
    * else, unless strict, the lowest free slot;
    * else none;
    * an active slot or an announced one of another name is never taken. -/
theorem slot_selection (config : Config) (clients : List Client) (name : CStr wdClientNameLen) :
    let taken := config.uniqueClients = true ∧ ∃ c ∈ clients, c.active = true ∧ c.name = name
    let expected := fun c : Client => c.anounced = true ∧ c.active = false ∧ c.name = name
    let free := fun c : Client => c.anounced = false ∧ c.active = false
    let result := getClientInstanceByName config clients name
    (taken → result = none) ∧
    (¬ taken → ∀ i, Lowest expected clients i → result = some i) ∧
    (¬ taken → (∀ c ∈ clients, ¬ expected c) → config.strictClients = false →
      ∀ i, Lowest free clients i → result = some i) ∧
    (¬ taken → (∀ c ∈ clients, ¬ expected c) →
      (config.strictClients = true ∨ ∀ c ∈ clients, ¬ free c) → result = none) ∧
    (∀ i, result = some i → ∃ c, clients[i]? = some c ∧ c.active = false ∧
      (c.anounced = true → c.name = name)) := by
  intro taken expected free result
  have htaken : (config.uniqueClients && nameInUse clients name) = true ↔ taken := by
    rw [Bool.and_eq_true, nameInUse_iff]
  have hresult : result = _ := getClientInstanceByName_eq config clients name
  refine ⟨?_, ?_, ?_, ?_, ?_⟩
  · intro h
    rw [hresult, if_pos (htaken.mpr h)]
  · intro h i hi
    rw [hresult, if_neg (mt htaken.mp h),
      findIdx?_eq_some_of_lowest (fun _ => Client.claimable_iff) hi]
  · intro h hnone hstrict i hi
    rw [hresult, if_neg (mt htaken.mp h),
      findIdx?_eq_none_of_forall (fun _ => Client.claimable_iff) hnone, hstrict]
    exact findIdx?_eq_some_of_lowest (fun _ => Client.free_iff) hi
  · intro h hnone hrest
    rw [hresult, if_neg (mt htaken.mp h),
      findIdx?_eq_none_of_forall (fun _ => Client.claimable_iff) hnone]
    rcases hrest with hstrict | hfull
    · rw [hstrict]
      rfl
    · dsimp only
      rw [findIdx?_eq_none_of_forall (fun _ => Client.free_iff) hfull, ite_self]
  · intro i hi
    obtain ⟨c, hc, hact, -, hkind⟩ := getClientInstanceByName_some hi
    refine ⟨c, hc, hact, fun hann => ?_⟩
    rcases hkind with ⟨-, hname⟩ | ⟨hno, -⟩
    · exact hname
    · rw [hann] at hno
      exact Bool.noConfusion hno

-- ── lookup by clientID ────────────────────────────────────────────────────────

/-- The results of `get_clientInstance_by_clientID`, with the slot that
    `*client` then points to. -/
inductive Lookup where
  | identified (i : Nat)
  | pidMismatch (i : Nat)
  | notFound
deriving DecidableEq

/-- The slot is live and holds the ID. -/
def Client.holds (clientID : CStr wdClientIDLen) (c : Client) : Bool :=
  (c.active || c.anounced) && strncmpEq c.clientID.chars clientID.chars wdClientIDFmtLen

/-- The sender may use the slot: no PID check, or the right PID. -/
def Client.admits (pid : Int) (c : Client) : Bool := c.checkPID == false || c.pid == pid

/-- `get_clientInstance_by_clientID`. -/
def getClientInstanceByClientID (clients : List Client) (clientID : CStr wdClientIDLen)
    (pid : Int) : Lookup :=
  match clients.findIdx? (Client.holds clientID) with
  | none => .notFound
  | some i =>
      match clients[i]? with
      | none => .notFound
      | some c => if c.admits pid then .identified i else .pidMismatch i

/-- Sixteen compared characters are the whole of an ID array. -/
theorem strncmpEq_clientID {a b : CStr wdClientIDLen} :
    strncmpEq a.chars b.chars wdClientIDFmtLen = true ↔ a = b := by
  have ha : a.chars.length < 17 := a.fits
  have hb : b.chars.length < 17 := b.fits
  unfold strncmpEq wdClientIDFmtLen
  rw [List.take_of_length_le (by omega), List.take_of_length_le (by omega), beq_iff_eq]
  exact ⟨CStr.ext, fun h => by rw [h]⟩

theorem Client.holds_iff {clientID : CStr wdClientIDLen} {c : Client} :
    c.holds clientID = true ↔ c.live = true ∧ c.clientID = clientID := by
  simp only [Client.holds, Client.live, Bool.and_eq_true, strncmpEq_clientID]

theorem Client.admits_iff {pid : Int} {c : Client} :
    c.admits pid = true ↔ c.checkPID = false ∨ c.pid = pid := by
  simp [Client.admits]

/-- An identified slot is live, holds the ID and admits the sender. -/
theorem lookup_identified {clients : List Client} {clientID : CStr wdClientIDLen} {pid : Int}
    {i : Nat} (h : getClientInstanceByClientID clients clientID pid = .identified i) :
    ∃ c, clients[i]? = some c ∧ c.live = true ∧ c.clientID = clientID ∧
      (c.checkPID = false ∨ c.pid = pid) := by
  unfold getClientInstanceByClientID at h
  split at h
  · exact nomatch h
  · next k hfind =>
      obtain ⟨c, hc, hp, -⟩ := findIdx?_some hfind
      rw [hc] at h
      dsimp only at h
      split at h
      · next hadm =>
          obtain rfl := Lookup.identified.inj h
          obtain ⟨hlive, hid⟩ := Client.holds_iff.mp hp
          exact ⟨c, hc, hlive, hid, Client.admits_iff.mp hadm⟩
      · exact nomatch h

/-- A slot found under a foreign PID is live and holds the ID. -/
theorem lookup_pidMismatch {clients : List Client} {clientID : CStr wdClientIDLen} {pid : Int}
    {i : Nat} (h : getClientInstanceByClientID clients clientID pid = .pidMismatch i) :
    ∃ c, clients[i]? = some c ∧ c.live = true ∧ c.clientID = clientID ∧
      c.checkPID = true ∧ c.pid ≠ pid := by
  unfold getClientInstanceByClientID at h
  split at h
  · exact nomatch h
  · next k hfind =>
      obtain ⟨c, hc, hp, -⟩ := findIdx?_some hfind
      rw [hc] at h
      dsimp only at h
      split at h
      · exact nomatch h
      · next hadm =>
          obtain rfl := Lookup.pidMismatch.inj h
          obtain ⟨hlive, hid⟩ := Client.holds_iff.mp hp
          rw [Client.admits_iff, not_or, Bool.not_eq_false] at hadm
          exact ⟨c, hc, hlive, hid, hadm⟩

/-- No slot is found exactly when no live slot holds the ID. -/
theorem lookup_notFound_iff {clients : List Client} {clientID : CStr wdClientIDLen} {pid : Int} :
    getClientInstanceByClientID clients clientID pid = .notFound ↔
      ∀ c ∈ clients, c.live = true → c.clientID ≠ clientID := by
  unfold getClientInstanceByClientID
  constructor
  · intro h c hc hlive hid
    cases hfind : clients.findIdx? (Client.holds clientID) with
    | none =>
        have := findIdx?_none hfind c hc
        rw [Client.holds_iff.mpr ⟨hlive, hid⟩] at this
        exact Bool.noConfusion this
    | some k =>
        obtain ⟨c', hc', -, -⟩ := findIdx?_some hfind
        rw [hfind] at h
        dsimp only at h
        rw [hc'] at h
        dsimp only at h
        split at h <;> exact nomatch h
  · intro h
    have hnone : clients.findIdx? (Client.holds clientID) = none := by
      refine List.findIdx?_eq_none_iff.mpr ?_
      intro c hc
      rw [← Bool.not_eq_true, Client.holds_iff]
      exact fun hh => h c hc hh.1 hh.2
    rw [hnone]

end WdTable
