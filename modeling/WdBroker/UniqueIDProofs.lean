import WdBroker.AnnouncedProofs
import WdBroker.SessionProofs

/-! # Are live IDs unique?

    An ID is eight bytes from `/dev/urandom`, or, without it, eight values of
    `random()` that the same call has seeded from the clock and the process
    numbers; nobody compares it with the IDs in the table.  `live_ids_unique_iff`
    says when the live IDs of a run are nevertheless pairwise distinct: the bytes
    of the announced clients differ, and those of each REGISTER differ from the
    bytes behind every ID that is live at that moment.  Two sections read within
    one microsecond without `/dev/urandom` break it (`announced_ids_collide`). -/

namespace WdUniqueID

open CString WdClock WdTable WdClientID WdConfig WdCommand WdReach WdAnnounced WdSession

/-- No two live slots hold the same ID. -/
def UniqueIDs (t : Table) : Prop :=
  ∀ (i j : Nat) (c c' : Client), t.slots[i]? = some c → t.slots[j]? = some c' →
    c.live = true → c'.live = true → c.clientID = c'.clientID → i = j

/-- What a PING or UNREGISTER naming an ID acts on is the one slot that holds it. -/
def ReachesOwner (b : Broker) : Prop :=
  ∀ (r : Request) (creds : Ucred) (x : CStr wdClientIDLen) (i : Nat),
    (Pings r creds x ∧ (handleCommand b r).event = some (.ping i r.now)) ∨
      (Unregisters r creds x ∧ (handleCommand b r).event = some (.unregister i)) →
    ∀ (j : Nat) (c : Client), b.clients.slots[j]? = some c → c.live = true →
      c.clientID = x → j = i

/-- The REGISTER takes a free slot, and so makes an ID. -/
def TakesFree (b : Broker) (r : Request) : Prop :=
  ∃ creds args i c, Registers r creds args ∧
    getClientInstanceByName b.config b.clients.slots args.name = some i ∧
    b.clients.slots[i]? = some c ∧ c.anounced = false

/-- The ID that a REGISTER would make is not in use. -/
def Fresh (b : Broker) (r : Request) : Prop :=
  TakesFree b r → ∀ c ∈ b.clients.slots, c.live = true → c.clientID ≠ makeClientID r.raw

theorem reachesOwner_of_uniqueIDs {b : Broker} (h : UniqueIDs b.clients) : ReachesOwner b := by
  intro r creds x i hact j c hc hlive hid
  have hfirst : FirstHolder b x i := by
    rcases hact with ⟨hping, hevent⟩ | ⟨hunreg, hevent⟩
    · exact firstHolder_of_ping hping hevent
    · exact firstHolder_of_unregister hunreg hevent
  obtain ⟨c', hc', hholds, -⟩ := findIdx?_some hfirst
  obtain ⟨hlive', hid'⟩ := Client.holds_iff.mp hholds
  exact h j i c c' hc hc' hlive hlive' (hid.trans hid'.symm)

-- ── one command ───────────────────────────────────────────────────────────────

variable {b : Broker} {r : Request}

/-- An ID is made only by a REGISTER that takes a free slot. -/
theorem made_some {x : CStr wdClientIDLen} (h : (handleCommand b r).made = some x) :
    TakesFree b r ∧ x = makeClientID r.raw := by
  have hh := handled b r
  generalize handleCommand b r = o at hh h
  cases hh with
  | kept hclients hconfig hevent hmade =>
      rw [hmade] at h
      exact nomatch h
  | registered creds args i c hreq hget hslot =>
      cases hann : c.anounced with
      | true =>
          rw [hann] at h
          exact nomatch h
      | false =>
          rw [hann] at h
          exact ⟨⟨creds, args, i, c, hreq, hget, hslot, hann⟩, (Option.some.inj h).symm⟩
  | pinged => exact nomatch h
  | unregistered => exact nomatch h

/-- The free slot that is taken then holds the ID that was made. -/
theorem taken_slot {creds : Ucred} {args : RegisterArgs} {i : Nat} {c : Client}
    (hreq : Registers r creds args)
    (hget : getClientInstanceByName b.config b.clients.slots args.name = some i)
    (hann : c.anounced = false) :
    (command b r).clients = b.clients.update i (registerSlot args creds.pid r.now r.raw) ∧
      (registerSlot args creds.pid r.now r.raw c).clientID = makeClientID r.raw := by
  obtain ⟨s, hc, hb, hparse⟩ := hreq
  constructor
  · unfold command
    rw [handleCommand_register hc hb, handleRegister, hparse]
    dsimp only
    rw [hget]
  · show (if c.anounced then c.clientID else makeClientID r.raw) = makeClientID r.raw
    rw [hann]
    rfl

/-- **ONE COMMAND** keeps live IDs distinct exactly if the ID it makes is not in
    use. -/
theorem uniqueIDs_command_iff (h : UniqueIDs b.clients) :
    UniqueIDs (command b r).clients ↔ Fresh b r := by
  constructor
  · rintro hafter ⟨creds, args, i, c, hreq, hget, hslot, hann⟩ c' hc' hlive' hid
    obtain ⟨hclients, hmade⟩ := taken_slot hreq hget hann
    obtain ⟨j, hj⟩ := List.mem_iff_getElem?.mp hc'
    -- the slot that was free is not the live one
    have hne : i ≠ j := by
      rintro rfl
      obtain ⟨c₀, hc₀, hact, -⟩ := getClientInstanceByName_some hget
      obtain rfl := Option.some.inj (hslot.symm.trans hc₀)
      obtain rfl := Option.some.inj (hslot.symm.trans hj)
      rw [Client.live, hact, hann] at hlive'
      exact Bool.noConfusion hlive'
    rw [hclients] at hafter
    refine hne (hafter i j _ c' ?_ ?_ rfl hlive' (hmade.trans hid.symm))
    · rw [Table.update_self, hslot]
      rfl
    · rw [Table.update_ne _ _ hne]
      exact hj
  · intro hfresh i j c c' hc hc' hl hl' heq
    have hnew : ∀ c ∈ b.clients.slots, c.live = true →
        (handleCommand b r).made ≠ some c.clientID := by
      intro d hd hld hmade
      obtain ⟨htakes, hid⟩ := made_some hmade
      exact hfresh htakes d hd hld hid
    exact live_ids_command h hnew hc hc' hl hl' heq

-- ── whole runs ────────────────────────────────────────────────────────────────

section Runs

/- What `random()` returns, as a function of its seed. -/
variable (random : BitVec 32 → Nat → Nat)

/-- The request, with the bytes that `make_clientID` obtains in it. -/
def draw (p : Source × Request) : Request := { p.2 with raw := p.1.raw random }

/-- One command, with where its bytes would come from. -/
def commandFrom (b : Broker) (p : Source × Request) : Broker := command b (draw random p)

variable {random} {text : List Byte} {clock : Nat → Timespec} {sources : Nat → Source} {b₀ : Broker}

/-- Right after start-up live IDs are distinct exactly if the bytes of the section
    lines are. -/
theorem uniqueIDs_boot_iff
    (hboot : boot (some text) clock (fun i => (sources i).raw random) = .ok b₀) :
    UniqueIDs b₀.clients ↔
      ∀ i j, i < (sectionNames (configLines text)).length →
        j < (sectionNames (configLines text)).length →
        (sources i).raw random = (sources j).raw random → i = j := by
  obtain ⟨text', hfile, hacc, -, -⟩ := boot_ok hboot
  obtain rfl := Option.some.inj hfile
  constructor
  · intro h i j hi hj hraw
    obtain ⟨c, hc, hann⟩ := hacc.announced i _ (List.getElem?_eq_getElem hi)
    obtain ⟨c', hc', hann'⟩ := hacc.announced j _ (List.getElem?_eq_getElem hj)
    refine h i j c c' hc hc' (Client.live_iff.mpr (Or.inr hann.anounced))
      (Client.live_iff.mpr (Or.inr hann'.anounced)) ?_
    rw [hann.clientID_eq, hann'.clientID_eq, hraw]
  · intro h i j c c' hc hc' hl hl' heq
    rcases accepted_slot hacc hc with ⟨name, hi, hann⟩ | ⟨-, rfl⟩
    · rcases accepted_slot hacc hc' with ⟨name', hj, hann'⟩ | ⟨-, rfl⟩
      · rw [hann.clientID_eq, hann'.clientID_eq] at heq
        exact h i j (List.getElem?_eq_some_iff.mp hi).1 (List.getElem?_eq_some_iff.mp hj).1
          (makeClientID_inj heq)
      · exact Bool.noConfusion hl'
    · exact Bool.noConfusion hl

/-- **WHEN LIVE IDS ARE UNIQUE**: for every accepted file, every run of commands
    and wherever the bytes of the IDs come from, in every state of the run the IDs
    of distinct live slots differ, and PING and UNREGISTER act on no slot but the
    one that holds the ID they name, exactly when the bytes obtained for the
    section lines are pairwise distinct and, whenever a REGISTER takes a free slot,
    the bytes obtained for it are not those of an ID that is live. -/
theorem live_ids_unique_iff
    (hboot : boot (some text) clock (fun i => (sources i).raw random) = .ok b₀)
    (rs : List (Source × Request)) :
    (∀ js ks, rs = js ++ ks →
      UniqueIDs (Machine.run (commandFrom random) b₀ js).clients ∧
        ReachesOwner (Machine.run (commandFrom random) b₀ js)) ↔
    (∀ i j, i < (sectionNames (configLines text)).length →
      j < (sectionNames (configLines text)).length →
      (sources i).raw random = (sources j).raw random → i = j) ∧
    ∀ js p ks, rs = js ++ p :: ks →
      TakesFree (Machine.run (commandFrom random) b₀ js) (draw random p) →
      ∀ c ∈ (Machine.run (commandFrom random) b₀ js).clients.slots, c.live = true →
        c.clientID ≠ makeClientID (p.1.raw random) := by
  have hrule := @Machine.run_invariant_iff Broker (Source × Request)
    (fun b => UniqueIDs b.clients) (fun b p => Fresh b (draw random p)) (commandFrom random)
    (fun b p h => uniqueIDs_command_iff h) rs b₀
  rw [uniqueIDs_boot_iff hboot] at hrule
  refine Iff.trans ?_ hrule
  constructor
  · exact fun h js ks hsplit => (h js ks hsplit).1
  · exact fun h js ks hsplit =>
      ⟨h js ks hsplit, reachesOwner_of_uniqueIDs (h js ks hsplit)⟩

end Runs

/-- Two announced clients. -/
def twoClients : List Byte := bytes "[client a]\n[client b]\n"

/-- The two sections are accepted, whatever the bytes of their IDs. -/
theorem twoClients_accepted (raws : Nat → Raw) :
    ∃ b₀, boot (some twoClients) (fun _ => Timespec.zero) raws = .ok b₀ :=
  ⟨_, rfl⟩

theorem length_twoClients : (sectionNames (configLines twoClients)).length = 2 := by
  decide +kernel

/-- Process 100, child of process 1, reads the clock at `usec` microseconds and
    gets `urandom` from `/dev/urandom`. -/
def sourceAt (urandom : Option Raw) (usec : Int) : Source := ⟨urandom, ⟨0, usec⟩, 100, 1⟩

theorem live_ids_unique_iff_urandom :
    ∃ b₀, boot (some twoClients) (fun _ => Timespec.zero)
        (fun i => (sourceAt (some (Vector.replicate 8 i.toUInt8)) 0).raw fun _ _ => 0) = .ok b₀ ∧
      UniqueIDs b₀.clients := by
  obtain ⟨b₀, hboot⟩ := twoClients_accepted
    fun i => (sourceAt (some (Vector.replicate 8 i.toUInt8)) 0).raw fun _ _ => 0
  refine ⟨b₀, hboot, ((@live_ids_unique_iff (fun _ _ => 0) twoClients (fun _ => Timespec.zero)
    (fun i => sourceAt (some (Vector.replicate 8 i.toUInt8)) 0) b₀ hboot []).mpr
    ⟨?_, ?_⟩ [] [] rfl).1⟩
  · have hdiffer : ∀ i < 2, ∀ j < 2,
        (sourceAt (some (Vector.replicate 8 i.toUInt8)) 0).raw (fun _ _ => 0)
          = (sourceAt (some (Vector.replicate 8 j.toUInt8)) 0).raw (fun _ _ => 0) → i = j := by
      decide
    rw [length_twoClients]
    exact fun i j hi hj => hdiffer i hi j hj
  · intro js p ks hsplit
    simp at hsplit

/-- **WITHOUT `/dev/urandom` ANNOUNCED IDS COLLIDE**: two sections whose IDs are
    made in the same microsecond get the same ID, whatever `random()` computes from
    its seed. -/
theorem announced_ids_collide :
    ∃ src : Source, src.urandom = none ∧ ∀ random, ∃ b₀,
      boot (some twoClients) (fun _ => Timespec.zero) (fun _ => src.raw random) = .ok b₀ ∧
        ¬ UniqueIDs b₀.clients := by
  refine ⟨sourceAt none 0, rfl, fun random => ?_⟩
  obtain ⟨b₀, hboot⟩ := twoClients_accepted fun _ => (sourceAt none 0).raw random
  refine ⟨b₀, hboot, fun h => ?_⟩
  have hsame := (@uniqueIDs_boot_iff random twoClients _ (fun _ => sourceAt none 0) b₀ hboot).mp h
    0 1 (by rw [length_twoClients]; decide) (by rw [length_twoClients]; decide) rfl
  exact absurd hsame (by decide)

end WdUniqueID
