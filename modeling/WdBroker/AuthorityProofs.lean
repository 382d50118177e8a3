import WdBroker.CommandProofs

/-! # Who may change which slot

    The transition relation of one command on one live slot: it is kept, or it is
    refreshed by a PING that names it, claimed by a REGISTER of its name, or
    released by an UNREGISTER that names it, the last three each with its
    permission.  `authorised_change` says that every call of `handle_command`
    acts on at most one slot and, on each live slot, in exactly one of these four
    ways; a free slot is only ever filled, by a REGISTER, outside strict mode. -/

namespace WdAuthority

open CString WdClock WdTable WdClientID WdCommand

/-- The four things that can happen to a live slot. -/
inductive Kind where
  | kept
  | refreshed
  | claimed
  | released
deriving DecidableEq

/-- `Change k config r c c'`: under `config`, request `r` took the slot from `c`
    to `c'` in the way `k`, and was entitled to. -/
def Change (k : Kind) (config : Config) (r : Request) (c c' : Client) : Prop :=
  match k with
  | .kept => c' = c
  | .refreshed =>
      c' ≠ c ∧ (∃ t, c' = { c with lastPing := t }) ∧
        ∃ creds, Pings r creds c.clientID ∧ (c.checkPID = false ∨ creds.pid = c.pid)
  | .claimed =>
      c.anounced = true ∧ c.active = false ∧
        ∃ creds args, Registers r creds args ∧ args.name = c.name ∧
          c'.active = true ∧ c'.anounced = false ∧ c'.name = c.name ∧
          c'.clientID = c.clientID ∧ c'.pid = creds.pid ∧ c'.timeoutMs = args.timeoutMs ∧
          c'.checkPID = args.checkPID
  | .released =>
      c' = { c with active := false, anounced := false } ∧
        ∃ creds, Unregisters r creds c.clientID ∧
          (creds.uid = 0 ∨ config.strictClients = false ∧
            (c.checkPID = false ∨ creds.pid = c.pid))

/-- A change shows in the slot: which of the four ways it was can be read off
    whether the slot changed, was active, is active and is live. -/
theorem Change.kind_eq {k : Kind} {config : Config} {r : Request} {c c' : Client}
    (hlive : c.live = true) (h : Change k config r c c') :
    k = if c' = c then .kept
      else if c'.live = false then .released
      else if c'.active = c.active then .refreshed else .claimed := by
  cases k with
  | kept =>
      have heq : c' = c := h
      rw [if_pos heq]
  | refreshed =>
      obtain ⟨hne, ⟨t, rfl⟩, -⟩ := h
      rw [if_neg hne, if_neg, if_pos rfl]
      rw [Bool.not_eq_false]
      exact hlive
  | claimed =>
      obtain ⟨-, hact, -, -, -, -, hact', -⟩ := h
      have hne : c'.active ≠ c.active := by rw [hact, hact']; decide
      have hlive' : c'.live = true := by rw [Client.live, hact']; rfl
      rw [if_neg fun heq => hne (by rw [heq]), if_neg (by rw [hlive']; decide), if_neg hne]
  | released =>
      obtain ⟨rfl, -⟩ := h
      have hdead : ({ c with active := false, anounced := false } : Client).live = false := rfl
      rw [if_neg, if_pos hdead]
      intro heq
      rw [heq, hlive] at hdead
      exact Bool.noConfusion hdead

theorem Change.unique {k k' : Kind} {config : Config} {r : Request} {c c' : Client}
    (hlive : c.live = true) (h : Change k config r c c') (h' : Change k' config r c c') :
    k' = k :=
  (h'.kind_eq hlive).trans (h.kind_eq hlive).symm

/-- The slot that a command registers: claimed if it was announced, filled if it
    was free. -/
theorem registered_change {b : Broker} {r : Request} {creds : Ucred} {args : RegisterArgs}
    {i : Nat} {c : Client} (hreq : Registers r creds args)
    (hget : getClientInstanceByName b.config b.clients.slots args.name = some i)
    (hslot : b.clients.slots[i]? = some c) :
    (c.live = true → Change .claimed b.config r c
        (registerSlot args creds.pid r.now r.raw c)) ∧
      (c.live = false → b.config.strictClients = false) := by
  obtain ⟨c₀, hc₀, hact, -, hkind⟩ := getClientInstanceByName_some hget
  obtain rfl := Option.some.inj (hslot.symm.trans hc₀)
  constructor
  · intro hlive
    have hann : c.anounced = true := by
      rcases Client.live_iff.mp hlive with h | h
      · rw [hact] at h; exact Bool.noConfusion h
      · exact h
    rcases hkind with ⟨-, hname⟩ | ⟨hfree, -⟩
    · refine ⟨hann, hact, creds, args, hreq, hname.symm, rfl, rfl, ?_, ?_, rfl, rfl, rfl⟩
      · show CStr.strncpy wdClientNameLen args.name.chars = c.name
        rw [← hname, CStr.strncpy_self]
      · show (if c.anounced then c.clientID else makeClientID r.raw) = c.clientID
        rw [if_pos hann]
    · rw [hann] at hfree; exact Bool.noConfusion hfree
  · intro hdead
    rcases hkind with ⟨hann, -⟩ | ⟨-, hstrict, -⟩
    · rw [(Client.not_live_iff.mp hdead).2] at hann; exact Bool.noConfusion hann
    · exact hstrict

/-- What one command does to the slot at `i`, in terms of the slot alone. -/
def SlotSpec (config : Config) (r : Request) (c c' : Client) : Prop :=
  (c.live = true → ∃ k, Change k config r c c') ∧
    (c.live = false → c' = c ∨ config.strictClients = false ∧
      ∃ creds args, Registers r creds args ∧ c' = registerSlot args creds.pid r.now r.raw c)

theorem slotSpec_refl (config : Config) (r : Request) (c : Client) : SlotSpec config r c c :=
  ⟨fun _ => ⟨.kept, rfl⟩, fun _ => Or.inl rfl⟩

/-- An update of one slot meets the specification when that slot does. -/
theorem slotSpec_update {b : Broker} {r : Request} {i : Nat} {c₀ : Client}
    {f : Client → Client} (hslot : b.clients.slots[i]? = some c₀)
    (hspec : SlotSpec b.config r c₀ (f c₀)) {j : Nat} {c : Client}
    (hc : b.clients.slots[j]? = some c) :
    ∃ c', (b.clients.update i f).slots[j]? = some c' ∧ SlotSpec b.config r c c' := by
  by_cases hij : i = j
  · subst hij
    obtain rfl := Option.some.inj (hslot.symm.trans hc)
    exact ⟨f c₀, by rw [Table.update_self, hslot]; rfl, hspec⟩
  · exact ⟨c, by rw [Table.update_ne _ _ hij]; exact hc, slotSpec_refl _ _ _⟩

/-- Every call acts on at most one slot, and on it as specified. -/
theorem handleCommand_slots (b : Broker) (r : Request) :
    (∃ i, ∀ j : Nat, j ≠ i →
      (handleCommand b r).broker.clients.slots[j]? = b.clients.slots[j]?) ∧
    ∀ (i : Nat) (c : Client), b.clients.slots[i]? = some c →
      ∃ c', (handleCommand b r).broker.clients.slots[i]? = some c' ∧
        SlotSpec b.config r c c' := by
  have hone : ∀ (i : Nat) (f : Client → Client), ∀ j, j ≠ i →
      (b.clients.update i f).slots[j]? = b.clients.slots[j]? :=
    fun i f j hji => Table.update_ne _ _ (Ne.symm hji)
  have h := handled b r
  generalize handleCommand b r = o at h ⊢
  cases h with
  | kept hclients =>
      rw [hclients]
      exact ⟨⟨0, fun _ _ => rfl⟩, fun i c hc => ⟨c, hc, slotSpec_refl _ _ _⟩⟩
  | registered creds args i c hreq hget hslot =>
      obtain ⟨hclaim, hfill⟩ := registered_change hreq hget hslot
      refine ⟨⟨i, hone i _⟩, fun j c' hc' => slotSpec_update hslot ?_ hc'⟩
      exact ⟨fun hlive => ⟨.claimed, hclaim hlive⟩,
        fun hdead => Or.inr ⟨hfill hdead, creds, args, hreq, rfl⟩⟩
  | pinged creds id i c hreq hslot hlive hid hpid =>
      refine ⟨⟨i, hone i _⟩, fun j c' hc' => slotSpec_update hslot ⟨fun _ => ?_, ?_⟩ hc'⟩
      · -- a PING in the very nanosecond of the last one leaves the slot as it was
        by_cases hsame : pingSlot r.now c = c
        · exact ⟨.kept, hsame⟩
        · subst hid
          exact ⟨.refreshed, hsame, ⟨r.now, rfl⟩, creds, hreq, hpid.imp id Eq.symm⟩
      · intro hdead
        rw [hlive] at hdead
        exact Bool.noConfusion hdead
  | unregistered creds id i c hreq hslot hlive hid hperm =>
      refine ⟨⟨i, hone i _⟩, fun j c' hc' => slotSpec_update hslot ⟨fun _ => ?_, ?_⟩ hc'⟩
      · subst hid
        refine ⟨.released, rfl, creds, hreq, hperm.imp id ?_⟩
        exact fun h => ⟨h.1, h.2.imp id Eq.symm⟩
      · intro hdead
        rw [hlive] at hdead
        exact Bool.noConfusion hdead

end WdAuthority
