import WdBroker.AuthorityProofs
import WdBroker.ReachProofs

/-! # Supervision over whole runs: strict mode and unique names

    What one command may do to one slot (`SlotSpec`) is lifted to runs through
    relations between a slot's content at two points of a run
    (`commands_slots`).  In strict mode this gives `strict_supervision`: the
    supervised clients are the announced ones, only root's UNREGISTER ends the
    supervision of one, and it ends it for good.

    `unique_names` is the invariant of unique mode.  The runtime check looks at
    active slots only; that an announced client's name is not taken by another
    slot follows from the preference of the slot selection for announced slots
    and from the check at start-up. -/

namespace WdSupervision

open CString WdClock WdTable WdClientID WdConfig WdCommand WdAuthority WdReach

theorem commands_config (b : Broker) (rs : List Request) :
    (commands b rs).config = b.config :=
  Machine.run_invariant (P := fun b' => b'.config = b.config) command
    (fun b' r h => (command_config b' r).trans h) rs b rfl

/-- **FROM STEPS TO RUNS, SLOT BY SLOT**: a reflexive and transitive relation that
    every admitted command respects on every slot relates each slot before a run
    to the same slot after it. -/
theorem commands_slots {config : Config} {Q : Request → Prop} {R : Client → Client → Prop}
    (hrefl : ∀ c, R c c) (htrans : ∀ {c c' c''}, R c c' → R c' c'' → R c c'')
    (hstep : ∀ {r c c'}, Q r → SlotSpec config r c c' → R c c') :
    ∀ (rs : List Request) (b : Broker), b.config = config → (∀ r ∈ rs, Q r) →
      ∀ (i : Nat) (c : Client), b.clients.slots[i]? = some c →
        ∃ c', (commands b rs).clients.slots[i]? = some c' ∧ R c c' := by
  intro rs
  induction rs with
  | nil => intro b _ _ i c hc; exact ⟨c, hc, hrefl c⟩
  | cons r rs ih =>
      intro b hconfig hQ i c hc
      obtain ⟨c₁, hc₁, hspec⟩ := (handleCommand_slots b r).2 i c hc
      rw [hconfig] at hspec
      obtain ⟨c₂, hc₂, hR⟩ := ih (command b r) ((command_config b r).trans hconfig)
        (fun r' hr' => hQ r' (List.mem_cons_of_mem r hr')) i c₁ hc₁
      exact ⟨c₂, hc₂, htrans (hstep (hQ r List.mem_cons_self) hspec) hR⟩

-- ── strict mode ───────────────────────────────────────────────────────────────

/-- The request is an UNREGISTER from root. -/
def RootUnregister (r : Request) : Prop :=
  ∃ creds s, r.creds = some creds ∧ creds.uid = 0 ∧ r.buf = some (cmdUnregister ++ s)

/-- `c'` is supervised only if `c` was, as the same client. -/
def Shrinks (c c' : Client) : Prop :=
  c'.live = true → c.live = true ∧ c'.name = c.name ∧ c'.clientID = c.clientID

/-- `c'` is supervised if `c` was, as the same client, and stays registered. -/
def Persists (c c' : Client) : Prop :=
  (c.live = true → c'.live = true ∧ c'.name = c.name ∧ c'.clientID = c.clientID) ∧
    (c.active = true → c'.active = true)

theorem Shrinks.trans {c c' c'' : Client} (h : Shrinks c c') (h' : Shrinks c' c'') :
    Shrinks c c'' := by
  intro hlive
  obtain ⟨hl, hn, hi⟩ := h' hlive
  obtain ⟨hl', hn', hi'⟩ := h hl
  exact ⟨hl', hn.trans hn', hi.trans hi'⟩

theorem Persists.trans {c c' c'' : Client} (h : Persists c c') (h' : Persists c' c'') :
    Persists c c'' := by
  refine ⟨fun hlive => ?_, fun hact => h'.2 (h.2 hact)⟩
  obtain ⟨hl, hn, hi⟩ := h.1 hlive
  obtain ⟨hl', hn', hi'⟩ := h'.1 hl
  exact ⟨hl', hn'.trans hn, hi'.trans hi⟩

/-- In strict mode a command leaves a free slot alone. -/
theorem slotSpec_dead {config : Config} {r : Request} {c c' : Client}
    (hstrict : config.strictClients = true) (h : SlotSpec config r c c')
    (hdead : c.live = false) : c' = c := by
  rcases h.2 hdead with heq | ⟨hoff, -⟩
  · exact heq
  · rw [hstrict] at hoff
    exact Bool.noConfusion hoff

/-- In strict mode a command supervises nobody new. -/
theorem slotSpec_shrinks {config : Config} {r : Request} {c c' : Client}
    (hstrict : config.strictClients = true) (h : SlotSpec config r c c') : Shrinks c c' := by
  intro hlive'
  cases hlive : c.live with
  | false =>
      rw [slotSpec_dead hstrict h hlive, hlive] at hlive'
      exact Bool.noConfusion hlive'
  | true =>
      obtain ⟨k, hk⟩ := h.1 hlive
      cases k with
      | kept =>
          obtain rfl : c' = c := hk
          exact ⟨rfl, rfl, rfl⟩
      | refreshed =>
          obtain ⟨-, ⟨t, rfl⟩, -⟩ := hk
          exact ⟨rfl, rfl, rfl⟩
      | claimed =>
          obtain ⟨-, -, -, -, -, -, -, -, hname, hid, -⟩ := hk
          exact ⟨rfl, hname, hid⟩
      | released =>
          obtain ⟨rfl, -⟩ := hk
          exact Bool.noConfusion hlive'

/-- In strict mode only root's UNREGISTER, naming the slot's ID, ends its
    supervision. -/
theorem slotSpec_leaves {config : Config} {r : Request} {c c' : Client}
    (hstrict : config.strictClients = true) (h : SlotSpec config r c c')
    (hlive : c.live = true) (hdead : c'.live = false) :
    ∃ creds, Unregisters r creds c.clientID ∧ creds.uid = 0 := by
  obtain ⟨k, hk⟩ := h.1 hlive
  cases k with
  | kept =>
      obtain rfl : c' = c := hk
      rw [hlive] at hdead
      exact Bool.noConfusion hdead
  | refreshed =>
      obtain ⟨-, ⟨t, rfl⟩, -⟩ := hk
      exact absurd (hdead.symm.trans hlive) Bool.false_ne_true
  | claimed =>
      obtain ⟨-, -, -, -, -, -, hact, -⟩ := hk
      rw [Client.live, hact] at hdead
      exact Bool.noConfusion hdead
  | released =>
      obtain ⟨-, creds, hreq, huid | ⟨hoff, -⟩⟩ := hk
      · exact ⟨creds, hreq, huid⟩
      · rw [hstrict] at hoff
        exact Bool.noConfusion hoff

/-- In strict mode every other command keeps everybody supervised. -/
theorem slotSpec_persists {config : Config} {r : Request} {c c' : Client}
    (hstrict : config.strictClients = true) (hroot : ¬ RootUnregister r)
    (h : SlotSpec config r c c') : Persists c c' := by
  cases hlive : c.live with
  | false =>
      rw [slotSpec_dead hstrict h hlive]
      exact ⟨fun hl => ⟨hl, rfl, rfl⟩, fun ha => ha⟩
  | true =>
      have hlive' : c'.live = true := by
        cases hdead : c'.live with
        | true => rfl
        | false =>
            obtain ⟨creds, ⟨s, hc, hb, -⟩, huid⟩ := slotSpec_leaves hstrict h hlive hdead
            exact absurd ⟨creds, s, hc, huid, hb⟩ hroot
      obtain ⟨-, hname, hid⟩ := slotSpec_shrinks hstrict h hlive'
      refine ⟨fun _ => ⟨hlive', hname, hid⟩, fun hact => ?_⟩
      obtain ⟨k, hk⟩ := h.1 hlive
      cases k with
      | kept =>
          obtain rfl : c' = c := hk
          exact hact
      | refreshed =>
          obtain ⟨-, ⟨t, rfl⟩, -⟩ := hk
          exact hact
      | claimed =>
          obtain ⟨-, -, -, -, -, -, hact', -⟩ := hk
          exact hact'
      | released =>
          obtain ⟨rfl, -⟩ := hk
          exact Bool.noConfusion hlive'

/-- In strict mode no run supervises anybody new. -/
theorem commands_shrinks {b : Broker} (hstrict : b.config.strictClients = true)
    (rs : List Request) {i : Nat} {c : Client} (hc : b.clients.slots[i]? = some c) :
    ∃ c', (commands b rs).clients.slots[i]? = some c' ∧ Shrinks c c' :=
  commands_slots (Q := fun _ => True) (R := Shrinks) (fun _ hl => ⟨hl, rfl, rfl⟩) Shrinks.trans
    (fun _ hspec => slotSpec_shrinks hstrict hspec) rs b rfl (fun _ _ => trivial) i c hc

/-- In strict mode a run without root's UNREGISTER keeps everybody supervised. -/
theorem commands_persists {b : Broker} (hstrict : b.config.strictClients = true)
    {rs : List Request} (hno : ∀ r ∈ rs, ¬ RootUnregister r) {i : Nat} {c : Client}
    (hc : b.clients.slots[i]? = some c) :
    ∃ c', (commands b rs).clients.slots[i]? = some c' ∧ Persists c c' :=
  commands_slots (Q := fun r => ¬ RootUnregister r) (R := Persists)
    (fun _ => ⟨fun hl => ⟨hl, rfl, rfl⟩, fun ha => ha⟩) Persists.trans
    (fun hr hspec => slotSpec_persists hstrict hr hspec) rs b rfl hno i c hc

/-- Right after start-up the live slots are the announced ones. -/
theorem boot_live_iff {file : Option (List Byte)} {clock : Nat → Timespec} {raws : Nat → Raw}
    {b : Broker} (h : boot file clock raws = .ok b) {i : Nat} {c : Client}
    (hc : b.clients.slots[i]? = some c) : c.live = c.anounced ∧ c.active = false := by
  obtain ⟨text, -, hacc, -, -⟩ := boot_ok h
  rcases accepted_slot hacc hc with ⟨name, -, hann⟩ | ⟨-, rfl⟩
  · rw [Client.live, hann.inactive]
    exact ⟨Bool.false_or _, rfl⟩
  · exact ⟨rfl, rfl⟩

/-- A slot that is live after some commands was announced, as the same client. -/
theorem live_announced {file : Option (List Byte)} {clock : Nat → Timespec} {raws : Nat → Raw}
    {b₀ : Broker} (hboot : boot file clock raws = .ok b₀)
    (hstrict : b₀.config.strictClients = true) (rs : List Request) {i : Nat} {c : Client}
    (hc : (commands b₀ rs).clients.slots[i]? = some c) (hlive : c.live = true) :
    ∃ c₀, b₀.clients.slots[i]? = some c₀ ∧ c₀.anounced = true ∧ c.name = c₀.name ∧
      c.clientID = c₀.clientID := by
  have hlen : i < b₀.clients.slots.length := by
    rw [b₀.clients.size, ← (commands b₀ rs).clients.size]
    exact (List.getElem?_eq_some_iff.mp hc).1
  have hc₀ := List.getElem?_eq_getElem hlen
  obtain ⟨c', hc', hR⟩ := commands_shrinks hstrict rs hc₀
  obtain rfl := Option.some.inj (hc'.symm.trans hc)
  obtain ⟨hlive₀, hname, hid⟩ := hR hlive
  rw [(boot_live_iff hboot hc₀).1] at hlive₀
  exact ⟨_, hc₀, hlive₀, hname, hid⟩

/-- A client that has registered stays registered as long as root sends no
    UNREGISTER. -/
theorem registered_stays {file : Option (List Byte)} {clock : Nat → Timespec} {raws : Nat → Raw}
    {b₀ : Broker} (hboot : boot file clock raws = .ok b₀)
    (hstrict : b₀.config.strictClients = true) {rs₁ rs₂ : List Request}
    (hno : ∀ r ∈ rs₂, ¬ RootUnregister r) {i : Nat} {c₁ c : Client}
    (hc₁ : (commands b₀ rs₁).clients.slots[i]? = some c₁) (hact : c₁.active = true)
    (hc : (commands b₀ (rs₁ ++ rs₂)).clients.slots[i]? = some c) :
    c.active = true ∧ c.anounced = false := by
  have hcfg : (commands b₀ rs₁).config.strictClients = true := by
    rw [commands_config]
    exact hstrict
  have heq : commands b₀ (rs₁ ++ rs₂) = commands (commands b₀ rs₁) rs₂ :=
    Machine.run_append command b₀ rs₁ rs₂
  obtain ⟨c', hc', hP⟩ := commands_persists hcfg hno hc₁
  rw [← heq] at hc'
  obtain rfl := Option.some.inj (hc'.symm.trans hc)
  have hact' : c'.active = true := hP.2 hact
  have hok : SlotOk c' :=
    (wellFormed_commands (wellFormed_boot hboot) (rs₁ ++ rs₂)).slots c' (List.mem_of_getElem? hc)
  exact ⟨hact', Bool.eq_false_iff.mpr fun hann => hok.exclusive ⟨hact', hann⟩⟩

/-- **STRICT SUPERVISION CANNOT BE ESCAPED**: with `strict_clients` on, after any
    commands,
    * a live slot is announced in the file, under that index, name and ID, and
      so is an active one;
    * a command that ends the supervision of a slot is root's UNREGISTER naming
      its ID;
    * a slot that is not live never becomes live again;
    * as long as root sends no UNREGISTER, the live slots are exactly the
      announced ones, and one that has registered stays registered. -/
theorem strict_supervision {file : Option (List Byte)} {clock : Nat → Timespec}
    {raws : Nat → Raw} {b₀ : Broker} (hboot : boot file clock raws = .ok b₀)
    (hstrict : b₀.config.strictClients = true) (rs : List Request) :
    (∀ (i : Nat) (c : Client), (commands b₀ rs).clients.slots[i]? = some c → c.live = true →
      ∃ c₀, b₀.clients.slots[i]? = some c₀ ∧ c₀.anounced = true ∧ c.name = c₀.name ∧
        c.clientID = c₀.clientID) ∧
    (∀ (r : Request) (i : Nat) (c c' : Client),
      (commands b₀ rs).clients.slots[i]? = some c → c.live = true →
      (command (commands b₀ rs) r).clients.slots[i]? = some c' → c'.live = false →
      ∃ creds, Unregisters r creds c.clientID ∧ creds.uid = 0) ∧
    (∀ (rs' : List Request) (i : Nat) (c c' : Client),
      (commands b₀ rs).clients.slots[i]? = some c → c.live = false →
      (commands (commands b₀ rs) rs').clients.slots[i]? = some c' → c'.live = false) ∧
    ((∀ r ∈ rs, ¬ RootUnregister r) → ∀ (i : Nat) (c₀ : Client),
      b₀.clients.slots[i]? = some c₀ →
      ∃ c, (commands b₀ rs).clients.slots[i]? = some c ∧ (c.live = true ↔ c₀.anounced = true) ∧
        (c₀.anounced = true → c.name = c₀.name ∧ c.clientID = c₀.clientID) ∧
        ∀ (rs₁ rs₂ : List Request) (c₁ : Client), rs = rs₁ ++ rs₂ →
          (commands b₀ rs₁).clients.slots[i]? = some c₁ → c₁.active = true →
          c.active = true ∧ c.anounced = false) := by
  have hcfg : (commands b₀ rs).config.strictClients = true := by
    rw [commands_config]
    exact hstrict
  refine ⟨?_, ?_, ?_, ?_⟩
  · intro i c hc hlive
    exact live_announced hboot hstrict rs hc hlive
  · intro r i c c' hc hlive hc' hdead
    obtain ⟨c₁, hc₁, hspec⟩ := (handleCommand_slots (commands b₀ rs) r).2 i c hc
    obtain rfl := Option.some.inj (hc₁.symm.trans hc')
    exact slotSpec_leaves hcfg hspec hlive hdead
  · intro rs' i c c' hc hdead hc'
    obtain ⟨c₁, hc₁, hR⟩ := commands_shrinks hcfg rs' hc
    obtain rfl := Option.some.inj (hc₁.symm.trans hc')
    rw [← Bool.not_eq_true] at hdead ⊢
    exact fun hl => hdead (hR hl).1
  · intro hno i c₀ hc₀
    obtain ⟨c, hc, hP⟩ := commands_persists hstrict hno hc₀
    obtain ⟨c', hc', hS⟩ := commands_shrinks hstrict rs hc₀
    obtain rfl := Option.some.inj (hc'.symm.trans hc)
    rw [← (boot_live_iff hboot hc₀).1]
    refine ⟨c', hc, ⟨fun hl => (hS hl).1, fun hl => (hP.1 hl).1⟩, fun hl => (hP.1 hl).2, ?_⟩
    rintro rs₁ rs₂ c₁ rfl hc₁ hact
    exact registered_stays hboot hstrict (fun r hr => hno r (List.mem_append_right _ hr)) hc₁
      hact hc

theorem strict_supervision_one :
    ∃ b₀, boot (some (bytes "strict_clients=true\n[client a]\n")) (fun _ => Timespec.zero)
        (fun _ => Vector.replicate 8 0) = .ok b₀ ∧ b₀.config.strictClients = true ∧
      ∀ (rs : List Request) (i : Nat) (c : Client),
        (commands b₀ rs).clients.slots[i]? = some c → c.live = true →
        ∃ c₀, b₀.clients.slots[i]? = some c₀ ∧ c₀.anounced = true ∧ c.name = c₀.name ∧
          c.clientID = c₀.clientID := by
  obtain ⟨b₀, hboot, hstrict⟩ := @exists_of_accepts (bytes "strict_clients=true\n[client a]\n")
    (fun b => b.config.strictClients) (by decide +kernel)
  exact ⟨b₀, hboot, hstrict, fun rs => (strict_supervision hboot hstrict rs).1⟩

-- ── unique mode ───────────────────────────────────────────────────────────────

/-- No two live slots carry the same name. -/
def UniqueNames (t : Table) : Prop :=
  ∀ (i j : Nat) (c c' : Client), t.slots[i]? = some c → t.slots[j]? = some c' →
    c.live = true → c'.live = true → c.name = c'.name → i = j

/-- An update keeps names unique if what it makes of the slot is free, or is the
    same client, or carries a name that no live slot carries. -/
theorem uniqueNames_update {t : Table} {i : Nat} {f : Client → Client} (h : UniqueNames t)
    (hf : ∀ c, t.slots[i]? = some c → (f c).live = true →
      (c.live = true ∧ (f c).name = c.name) ∨
        ∀ c' ∈ t.slots, c'.live = true → c'.name ≠ (f c).name) :
    UniqueNames (t.update i f) := by
  -- the slot that was updated against one that was not
  have hcross : ∀ (j : Nat) (c c' : Client), t.slots[i]? = some c → t.slots[j]? = some c' →
      (f c).live = true → c'.live = true → (f c).name = c'.name → i = j := by
    intro j c c' hc hc' hl hl' hname
    rcases hf c hc hl with ⟨hlive, hsame⟩ | hfresh
    · exact h i j c c' hc hc' hlive hl' (hsame.symm.trans hname)
    · exact absurd hname.symm (hfresh c' (List.mem_of_getElem? hc') hl')
  intro j k c c' hc hc' hl hl' hname
  rcases Table.update_cases hc with ⟨rfl, c₀, hc₀, rfl⟩ | ⟨hj, hold⟩
  · rcases Table.update_cases hc' with ⟨rfl, -⟩ | ⟨-, hold'⟩
    · rfl
    · exact hcross k c₀ c' hc₀ hold' hl hl' hname
  · rcases Table.update_cases hc' with ⟨rfl, c₀, hc₀, rfl⟩ | ⟨-, hold'⟩
    · exact (hcross j c₀ c hc₀ hold hl' hl hname.symm).symm
    · exact h j k c c' hold hold' hl hl' hname

/-- In unique mode every command keeps the names unique. -/
theorem uniqueNames_command {b : Broker} (r : Request) (hu : b.config.uniqueClients = true)
    (h : UniqueNames b.clients) : UniqueNames (command b r).clients := by
  have hh := handled b r
  unfold command
  generalize handleCommand b r = o at hh ⊢
  cases hh with
  | kept hclients =>
      rw [hclients]
      exact h
  | registered creds args i c hreq hget hslot =>
      refine uniqueNames_update h fun c₀ hc₀ _ => ?_
      obtain rfl := Option.some.inj (hslot.symm.trans hc₀)
      rw [registerSlot_name]
      obtain ⟨c', hc', -, hunused, hchoice⟩ := getClientInstanceByName_some hget
      obtain rfl := Option.some.inj (hslot.symm.trans hc')
      rcases hchoice with ⟨hann, hname⟩ | ⟨-, -, hnone⟩
      · exact Or.inl ⟨Client.live_iff.mpr (Or.inr hann), hname.symm⟩
      · -- a free slot is taken only if no announced slot has the name
        refine Or.inr fun c' hc' hlive => ?_
        cases hact : c'.active with
        | true => exact hunused hu c' hc' hact
        | false =>
            rcases Client.live_iff.mp hlive with hact' | hann
            · rw [hact] at hact'
              exact Bool.noConfusion hact'
            · exact hnone c' hc' hact hann
  | pinged creds id i c hreq hslot hlive hid hpid =>
      exact uniqueNames_update h fun c₀ _ hl => Or.inl ⟨hl, rfl⟩
  | unregistered creds id i c hreq hslot hlive hid hperm =>
      exact uniqueNames_update h fun c₀ _ hl => Bool.noConfusion hl

theorem uniqueNames_boot {file : Option (List Byte)} {clock : Nat → Timespec}
    {raws : Nat → Raw} {b : Broker} (h : boot file clock raws = .ok b)
    (hu : b.config.uniqueClients = true) : UniqueNames b.clients := by
  obtain ⟨text, -, hacc, -, -⟩ := boot_ok h
  intro i j c c' hc hc' hl hl' hname
  rcases accepted_slot hacc hc with ⟨name, hi, hann⟩ | ⟨-, rfl⟩
  · rcases accepted_slot hacc hc' with ⟨name', hj, hann'⟩ | ⟨-, rfl⟩
    · rw [hann.name_eq, hann'.name_eq] at hname
      refine (List.getElem?_inj (List.getElem?_eq_some_iff.mp hi).1 (hacc.unique hu)).mp ?_
      rw [hi, hj, hname]
    · exact Bool.noConfusion hl'
  · exact Bool.noConfusion hl

/-- **UNIQUE NAMES**: with `unique_clients` on, strict or not, no two live slots
    carry the same name after any commands. -/
theorem unique_names {file : Option (List Byte)} {clock : Nat → Timespec} {raws : Nat → Raw}
    {b₀ : Broker} (hboot : boot file clock raws = .ok b₀)
    (hunique : b₀.config.uniqueClients = true) (rs : List Request) :
    UniqueNames (commands b₀ rs).clients := by
  have hinv := Machine.run_invariant command
    (P := fun b => b.config.uniqueClients = true ∧ UniqueNames b.clients)
    (fun b r h => ⟨by rw [command_config]; exact h.1, uniqueNames_command r h.1 h.2⟩)
    rs b₀ ⟨hunique, uniqueNames_boot hboot hunique⟩
  exact hinv.2

theorem unique_names_two :
    ∃ b₀, boot (some (bytes "unique_clients=true\n[client a]\n[client b]\n"))
        (fun _ => Timespec.zero) (fun _ => Vector.replicate 8 0) = .ok b₀ ∧
      b₀.config.uniqueClients = true ∧ ∀ rs, UniqueNames (commands b₀ rs).clients := by
  obtain ⟨b₀, hboot, hunique⟩ :=
    @exists_of_accepts (bytes "unique_clients=true\n[client a]\n[client b]\n")
      (fun b => b.config.uniqueClients) (by decide +kernel)
  exact ⟨b₀, hboot, hunique, unique_names hboot hunique⟩

end WdSupervision
