import Mathlib.Data.List.Nodup
import WdBroker.RepliesProofs

/-! # Sessions: a clientID from its REGISTER to its UNREGISTER

    A client is known to the broker by the ID it was given.  A freed slot keeps
    its stale ID and is reused later, and an announced slot got its ID long
    before its client registers; what keeps sessions apart is that live IDs are
    pairwise distinct.  That invariant (`Distinct`) needs `make_clientID` not to
    repeat itself, so a run is followed together with the IDs issued so far.

    `session_continuity`: as long as the ID is not unregistered its owner's PING
    is honoured, and once it is, nobody can use it again. -/

namespace WdSession

open CString WdClock WdTable WdClientID WdConfig WdCommand WdReach WdReplies

/-- The IDs that `parse_config` makes: one per section line, in order. -/
def startIDs (text : List Byte) (raws : Nat → Raw) : List (CStr wdClientIDLen) :=
  (List.range (sectionNames (configLines text)).length).map fun i => makeClientID (raws i)

/-- A broker with every ID that `make_clientID` has returned so far. -/
structure Issuing where
  broker : Broker
  issued : List (CStr wdClientIDLen)

/-- One command, with the ID it made. -/
def issue (s : Issuing) (r : Request) : Issuing :=
  ⟨command s.broker r, s.issued ++ (handleCommand s.broker r).made.toList⟩

/-- All IDs made in a run: those of the file, then those of the commands. -/
def issuedIDs (text : List Byte) (raws : Nat → Raw) (b₀ : Broker) (rs : List Request) :
    List (CStr wdClientIDLen) :=
  (Machine.run issue ⟨b₀, startIDs text raws⟩ rs).issued

theorem run_issue_broker (rs : List Request) :
    ∀ s : Issuing, (Machine.run issue s rs).broker = commands s.broker rs := by
  induction rs with
  | nil => intro s; rfl
  | cons r rs ih => intro s; exact ih (issue s r)

/-- The list of issued IDs only grows. -/
theorem run_issue_prefix (s : Issuing) (rs : List Request) :
    ∃ ids, (Machine.run issue s rs).issued = s.issued ++ ids := by
  refine Machine.run_invariant issue (P := fun s' => ∃ ids, s'.issued = s.issued ++ ids)
    ?_ rs s ⟨[], (List.append_nil _).symm⟩
  rintro s' r ⟨ids, h⟩
  exact ⟨ids ++ (handleCommand s'.broker r).made.toList, by
    rw [issue, h, List.append_assoc]⟩

-- ── live IDs are distinct ─────────────────────────────────────────────────────

/-- Every live ID was issued, and no two live slots hold the same one. -/
structure Distinct (s : Issuing) : Prop where
  issued : ∀ c ∈ s.broker.clients.slots, c.live = true → c.clientID ∈ s.issued
  unique : ∀ (i j : Nat) (c c' : Client), s.broker.clients.slots[i]? = some c →
    s.broker.clients.slots[j]? = some c' → c.live = true → c'.live = true →
    c.clientID = c'.clientID → i = j

/-- What a command puts into a slot has the ID that the slot had while it was
    live, or the one just made. -/
def KeepsIDs (made : Option (CStr wdClientIDLen)) (f : Client → Client) (c : Client) : Prop :=
  (f c).live = true → (c.live = true ∧ (f c).clientID = c.clientID) ∨ made = some (f c).clientID

/-- A command changes one slot at most, and no ID except for the one it makes. -/
theorem command_keepsIDs (b : Broker) (r : Request) :
    ∃ i f, (command b r).clients = b.clients.update i f ∧
      ∀ c, b.clients.slots[i]? = some c → KeepsIDs (handleCommand b r).made f c := by
  have hh := handled b r
  unfold command
  generalize handleCommand b r = o at hh ⊢
  cases hh with
  | kept hclients =>
      refine ⟨0, id, ?_, fun c _ hl => Or.inl ⟨hl, rfl⟩⟩
      rw [hclients]
      refine Table.ext_getElem? fun j => ?_
      by_cases hj : 0 = j
      · rw [← hj, Table.update_self, Option.map_id, id]
      · rw [Table.update_ne _ _ hj]
  | registered creds args i c hreq hget hslot =>
      refine ⟨i, _, rfl, fun c₀ hc₀ _ => ?_⟩
      obtain rfl := Option.some.inj (hslot.symm.trans hc₀)
      cases hann : c.anounced with
      | true =>
          refine Or.inl ⟨Client.live_iff.mpr (Or.inr hann), ?_⟩
          show (if c.anounced then c.clientID else makeClientID r.raw) = c.clientID
          rw [hann]
          rfl
      | false =>
          refine Or.inr ?_
          show _ = some (if c.anounced then c.clientID else makeClientID r.raw)
          rw [hann]
          rfl
  | pinged creds id i c hreq hslot hlive hid hpid =>
      exact ⟨i, _, rfl, fun c₀ _ hl => Or.inl ⟨hl, rfl⟩⟩
  | unregistered creds id i c hreq hslot hlive hid hperm =>
      exact ⟨i, _, rfl, fun c₀ _ hl => Bool.noConfusion hl⟩

/-- A live slot after a command is an old one, or holds the ID just made. -/
theorem live_after_command {b : Broker} {r : Request} {j : Nat} {c : Client}
    (hc : (command b r).clients.slots[j]? = some c) (hlive : c.live = true) :
    (∃ c₀, b.clients.slots[j]? = some c₀ ∧ c₀.live = true ∧ c.clientID = c₀.clientID) ∨
      (handleCommand b r).made = some c.clientID := by
  obtain ⟨i, f, hclients, hkeep⟩ := command_keepsIDs b r
  rw [hclients] at hc
  rcases Table.update_cases hc with ⟨rfl, c₀, hc₀, rfl⟩ | ⟨-, hold⟩
  · rcases hkeep c₀ hc₀ hlive with ⟨hlive₀, hid⟩ | hmade
    · exact Or.inl ⟨c₀, hc₀, hlive₀, hid⟩
    · exact Or.inr hmade
  · exact Or.inl ⟨c, hold, hlive, rfl⟩

/-- At most one slot of the new table holds the ID just made. -/
theorem made_slot_unique {b : Broker} {r : Request} {i j : Nat} {c c' : Client}
    (hnew : ∀ c ∈ b.clients.slots, c.live = true →
      (handleCommand b r).made ≠ some c.clientID)
    (hc : (command b r).clients.slots[i]? = some c)
    (hc' : (command b r).clients.slots[j]? = some c') (hl : c.live = true)
    (hl' : c'.live = true) (hmade : (handleCommand b r).made = some c.clientID)
    (hmade' : (handleCommand b r).made = some c'.clientID) : i = j := by
  obtain ⟨k, f, hclients, -⟩ := command_keepsIDs b r
  rw [hclients] at hc hc'
  have hk : ∀ {m : Nat} {d : Client}, (b.clients.update k f).slots[m]? = some d →
      d.live = true → (handleCommand b r).made = some d.clientID → m = k := by
    intro m d hd hld hmd
    rcases Table.update_cases hd with ⟨rfl, -⟩ | ⟨-, hold⟩
    · rfl
    · exact absurd hmd (hnew d (List.mem_of_getElem? hold) hld)
  exact (hk hc hl hmade).trans (hk hc' hl' hmade').symm

/-- A command keeps live IDs distinct, if the ID it makes is not one of them. -/
theorem live_ids_command {b : Broker} {r : Request}
    (h : ∀ (i j : Nat) (c c' : Client), b.clients.slots[i]? = some c →
      b.clients.slots[j]? = some c' → c.live = true → c'.live = true →
      c.clientID = c'.clientID → i = j)
    (hnew : ∀ c ∈ b.clients.slots, c.live = true →
      (handleCommand b r).made ≠ some c.clientID) {i j : Nat} {c c' : Client}
    (hc : (command b r).clients.slots[i]? = some c)
    (hc' : (command b r).clients.slots[j]? = some c') (hl : c.live = true)
    (hl' : c'.live = true) (heq : c.clientID = c'.clientID) : i = j := by
  rcases live_after_command hc hl with ⟨c₀, hc₀, hl₀, hid⟩ | hmade
  · rcases live_after_command hc' hl' with ⟨c₁, hc₁, hl₁, hid'⟩ | hmade'
    · exact h i j c₀ c₁ hc₀ hc₁ hl₀ hl₁ (by rw [← hid, ← hid', heq])
    · rw [← heq, hid] at hmade'
      exact absurd hmade' (hnew c₀ (List.mem_of_getElem? hc₀) hl₀)
  · exact made_slot_unique hnew hc hc' hl hl' hmade (heq ▸ hmade)

/-- A command keeps live IDs distinct, if the ID it makes is new. -/
theorem distinct_issue {s : Issuing} {r : Request} (h : Distinct s)
    (hnodup : (issue s r).issued.Nodup) : Distinct (issue s r) := by
  have hfresh : ∀ id ∈ s.issued, (handleCommand s.broker r).made ≠ some id := by
    intro id hid hmade
    exact List.disjoint_of_nodup_append hnodup hid (Option.mem_toList.mpr hmade)
  have hnew : ∀ c ∈ s.broker.clients.slots, c.live = true →
      (handleCommand s.broker r).made ≠ some c.clientID :=
    fun c hc hl => hfresh _ (h.issued c hc hl)
  constructor
  · intro c hc hlive
    obtain ⟨j, hj⟩ := List.mem_iff_getElem?.mp hc
    rcases live_after_command hj hlive with ⟨c₀, hc₀, hlive₀, hid⟩ | hmade
    · rw [hid]
      exact List.mem_append_left _ (h.issued c₀ (List.mem_of_getElem? hc₀) hlive₀)
    · exact List.mem_append_right _ (Option.mem_toList.mpr hmade)
  · intro i j c c' hc hc' hl hl' heq
    exact live_ids_command h.unique hnew hc hc' hl hl' heq

theorem distinct_boot {text : List Byte} {clock : Nat → Timespec} {raws : Nat → Raw}
    {b₀ : Broker} (hboot : boot (some text) clock raws = .ok b₀)
    (hnodup : (startIDs text raws).Nodup) : Distinct ⟨b₀, startIDs text raws⟩ := by
  obtain ⟨text', hfile, hacc, -, -⟩ := boot_ok hboot
  obtain rfl := Option.some.inj hfile
  have hlive : ∀ {i : Nat} {c : Client}, b₀.clients.slots[i]? = some c → c.live = true →
      i ∈ List.range (sectionNames (configLines text)).length ∧
        c.clientID = makeClientID (raws i) := by
    intro i c hc hl
    rcases accepted_slot hacc hc with ⟨name, hname, hann⟩ | ⟨-, rfl⟩
    · exact ⟨List.mem_range.mpr (List.getElem?_eq_some_iff.mp hname).1, hann.clientID_eq⟩
    · exact Bool.noConfusion hl
  constructor
  · intro c hc hl
    obtain ⟨i, hi⟩ := List.mem_iff_getElem?.mp hc
    obtain ⟨hmem, hid⟩ := hlive hi hl
    exact List.mem_map.mpr ⟨i, hmem, hid.symm⟩
  · intro i j c c' hc hc' hl hl' heq
    obtain ⟨hmem, hid⟩ := hlive hc hl
    obtain ⟨hmem', hid'⟩ := hlive hc' hl'
    exact List.inj_on_of_nodup_map hnodup hmem hmem' (by rw [← hid, ← hid', heq])

/-- A prefix of a run without repeated IDs has none either. -/
theorem nodup_of_run {s : Issuing} {rs : List Request}
    (h : (Machine.run issue s rs).issued.Nodup) : s.issued.Nodup := by
  obtain ⟨ids, hids⟩ := run_issue_prefix s rs
  rw [hids] at h
  exact h.of_append_left

/-- Live IDs stay distinct along every run that repeats no ID. -/
theorem distinct_run {rs : List Request} :
    ∀ {s : Issuing}, Distinct s → (Machine.run issue s rs).issued.Nodup →
      Distinct (Machine.run issue s rs) := by
  induction rs with
  | nil => intro s h _; exact h
  | cons r rs ih =>
      intro s h hnodup
      exact ih (distinct_issue h (nodup_of_run hnodup)) hnodup

-- ── the life of one session ───────────────────────────────────────────────────

/-- A REGISTER from `creds`, answered `OK x`. -/
def RegistersAs (b : Broker) (r : Request) (creds : Ucred) (x : CStr wdClientIDLen) : Prop :=
  (∃ s, r.creds = some creds ∧ r.buf = some (cmdRegister ++ s)) ∧
    (handleCommand b r).replies = [.text (okID x)]

/-- An UNREGISTER naming `x`, answered `OK`. -/
def Releases (b : Broker) (u : Request) (x : CStr wdClientIDLen) : Prop :=
  (∃ creds, Unregisters u creds x) ∧ (handleCommand b u).replies = [.text (bytes "OK\n")]

/-- Slot `i` is active under the ID `x` and admits the process `pid`. -/
def Held (i : Nat) (x : CStr wdClientIDLen) (pid : Int) (b : Broker) : Prop :=
  ∃ c, b.clients.slots[i]? = some c ∧ c.active = true ∧ c.clientID = x ∧
    (c.checkPID = false ∨ c.pid = pid)

/-- The ID `x` has been issued and no live slot holds it. -/
def Stale (x : CStr wdClientIDLen) (s : Issuing) : Prop :=
  x ∈ s.issued ∧ ∀ c ∈ s.broker.clients.slots, c.live = true → c.clientID ≠ x

theorem okID_inj {x y : CStr wdClientIDLen} (h : okID x = okID y) : x = y :=
  CStr.ext (List.append_cancel_left (List.append_cancel_right h))

/-- A reply that starts with `E` is none that starts with `O`. -/
theorem refusal_ne {msg ok : List Byte} (hmsg : msg.head? = some 69)
    (hok : ok.head? = some 79) : [Reply.text msg] ≠ [.text ok] := by
  intro h
  rw [Reply.text.inj (List.singleton_inj.mp h), hok] at hmsg
  exact absurd (Option.some.inj hmsg) (by decide)

/-- After `OK x` some slot is active under `x` and admits the sender. -/
theorem held_of_registersAs {b : Broker} {r : Request} {creds : Ucred}
    {x : CStr wdClientIDLen} (h : RegistersAs b r creds x) :
    ∃ i, Held i x creds.pid (command b r) := by
  obtain ⟨⟨s, hc, hb⟩, hreply⟩ := h
  unfold command
  rw [handleCommand_register hc hb] at hreply ⊢
  unfold handleRegister at hreply ⊢
  split at hreply
  · next msg hparse => exact absurd hreply (refusal_ne (parseRegister_isError hparse).head rfl)
  · next args hparse =>
      split at hreply
      · exact absurd hreply (refusal_ne rfl rfl)
      · next i hget =>
          obtain ⟨c, hslot, -⟩ := getClientInstanceByName_some hget
          have hnew : (b.clients.update i (registerSlot args creds.pid r.now r.raw)).slots[i]?
              = some (registerSlot args creds.pid r.now r.raw c) := by
            rw [Table.update_self, hslot]; rfl
          refine ⟨i, _, hnew, rfl, ?_, Or.inr rfl⟩
          rw [← deref_of_getElem? hnew]
          exact okID_inj (Reply.text.inj (List.singleton_inj.mp hreply))

/-- A session lasts until an UNREGISTER of its ID is answered `OK`. -/
theorem held_command {i : Nat} {x : CStr wdClientIDLen} {pid : Int} {b : Broker}
    {r : Request} (h : Held i x pid b) (hno : ¬ Releases b r x) :
    Held i x pid (command b r) := by
  obtain ⟨c, hc, hact, hid, hadm⟩ := h
  have hother : ∀ {j : Nat} (f : Client → Client), j ≠ i →
      (b.clients.update j f).slots[i]? = some c :=
    fun f hj => (Table.update_ne b.clients f hj).trans hc
  have hh := handled b r
  unfold command
  unfold Releases at hno
  generalize handleCommand b r = o at hh hno ⊢
  cases hh with
  | kept hclients => exact ⟨c, hclients ▸ hc, hact, hid, hadm⟩
  | registered creds args j c' hreq hget hslot =>
      obtain ⟨c'', hc'', hidle, -⟩ := getClientInstanceByName_some hget
      have hj : j ≠ i := by
        rintro rfl
        obtain rfl := Option.some.inj (hc.symm.trans hc'')
        exact absurd (hact.symm.trans hidle) (by decide)
      exact ⟨c, hother _ hj, hact, hid, hadm⟩
  | pinged creds y j c' hreq hslot hlive hid' hpid =>
      by_cases hj : j = i
      · subst hj
        refine ⟨pingSlot r.now c, ?_, hact, hid, hadm⟩
        show (b.clients.update j (pingSlot r.now)).slots[j]? = _
        rw [Table.update_self, hc]
        rfl
      · exact ⟨c, hother _ hj, hact, hid, hadm⟩
  | unregistered creds y j c' hreq hslot hlive hid' hperm =>
      have hj : j ≠ i := by
        rintro rfl
        obtain rfl := Option.some.inj (hc.symm.trans hslot)
        obtain rfl := hid'.symm.trans hid
        exact hno ⟨⟨creds, hreq⟩, rfl⟩
      exact ⟨c, hother _ hj, hact, hid, hadm⟩

theorem held_run {i : Nat} {x : CStr wdClientIDLen} {pid : Int} {rs : List Request} :
    ∀ {b : Broker}, Held i x pid b →
      Machine.Admissible (fun b u => ¬ Releases b u x) command b rs →
      Held i x pid (commands b rs) := by
  induction rs with
  | nil => intro b h _; exact h
  | cons r rs ih => intro b h hno; exact ih (held_command h hno.1) hno.2

/-- An UNREGISTER answered `OK` has released a live slot that holds the ID. -/
theorem releases_release {b : Broker} {u : Request} {x : CStr wdClientIDLen}
    (h : Releases b u x) :
    ∃ i c, b.clients.slots[i]? = some c ∧ c.live = true ∧ c.clientID = x ∧
      handleCommand b u = release b i := by
  obtain ⟨⟨creds, s, hc, hb, hnames⟩, hreply⟩ := h
  rw [handleCommand_unregister hc hb] at hreply ⊢
  unfold handleUnregister at hreply ⊢
  rw [parseClientID_ok_iff.mpr hnames] at hreply ⊢
  dsimp only at hreply ⊢
  split at hreply
  · next i hlook =>
      obtain ⟨c, hslot, hlive, hid, -⟩ := lookup_identified hlook
      split at hreply
      · exact absurd hreply (refusal_ne rfl rfl)
      · next hguard => exact ⟨i, c, hslot, hlive, hid, if_neg hguard⟩
  · next i hlook =>
      obtain ⟨c, hslot, hlive, hid, -, -⟩ := lookup_pidMismatch hlook
      split at hreply
      · next huid => exact ⟨i, c, hslot, hlive, hid, if_pos huid⟩
      · exact absurd hreply (refusal_ne rfl rfl)
  · exact absurd hreply (refusal_ne rfl rfl)

/-- Once released, the ID is stale: no other slot held it. -/
theorem stale_of_releases {s : Issuing} {u : Request} {x : CStr wdClientIDLen}
    (h : Distinct s) (hrel : Releases s.broker u x) : Stale x (issue s u) := by
  obtain ⟨i, c, hc, hlive, hid, hhandle⟩ := releases_release hrel
  refine ⟨List.mem_append_left _ (hid ▸ h.issued c (List.mem_of_getElem? hc) hlive), ?_⟩
  intro c' hc' hlive' hid'
  unfold issue command at hc'
  rw [hhandle] at hc'
  obtain ⟨j, hj⟩ := List.mem_iff_getElem?.mp hc'
  rcases Table.update_cases hj with ⟨-, c₀, -, rfl⟩ | ⟨hne, hold⟩
  · exact Bool.noConfusion hlive'
  · exact hne (h.unique j i c' c hold hc hlive' hlive (hid'.trans hid.symm))

/-- A stale ID stays stale, in whatever order slots are reused. -/
theorem stale_run {x : CStr wdClientIDLen} {rs : List Request} :
    ∀ {s : Issuing}, Stale x s → (Machine.run issue s rs).issued.Nodup →
      Stale x (Machine.run issue s rs) := by
  induction rs with
  | nil => intro s h _; exact h
  | cons r rs ih =>
      intro s h hnodup
      refine ih ⟨List.mem_append_left _ h.1, ?_⟩ hnodup
      intro c hc hlive
      obtain ⟨j, hj⟩ := List.mem_iff_getElem?.mp hc
      rcases live_after_command hj hlive with ⟨c₀, hc₀, hlive₀, hid⟩ | hmade
      · rw [hid]
        exact h.2 c₀ (List.mem_of_getElem? hc₀) hlive₀
      · rintro rfl
        have hstep : (issue s r).issued.Nodup := nodup_of_run hnodup
        exact List.disjoint_of_nodup_append hstep h.1 (Option.mem_toList.mpr hmade)

/-- With one slot per live ID, a PING that the slot admits refreshes just it. -/
theorem ping_held {s : Issuing} {i : Nat} {x : CStr wdClientIDLen} {q : Request}
    {creds : Ucred} (h : Distinct s) (hheld : Held i x creds.pid s.broker)
    (hq : Pings q creds x) :
    (handleCommand s.broker q).replies = [.text (bytes "OK\n")] ∧
      (handleCommand s.broker q).broker
        = { s.broker with clients := s.broker.clients.update i (pingSlot q.now) } := by
  obtain ⟨t, hc, hb, hnames⟩ := hq
  obtain ⟨c, hslot, hact, hid, hadm⟩ := hheld
  have hlive : c.live = true := Client.live_iff.mpr (Or.inl hact)
  rw [handleCommand_ping hc hb]
  unfold handlePing
  rw [parseClientID_ok_iff.mpr hnames]
  dsimp only
  cases hlook : getClientInstanceByClientID s.broker.clients.slots x creds.pid with
  | identified j =>
      obtain ⟨c', hslot', hlive', hid', -⟩ := lookup_identified hlook
      obtain rfl := h.unique j i c' c hslot' hslot hlive' hlive (hid'.trans hid.symm)
      exact ⟨rfl, rfl⟩
  | pidMismatch j =>
      obtain ⟨c', hslot', hlive', hid', hcheck, hpid⟩ := lookup_pidMismatch hlook
      obtain rfl := h.unique j i c' c hslot' hslot hlive' hlive (hid'.trans hid.symm)
      obtain rfl := Option.some.inj (hslot.symm.trans hslot')
      rcases hadm with hoff | heq
      · rw [hcheck] at hoff
        exact Bool.noConfusion hoff
      · exact absurd heq hpid
  | notFound => exact absurd hid (lookup_notFound_iff.mp hlook c (List.mem_of_getElem? hslot) hlive)

/-- Nobody can use a stale ID. -/
theorem stale_unknown {s : Issuing} {x : CStr wdClientIDLen} {q : Request} {creds : Ucred}
    (h : Stale x s) (hq : Pings q creds x ∨ Unregisters q creds x) :
    (handleCommand s.broker q).replies = [.text (bytes "ERROR unknown clientID\n")] := by
  have hlook : getClientInstanceByClientID s.broker.clients.slots x creds.pid = .notFound :=
    lookup_notFound_iff.mpr h.2
  rcases hq with ⟨t, hc, hb, hnames⟩ | ⟨t, hc, hb, hnames⟩
  · rw [handleCommand_ping hc hb, handlePing, parseClientID_ok_iff.mpr hnames]
    dsimp only
    rw [hlook]
    rfl
  · rw [handleCommand_unregister hc hb, handleUnregister, parseClientID_ok_iff.mpr hnames]
    dsimp only
    rw [hlook]
    rfl

/-- **SESSION CONTINUITY**: in a run in which `make_clientID` never repeats an ID,
    let a REGISTER from process `p` be answered `OK x`.  As long as no UNREGISTER
    naming `x` is answered `OK`, a PING naming `x` from `p` is answered `OK` and
    changes nothing but `last_ping` of the one slot that holds `x`; and once one
    is, every PING or UNREGISTER naming `x`, from anybody, is answered
    `ERROR unknown clientID`. -/
theorem session_continuity {text : List Byte} {clock : Nat → Timespec} {raws : Nat → Raw}
    {b₀ : Broker} (hboot : boot (some text) clock raws = .ok b₀) {rs rs' : List Request}
    {r : Request} {creds : Ucred} {x : CStr wdClientIDLen}
    (hreg : RegistersAs (commands b₀ rs) r creds x)
    (hfresh : (issuedIDs text raws b₀ (rs ++ r :: rs')).Nodup) :
    ((∀ us u vs, rs' = us ++ u :: vs → ¬ Releases (commands b₀ (rs ++ r :: us)) u x) →
      ∀ q creds', Pings q creds' x → creds'.pid = creds.pid →
        let b := commands b₀ (rs ++ r :: rs')
        (handleCommand b q).replies = [.text (bytes "OK\n")] ∧
        ∃ i, (∀ (j : Nat) (c : Client), b.clients.slots[j]? = some c →
            (c.live = true ∧ c.clientID = x ↔ j = i)) ∧
          (handleCommand b q).broker
            = { b with clients := b.clients.update i fun c => { c with lastPing := q.now } }) ∧
    (∀ us u vs, rs' = us ++ u :: vs → Releases (commands b₀ (rs ++ r :: us)) u x →
      ∀ q creds', Pings q creds' x ∨ Unregisters q creds' x →
        (handleCommand (commands b₀ (rs ++ r :: rs')) q).replies
          = [.text (bytes "ERROR unknown clientID\n")]) := by
  have hstart : Distinct ⟨b₀, startIDs text raws⟩ := distinct_boot hboot (nodup_of_run hfresh)
  have hbroker : ∀ us, (Machine.run issue ⟨b₀, startIDs text raws⟩ (rs ++ r :: us)).broker
      = commands b₀ (rs ++ r :: us) := fun us => run_issue_broker _ _
  constructor
  · intro hno q creds' hq hpid
    obtain ⟨i, hheld⟩ := held_of_registersAs hreg
    have heq : ∀ us, commands b₀ (rs ++ r :: us) = commands (command (commands b₀ rs) r) us :=
      fun us => Machine.run_append command b₀ rs (r :: us)
    have hend : Held i x creds'.pid (commands b₀ (rs ++ r :: rs')) := by
      rw [heq, hpid]
      refine held_run hheld (Machine.admissible_iff.mpr fun us u vs hus => ?_)
      have hkeep := hno us u vs hus
      rw [heq us] at hkeep
      exact hkeep
    have hdist := distinct_run hstart hfresh
    rw [← hbroker rs'] at hend ⊢
    obtain ⟨hreply, hafter⟩ := ping_held hdist hend hq
    refine ⟨hreply, i, fun j c hc => ?_, hafter⟩
    obtain ⟨c₀, hc₀, hact, hid, -⟩ := hend
    have hlive : c₀.live = true := Client.live_iff.mpr (Or.inl hact)
    constructor
    · rintro ⟨hl, hx⟩
      exact hdist.unique j i c c₀ hc hc₀ hl hlive (hx.trans hid.symm)
    · rintro rfl
      obtain rfl := Option.some.inj (hc₀.symm.trans hc)
      exact ⟨hlive, hid⟩
  · intro us u vs hus hrel q creds' hq
    -- the state in which the UNREGISTER was answered, and the commands after it
    have hrun : Machine.run issue ⟨b₀, startIDs text raws⟩ (rs ++ r :: rs')
        = Machine.run issue
            (issue (Machine.run issue ⟨b₀, startIDs text raws⟩ (rs ++ r :: us)) u) vs := by
      rw [hus, ← List.cons_append, ← List.append_assoc, Machine.run_append]
      rfl
    rw [← hbroker us] at hrel
    rw [← hbroker rs', hrun]
    unfold issuedIDs at hfresh
    rw [hrun] at hfresh
    have hdist := distinct_run hstart (@nodup_of_run _ (u :: vs) hfresh)
    exact stale_unknown (stale_run (stale_of_releases hdist hrel) hfresh) hq

/-- A command in a packet of its own, from process `pid` of an ordinary user. -/
def userRequest (pid : Int) (s : String) : Request :=
  ⟨some ⟨pid, 1000⟩, .packet (bytes s), Timespec.zero, Vector.replicate 8 0⟩

theorem session_continuity_ping :
    (handleCommand (commands ⟨Table.zero, Parse.init.config, true, false⟩
        [userRequest 7 "REGISTER a 5000\n"])
      (userRequest 7 "PING 0000000000000000\n")).replies = [.text (bytes "OK\n")] := by
  have hreg : RegistersAs ⟨Table.zero, Parse.init.config, true, false⟩
      (userRequest 7 "REGISTER a 5000\n") ⟨7, 1000⟩ (makeClientID (Vector.replicate 8 0)) :=
    ⟨⟨bytes "a 5000\n", rfl, by decide⟩, by decide +kernel⟩
  have hping : Pings (userRequest 7 "PING 0000000000000000\n") ⟨7, 1000⟩
      (makeClientID (Vector.replicate 8 0)) :=
    ⟨bytes "0000000000000000\n", rfl, by decide,
      (@parseClientID_ok_iff [] _ _).mp (by decide +kernel)⟩
  have hno : ∀ us u (vs : List Request), [] = us ++ u :: vs → False := by simp
  exact ((@session_continuity [] _ _ _ boot_empty [] [] _ _ _ hreg (by decide +kernel)).1
    (fun us u vs h => (hno us u vs h).elim) _ _ hping rfl).1

end WdSession
