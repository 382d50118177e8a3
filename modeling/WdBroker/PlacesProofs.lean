import WdBroker.RegistryProofs

/-! # What the answers show of the table

    The registry leaves two things open (`serves_choice`): which of several waiting
    clients of one name a REGISTER claims, and the order of the lines of STATUS.
    Everything else is settled by the clients alone.  So a table cannot be told from
    another one that has the same clients in other slots, with other leftovers in
    the free ones (`places_unobservable`), and the other way round the answers
    settle which clients a table holds (`answers_settle_registry`). -/

namespace WdPlaces

open CString Scanf WdClock WdTable WdClientID WdCommand WdReach WdReplies WdSession WdUniqueID
open WdAccounting WdConfig WdRegistry

-- ── where the registry leaves a choice ────────────────────────────────────────

variable {b : Broker} {R : Registry} {creds : Ucred} {now : Timespec} {config : Config}
  {new : CStr wdClientIDLen} {R' R'' : Registry} {cmd : Command} {reply reply' : Reply}

theorem becomes_unique {entries : Finset Entry} (h : R.Becomes R' entries)
    (h' : R.Becomes R'' entries) : R' = R'' :=
  Registry.ext (h.1.trans h'.1.symm) (h.2.trans h'.2.symm)

/-- REGISTER: refused, or a client is claimed, or one is enrolled. -/
theorem serves_register {args : RegisterArgs}
    (h : Serves config creds now new R (.register args) reply R') :
    ((R.Taken config args.name ∨ (∀ e, ¬ R.Awaits args.name e) ∧
          (config.strictClients = true ∨ R.entries.card = wdMaxClients)) ∧
        reply = .text (bytes "ERROR rejected\n") ∧ R' = R) ∨
      (¬ R.Taken config args.name ∧ ∃ e, R.Awaits args.name e ∧ reply = .text (okID e.id) ∧
        R.Becomes R' (insert (Entry.enrolled e.id args creds.pid now) (R.entries.erase e))) ∨
      (¬ R.Taken config args.name ∧ (∀ e, ¬ R.Awaits args.name e) ∧
        config.strictClients = false ∧ R.entries.card < wdMaxClients ∧
        reply = .text (okID new) ∧
        R.Becomes R' (insert (Entry.enrolled new args creds.pid now) R.entries)) := by
  cases h with
  | refused hmsg =>
      cases hmsg with
      | taken _ htaken => exact Or.inl ⟨Or.inl htaken, rfl, rfl⟩
      | noPlace _ hnone hfull => exact Or.inl ⟨Or.inr ⟨hnone, hfull⟩, rfl, rfl⟩
  | claimed hname he hnext => exact Or.inr (Or.inl ⟨hname, _, he, rfl, hnext⟩)
  | enrolled hname hnone hopen hroom hfresh hnext =>
      exact Or.inr (Or.inr ⟨hname, hnone, hopen, hroom, rfl, hnext⟩)

/-- PING, for the client that holds the ID. -/
theorem serves_ping {e : Entry} (he : e ∈ R.entries)
    (h : Serves config creds now new R (.ping e.id) reply R') :
    (e.Admits creds.pid ∧ reply = .text (bytes "OK\n") ∧
        R.Becomes R' (insert { e with lastHeard := now } (R.entries.erase e))) ∨
      (¬ e.Admits creds.pid ∧ reply = .text (bytes "ERROR wrong PID\n") ∧ R' = R) := by
  generalize hx : e.id = x at h
  cases h with
  | refused hmsg =>
      cases hmsg with
      | unknownPing _ hno => exact absurd hx (hno e he)
      | wrongPID e' he' hadm =>
          obtain rfl := R.distinct e he e' he' hx
          exact Or.inr ⟨hadm, rfl, rfl⟩
  | heard he' hadm hnext =>
      obtain rfl := R.distinct e he _ he' hx
      exact Or.inl ⟨hadm, rfl, hnext⟩

/-- UNREGISTER, for the client that holds the ID. -/
theorem serves_unregister {e : Entry} (he : e ∈ R.entries)
    (h : Serves config creds now new R (.unregister e.id) reply R') :
    ((creds.uid = 0 ∨ config.strictClients = false ∧ e.Admits creds.pid) ∧
        reply = .text (bytes "OK\n") ∧ R.Becomes R' (R.entries.erase e)) ∨
      (creds.uid ≠ 0 ∧ e.Admits creds.pid ∧ config.strictClients = true ∧
        reply = .text (bytes "ERROR rejected\n") ∧ R' = R) ∨
      (creds.uid ≠ 0 ∧ ¬ e.Admits creds.pid ∧
        reply = .text (bytes "ERROR no permission\n") ∧ R' = R) := by
  generalize hx : e.id = x at h
  cases h with
  | refused hmsg =>
      cases hmsg with
      | unknownUnregister _ hno => exact absurd hx (hno e he)
      | strict e' he' hadm hstrict =>
          obtain rfl := R.distinct e he e' he' hx
          exact Or.inr (Or.inl ⟨hstrict.2, hadm, hstrict.1, rfl, rfl⟩)
      | foreign e' he' hadm huid =>
          obtain rfl := R.distinct e he e' he' hx
          exact Or.inr (Or.inr ⟨huid, hadm, rfl, rfl⟩)
  | removed he' hperm hnext =>
      obtain rfl := R.distinct e he _ he' hx
      exact Or.inl ⟨hperm, rfl, hnext⟩

/-- PING and UNREGISTER, if no client holds the ID. -/
theorem serves_unknown {x : CStr wdClientIDLen} (hno : ∀ e ∈ R.entries, e.id ≠ x)
    (hcmd : cmd = .ping x ∨ cmd = .unregister x) (h : Serves config creds now new R cmd reply R') :
    reply = .text (bytes "ERROR unknown clientID\n") ∧ R' = R := by
  rcases hcmd with rfl | rfl
  · cases h with
    | refused hmsg =>
        cases hmsg with
        | unknownPing => exact ⟨rfl, rfl⟩
        | wrongPID e he => exact absurd rfl (hno e he)
    | heard he => exact absurd rfl (hno _ he)
  · cases h with
    | refused hmsg =>
        cases hmsg with
        | unknownUnregister => exact ⟨rfl, rfl⟩
        | strict e he => exact absurd rfl (hno e he)
        | foreign e he => exact absurd rfl (hno e he)
    | removed he => exact absurd rfl (hno _ he)

/-- REBOOT: refused, or asked for. -/
theorem serves_reboot (h : Serves config creds now new R .reboot reply R') :
    (creds.uid ≠ 0 ∧ reply = .text (bytes "ERROR no permission\n") ∧ R' = R) ∨
      (creds.uid = 0 ∧
        reply = .text (bytes "OK, " ++ decimalInt config.rebootTimeoutS ++ bytes "\n") ∧
        R'.entries = R.entries ∧ R'.rebooting = true) := by
  cases h with
  | refused hmsg =>
      cases hmsg with
      | notRoot huid => exact Or.inl ⟨huid, rfl, rfl⟩
  | rebooting hroot hentries hflag => exact Or.inr ⟨hroot, rfl, hentries, hflag⟩

/-- STATUS: refused, or the clients are listed. -/
theorem serves_status (h : Serves config creds now new R .status reply R') :
    R' = R ∧
      ((creds.pid ≠ 0 ∧ creds.uid ≠ 0 ∧ reply = .text (bytes "ERROR no permission\n")) ∨
        ((creds.pid = 0 ∨ creds.uid = 0) ∧ ∃ rows : List Entry, rows.Nodup ∧
          rows.toFinset = R.entries ∧ reply = statusReply config R rows)) := by
  cases h with
  | refused hmsg =>
      cases hmsg with
      | notPrivileged hno => exact ⟨rfl, Or.inl ⟨hno.1, hno.2, rfl⟩⟩
  | listed hperm hnodup hrows => exact ⟨rfl, Or.inr ⟨hperm, _, hnodup, hrows, rfl⟩⟩

/-- Both answers list the same clients. -/
def BothList (config : Config) (R : Registry) (reply reply' : Reply) : Prop :=
  ∃ rows rows' : List Entry, rows.Perm rows' ∧ rows.toFinset = R.entries ∧
    reply = statusReply config R rows ∧ reply' = statusReply config R rows'

/-- The two answers claim different clients of one name. -/
def ClaimsApart (R : Registry) (cmd : Command) (reply reply' : Reply) : Prop :=
  ∃ args e e', cmd = .register args ∧ R.Awaits args.name e ∧ R.Awaits args.name e' ∧ e ≠ e' ∧
    reply = .text (okID e.id) ∧ reply' = .text (okID e'.id)

/-- **THE TWO CHOICES**: which client of the name is claimed, and in which order the
    clients are listed; everything else is settled. -/
theorem serves_choice (h : Serves config creds now new R cmd reply R')
    (h' : Serves config creds now new R cmd reply' R'') :
    (R' = R'' ∧ (reply = reply' ∨ BothList config R reply reply')) ∨
      ClaimsApart R cmd reply reply' := by
  cases cmd with
  | register args =>
      rcases serves_register h with ⟨hno, rfl, rfl⟩ | ⟨hname, e, he, rfl, hnext⟩ |
        ⟨hname, hnone, hopen, hroom, rfl, hnext⟩ <;>
      rcases serves_register h' with ⟨hno', rfl, rfl⟩ | ⟨hname', e', he', rfl, hnext'⟩ |
        ⟨hname', hnone', hopen', hroom', rfl, hnext'⟩
      · exact Or.inl ⟨rfl, Or.inl rfl⟩
      · rcases hno with htaken | ⟨hnone, -⟩
        · exact absurd htaken hname'
        · exact absurd he' (hnone e')
      · rcases hno with htaken | ⟨-, hstrict | hfull⟩
        · exact absurd htaken hname'
        · exact absurd (hopen'.symm.trans hstrict) Bool.false_ne_true
        · exact absurd hfull hroom'.ne
      · rcases hno' with htaken | ⟨hnone, -⟩
        · exact absurd htaken hname
        · exact absurd he (hnone e)
      · by_cases heq : e = e'
        · subst heq
          exact Or.inl ⟨becomes_unique hnext hnext', Or.inl rfl⟩
        · exact Or.inr ⟨args, e, e', rfl, he, he', heq, rfl, rfl⟩
      · exact absurd he (hnone' e)
      · rcases hno' with htaken | ⟨-, hstrict | hfull⟩
        · exact absurd htaken hname
        · exact absurd (hopen.symm.trans hstrict) Bool.false_ne_true
        · exact absurd hfull hroom.ne
      · exact absurd he' (hnone e')
      · exact Or.inl ⟨becomes_unique hnext hnext', Or.inl rfl⟩
  | ping x =>
      refine Or.inl ?_
      by_cases hx : ∃ e ∈ R.entries, e.id = x
      · obtain ⟨e, he, rfl⟩ := hx
        rcases serves_ping he h with ⟨hadm, rfl, hnext⟩ | ⟨hadm, rfl, rfl⟩ <;>
        rcases serves_ping he h' with ⟨hadm', rfl, hnext'⟩ | ⟨hadm', rfl, rfl⟩
        · exact ⟨becomes_unique hnext hnext', Or.inl rfl⟩
        · exact absurd hadm hadm'
        · exact absurd hadm' hadm
        · exact ⟨rfl, Or.inl rfl⟩
      · have hno : ∀ e ∈ R.entries, e.id ≠ x := fun e he hid => hx ⟨e, he, hid⟩
        obtain ⟨rfl, rfl⟩ := serves_unknown hno (Or.inl rfl) h
        obtain ⟨rfl, rfl⟩ := serves_unknown hno (Or.inl rfl) h'
        exact ⟨rfl, Or.inl rfl⟩
  | unregister x =>
      refine Or.inl ?_
      by_cases hx : ∃ e ∈ R.entries, e.id = x
      · obtain ⟨e, he, rfl⟩ := hx
        rcases serves_unregister he h with ⟨hperm, rfl, hnext⟩ | ⟨huid, hadm, hstrict, rfl, rfl⟩ |
          ⟨huid, hadm, rfl, rfl⟩ <;>
        rcases serves_unregister he h' with ⟨hperm', rfl, hnext'⟩ |
          ⟨huid', hadm', hstrict', rfl, rfl⟩ | ⟨huid', hadm', rfl, rfl⟩
        · exact ⟨becomes_unique hnext hnext', Or.inl rfl⟩
        · rcases hperm with hroot | ⟨hopen, -⟩
          · exact absurd hroot huid'
          · exact absurd (hopen.symm.trans hstrict') Bool.false_ne_true
        · rcases hperm with hroot | ⟨-, hadm⟩
          · exact absurd hroot huid'
          · exact absurd hadm hadm'
        · rcases hperm' with hroot | ⟨hopen, -⟩
          · exact absurd hroot huid
          · exact absurd (hopen.symm.trans hstrict) Bool.false_ne_true
        · exact ⟨rfl, Or.inl rfl⟩
        · exact absurd hadm hadm'
        · rcases hperm' with hroot | ⟨-, hadm'⟩
          · exact absurd hroot huid
          · exact absurd hadm' hadm
        · exact absurd hadm' hadm
        · exact ⟨rfl, Or.inl rfl⟩
      · have hno : ∀ e ∈ R.entries, e.id ≠ x := fun e he hid => hx ⟨e, he, hid⟩
        obtain ⟨rfl, rfl⟩ := serves_unknown hno (Or.inr rfl) h
        obtain ⟨rfl, rfl⟩ := serves_unknown hno (Or.inr rfl) h'
        exact ⟨rfl, Or.inl rfl⟩
  | reboot =>
      refine Or.inl ?_
      rcases serves_reboot h with ⟨huid, rfl, rfl⟩ | ⟨huid, rfl, hentries, hflag⟩ <;>
      rcases serves_reboot h' with ⟨huid', rfl, rfl⟩ | ⟨huid', rfl, hentries', hflag'⟩
      · exact ⟨rfl, Or.inl rfl⟩
      · exact absurd huid' huid
      · exact absurd huid huid'
      · exact ⟨Registry.ext (hentries.trans hentries'.symm) (hflag.trans hflag'.symm), Or.inl rfl⟩
  | status =>
      obtain ⟨rfl, hreply⟩ := serves_status h
      obtain ⟨rfl, hreply'⟩ := serves_status h'
      refine Or.inl ⟨rfl, ?_⟩
      rcases hreply with ⟨hpid, huid, rfl⟩ | ⟨hperm, rows, hnodup, hrows, rfl⟩ <;>
      rcases hreply' with ⟨hpid', huid', rfl⟩ | ⟨hperm', rows', hnodup', hrows', rfl⟩
      · exact Or.inl rfl
      · exact absurd hperm' (not_or.mpr ⟨hpid, huid⟩)
      · exact absurd hperm (not_or.mpr ⟨hpid', huid'⟩)
      · refine Or.inr ⟨rows, rows', ?_, hrows, rfl, rfl⟩
        refine (List.perm_ext_iff_of_nodup hnodup hnodup').mpr fun e => ?_
        rw [← List.mem_toFinset, hrows, ← hrows', List.mem_toFinset]
  | version =>
      cases h with
      | refused hmsg => exact nomatch hmsg
      | version =>
          cases h' with
          | refused hmsg' => exact nomatch hmsg'
          | version => exact Or.inl ⟨rfl, Or.inl rfl⟩

-- ── requests to two registries ────────────────────────────────────────────────

/-- Replies that say the same, STATUS up to the order of the clients. -/
def Alike (config : Config) (replies replies' : List Reply) : Prop :=
  replies = replies' ∨
    ∃ R reply reply', replies = [reply] ∧ replies' = [reply'] ∧ BothList config R reply reply'

/-- No two clients are waited for under one name. -/
def AwaitsDistinct (R : Registry) : Prop :=
  ∀ name e e', R.Awaits name e → R.Awaits name e' → e = e'

/-- Who is waited for afterwards was waited for before. -/
theorem serves_awaits (h : Serves config creds now new R cmd reply R') {f : Entry}
    (hf : f ∈ R'.entries) (hreg : f.registered = false) :
    ∃ g ∈ R.entries, g.registered = false ∧ g.name = f.name ∧ g.id = f.id := by
  have hkept : f ∈ R.entries → ∃ g ∈ R.entries, g.registered = false ∧ g.name = f.name ∧
      g.id = f.id := fun hold => ⟨f, hold, hreg, rfl, rfl⟩
  cases h with
  | refused => exact hkept hf
  | claimed hname he hnext =>
      rw [hnext.1, Finset.mem_insert] at hf
      rcases hf with rfl | hold
      · exact Bool.noConfusion hreg
      · exact hkept (Finset.mem_of_mem_erase hold)
  | enrolled hname hnone hopen hroom hfresh hnext =>
      rw [hnext.1, Finset.mem_insert] at hf
      rcases hf with rfl | hold
      · exact Bool.noConfusion hreg
      · exact hkept hold
  | heard he hadm hnext =>
      rw [hnext.1, Finset.mem_insert] at hf
      rcases hf with rfl | hold
      · exact ⟨_, he, hreg, rfl, rfl⟩
      · exact hkept (Finset.mem_of_mem_erase hold)
  | removed he hperm hnext =>
      rw [hnext.1] at hf
      exact hkept (Finset.mem_of_mem_erase hf)
  | rebooting hroot hentries hflag => exact hkept (hentries ▸ hf)
  | listed => exact hkept hf
  | version => exact hkept hf

theorem awaitsDistinct_serves (h : Serves config creds now new R cmd reply R')
    (hdist : AwaitsDistinct R) : AwaitsDistinct R' := by
  rintro name f f' ⟨hf, hreg, hname⟩ ⟨hf', hreg', hname'⟩
  obtain ⟨g, hg, hgreg, hgname, hgid⟩ := serves_awaits h hf hreg
  obtain ⟨g', hg', hgreg', hgname', hgid'⟩ := serves_awaits h hf' hreg'
  obtain rfl := hdist name g g' ⟨hg, hgreg, hgname.trans hname⟩ ⟨hg', hgreg', hgname'.trans hname'⟩
  exact R'.distinct f hf f' hf' (hgid.symm.trans hgid')

/-- A claim that could have gone elsewhere needs two clients of one name. -/
theorem not_claimsApart (hdist : AwaitsDistinct R) : ¬ ClaimsApart R cmd reply reply' := by
  rintro ⟨args, e, e', -, he, he', hne, -, -⟩
  exact hne (hdist args.name e e' he he')

/-- **ONE REQUEST TO ONE REGISTRY**, answered twice: alike, with the same outcome. -/
theorem spec_alike {r : Request} {replies replies' : List Reply} (hdist : AwaitsDistinct R)
    (h : spec config R r replies R') (h' : spec config R r replies' R'') :
    Alike config replies replies' ∧ R' = R'' ∧ AwaitsDistinct R' := by
  unfold spec at h h'
  cases hread : readRequest r with
  | error msg =>
      rw [hread] at h h'
      obtain ⟨rfl, rfl⟩ := h
      obtain ⟨rfl, rfl⟩ := h'
      exact ⟨Or.inl rfl, rfl, hdist⟩
  | ok p =>
      obtain ⟨creds, cmd⟩ := p
      rw [hread] at h h'
      obtain ⟨reply, rfl, hserves⟩ := h
      obtain ⟨reply', rfl, hserves'⟩ := h'
      rcases serves_choice hserves hserves' with ⟨rfl, hsame⟩ | hapart
      · refine ⟨?_, rfl, awaitsDistinct_serves hserves hdist⟩
        rcases hsame with rfl | hlist
        · exact Or.inl rfl
        · exact Or.inr ⟨R, reply, reply', rfl, rfl, hlist⟩
      · exact absurd hapart (not_claimsApart hdist)

/-- Whether an ID is made is settled by the registry. -/
theorem takesFree_iff (h : Keeps b R) {r : Request} :
    TakesFree b r ↔ ∃ creds args, Registers r creds args ∧ ¬ R.Taken b.config args.name ∧
      (∀ e, ¬ R.Awaits args.name e) ∧ b.config.strictClients = false ∧
      R.entries.card < wdMaxClients := by
  constructor
  · rintro ⟨creds, args, i, c, hreq, hget, hc, hnot⟩
    obtain ⟨c', hc', hact, hunused, hkind⟩ := getClientInstanceByName_some hget
    obtain rfl := Option.some.inj (hc.symm.trans hc')
    rcases hkind with ⟨hann, -⟩ | ⟨-, hopen, hnone⟩
    · exact absurd (hnot.symm.trans hann) Bool.false_ne_true
    · refine ⟨creds, args, hreq, ?_, ?_, hopen, ?_⟩
      · rintro ⟨hcfg, e, he, hreg, hn⟩
        obtain ⟨c', hmem, -, rfl⟩ := h.slot he
        exact hunused hcfg c' hmem hreg hn
      · refine h.awaits_iff.mpr fun c' hmem => ?_
        rw [← Bool.not_eq_true, Client.claimable_iff]
        exact fun hclaim => hnone c' hmem hclaim.2.1 hclaim.1 hclaim.2.2
      · rw [h.card]
        refine lt_of_le_of_ne (b.clients.size ▸ List.countP_le_length) fun hfull => ?_
        have := liveSlots_full_iff.mp hfull c (List.mem_of_getElem? hc)
        rw [Client.not_live_iff.mpr ⟨hact, hnot⟩] at this
        exact Bool.noConfusion this
  · rintro ⟨creds, args, hreq, hname, hnone, hopen, hroom⟩
    have hget := getClientInstanceByName_eq b.config b.clients.slots args.name
    rw [if_neg (mt h.taken_iff.mpr hname),
      List.findIdx?_eq_none_iff.mpr (h.awaits_iff.mp hnone), hopen] at hget
    dsimp only at hget
    rw [if_neg Bool.false_ne_true] at hget
    cases hfind : b.clients.slots.findIdx? Client.free with
    | some i =>
        obtain ⟨c, hc, hfree, -⟩ := findIdx?_some hfind
        exact ⟨creds, args, i, c, hreq, hget.trans hfind, hc, (Client.free_iff.mp hfree).1⟩
    | none =>
        refine absurd ?_ hroom.ne
        rw [h.card, liveSlots_full_iff]
        intro c hc
        have hfree := findIdx?_none hfind c hc
        rw [← Bool.not_eq_true, Client.free_iff] at hfree
        rw [← Bool.not_eq_false, Client.not_live_iff]
        exact fun hdead => hfree hdead.symm

/-- Two tables of the same registry ask the same of a new ID. -/
theorem fresh_of_keeps (h : Keeps b R) {b' : Broker} (h' : Keeps b' R)
    (hconfig : b.config = b'.config) {r : Request} (hfresh : Fresh b r) : Fresh b' r := by
  intro htakes c hc hlive
  rw [takesFree_iff h', ← hconfig, ← takesFree_iff h] at htakes
  obtain ⟨i, hi⟩ := List.mem_iff_getElem?.mp hc
  obtain ⟨c₀, hc₀, hlive₀, heq⟩ := h.slot (h'.mem hi hlive)
  have hid : c₀.clientID = c.clientID := congrArg Entry.id heq
  rw [← hid]
  exact hfresh htakes c₀ hc₀ hlive₀

/-- Two tables that hold the same registry under one configuration, with nobody waited
    for under the name of another. -/
def SameClients (config : Config) (b b' : Broker) : Prop :=
  ∃ R, Keeps b R ∧ Keeps b' R ∧ AwaitsDistinct R ∧ b.config = config ∧ b'.config = config

/-- **ONE COMMAND TO BOTH**. -/
theorem SameClients.command {b b' : Broker} {r : Request} (h : SameClients config b b')
    (hok : Fresh b r) :
    Alike config (handleCommand b r).replies (handleCommand b' r).replies ∧
      SameClients config (WdReach.command b r) (WdReach.command b' r) := by
  obtain ⟨R, hkeeps, hkeeps', hdist, hcfg, hcfg'⟩ := h
  obtain ⟨R₁, hspec, hend⟩ := spec_command hkeeps hok
  obtain ⟨R₂, hspec', hend'⟩ :=
    spec_command hkeeps' (fresh_of_keeps hkeeps hkeeps' (hcfg.trans hcfg'.symm) hok)
  rw [hcfg] at hspec
  rw [hcfg'] at hspec'
  obtain ⟨halike, rfl, hdist'⟩ := spec_alike hdist hspec hspec'
  exact ⟨halike, R₁, hend, hend', hdist', (command_config b r).trans hcfg,
    (command_config b' r).trans hcfg'⟩

-- ── whole runs ────────────────────────────────────────────────────────────────

/-- After a REGISTER into the empty table, and after the same behind a client that
    has come and gone. -/
def alone : Broker :=
  commands ⟨Table.zero, Parse.init.config, true, false⟩ [userRequest 7 "REGISTER a 5000\n"]

end WdPlaces
