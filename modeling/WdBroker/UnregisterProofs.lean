import WdBroker.CtrlProofs
import WdBroker.ConfigLineProofs

/-! # Whom wd-ctrl unregisters

    The tool finds a client by its row in the STATUS reply, and a name with blanks in it
    moves the fields of the row: only its first word is seen, and the row is seen at all
    only if what stands behind that word passes for a number (`lineKey_rowLine`).
    `addressed_of_id` and `addressed_of_no_id` close the loop; `addressed_iff` says for
    which tables and arguments the client is the one that was meant.

    Announced names begin with a non-blank and stay on their line (`namesOk_of_reachable`),
    which is all that the rows need. -/

namespace WdUnregister

open CString Scanf Tokens WdClock WdTable WdClientID WdStatus WdConfig WdConfigLine WdCommand
open WdReach WdCtrl

-- ── what is seen of a name ────────────────────────────────────────────────────

/-- The name that `%63s` reads. -/
def firstWord (name : List Byte) : List Byte := name.takeWhile fun b => !isspace b

/-- What stands behind the first word and the blanks after it. -/
def behind (name : List Byte) : List Byte :=
  (name.dropWhile fun b => !isspace b).dropWhile isspace

/-- Nothing stands there, or something that begins with a number. -/
def readable (name : List Byte) : Bool :=
  (behind name).isEmpty || (scanNumeral (behind name)).isSome

variable {name : List Byte} {c : Client} {clients : List Client}

theorem firstWord_no_blank : ∀ b ∈ firstWord name, isspace b = false := by
  intro b hb
  simpa using List.mem_takeWhile_imp hb

theorem firstWord_ne_nil (hne : name ≠ []) (hhead : ∀ b ∈ name.head?, isspace b = false) :
    firstWord name ≠ [] := by
  obtain ⟨b, bs, rfl⟩ := List.exists_cons_of_ne_nil hne
  unfold firstWord
  rw [List.takeWhile_cons_of_pos (by rw [hhead b rfl]; rfl)]
  exact nofun

/-- A word is its own first word. -/
theorem firstWord_word (h : ∀ b ∈ name, isspace b = false) :
    firstWord name = name ∧ readable name = true := by
  have hall : ∀ b ∈ name, (!isspace b) = true := fun b hb => by rw [h b hb]; rfl
  refine ⟨List.takeWhile_eq_self_iff.mpr hall, ?_⟩
  unfold readable behind
  rw [List.dropWhile_eq_nil_iff.mpr hall]
  rfl

/-- The first word, blanks, and the rest. -/
theorem name_split (name : List Byte) :
    ∃ sp, name = firstWord name ++ (sp ++ behind name) ∧ (∀ b ∈ sp, isspace b = true) ∧
      (∀ b ∈ (sp ++ behind name).head?, isspace b = true) ∧
      ∀ b ∈ (behind name).head?, isspace b = false := by
  have hsplit : (name.dropWhile fun b => !isspace b).takeWhile isspace ++ behind name
      = name.dropWhile fun b => !isspace b := List.takeWhile_append_dropWhile
  refine ⟨(name.dropWhile fun b => !isspace b).takeWhile isspace, ?_,
    fun b => List.mem_takeWhile_imp, ?_, head_dropWhile _⟩
  · rw [hsplit]
    exact List.takeWhile_append_dropWhile.symm
  · rw [hsplit]
    exact head_dropWhile_not name

/-- Text behind a non-digit does not make a number. -/
theorem scanNumeral_append_isSome {s rest : List Byte} (hne : s ≠ [])
    (hrest : ∀ b ∈ rest.head?, isdigit b = false) :
    (scanNumeral (s ++ rest)).isSome = (scanNumeral s).isSome := by
  obtain ⟨b, bs, rfl⟩ := List.exists_cons_of_ne_nil hne
  have hsign : scanSign ((b :: bs) ++ rest)
      = ((scanSign (b :: bs)).1, (scanSign (b :: bs)).2 ++ rest) := by
    simp only [List.cons_append, scanSign]
    split_ifs <;> rfl
  have htake : ∀ t : List Byte, (t ++ rest).takeWhile isdigit = [] ↔ t.takeWhile isdigit = [] := by
    intro t
    cases t with
    | nil =>
        cases rest with
        | nil => exact Iff.rfl
        | cons c rest => simp [hrest c rfl]
    | cons c t => cases hc : isdigit c <;> simp [hc]
  simp only [scanNumeral]
  rw [hsign]
  dsimp only
  simp only [htake]
  split_ifs <;> rfl

/-- Behind a name `%u` finds the timeout, or the number that stands in the name. -/
theorem scan_timeout {sp s : List Byte} (c : Client) (hsp : ∀ b ∈ sp, isspace b = true)
    (hs : ∀ b ∈ s.head?, isspace b = false) :
    ∃ v, sscanf [.uint] (sp ++ (s ++ rowBack c))
      = if s.isEmpty || (scanNumeral s).isSome then [.uint v] else [] := by
  cases s with
  | nil =>
      have hnum := @sscanf_uint_numeral [] (sp ++ [32]) [] (decimal c.timeoutMs)
        (32 :: if c.checkPID then bytes "1" else bytes "0") false
        (isspace_append_blank hsp) (Or.inr ⟨Or.inl rfl, rfl⟩) (decimal_ne_nil _)
        (decimal_isdigit _) (by rintro b ⟨⟩; rfl)
      rw [List.append_assoc] at hnum
      exact ⟨_, hnum⟩
  | cons b bs =>
      have hskip : (sp ++ ((b :: bs) ++ rowBack c)).dropWhile isspace = (b :: bs) ++ rowBack c := by
        rw [List.dropWhile_append_of_pos hsp, List.cons_append,
          List.dropWhile_cons_of_neg (by rw [hs b rfl]; exact Bool.false_ne_true)]
      have hsome := @scanNumeral_append_isSome (b :: bs) (rowBack c) nofun (by rintro b ⟨⟩; rfl)
      rw [sscanf, hskip, List.isEmpty_cons, Bool.false_or, ← hsome]
      cases scanNumeral ((b :: bs) ++ rowBack c) with
      | none => exact ⟨0, rfl⟩
      | some r => exact ⟨_, rfl⟩

/-- What the search looks at in a line: the ID and the name, if it is a row. -/
def lineKey (line : List Byte) : Option (List Byte × List Byte) :=
  (scanRow line).map fun row => (row.id, row.name)

/-- **WHAT IS SEEN OF A ROW**: the ID and the first word of the name, or nothing. -/
theorem lineKey_rowLine (hid : IsClientID c.clientID) (hne : c.name.chars ≠ [])
    (hhead : ∀ b ∈ c.name.chars.head?, isspace b = false) :
    lineKey (rowLine c) =
      if readable c.name.chars then some (c.clientID.chars, firstWord c.name.chars) else none := by
  obtain ⟨sp, hname, hsp, hsphead, hbehind⟩ := name_split c.name.chars
  obtain ⟨pid, hfront, -⟩ := scan_front hid [.space, .uint] (c.name.chars ++ rowBack c)
  have hlen : (firstWord c.name.chars).length ≤ 63 :=
    Nat.le_trans (List.takeWhile_prefix _).length_le (Nat.le_of_lt_succ c.name.fits)
  have hback : ∀ b ∈ ((sp ++ behind c.name.chars) ++ rowBack c).head?, isspace b = true := by
    cases hrest : sp ++ behind c.name.chars with
    | nil => rintro b ⟨⟩; rfl
    | cons d ds =>
        rw [hrest] at hsphead
        exact hsphead
  have hword := @sscanf_str_word 63 [.space, .uint] [32] (firstWord c.name.chars)
    ((sp ++ behind c.name.chars) ++ rowBack c) isspace_blank (firstWord_ne_nil hne hhead)
    firstWord_no_blank hlen (Or.inr hback)
  rw [← List.append_assoc (firstWord _), ← hname] at hword
  have hscan : sscanf rowFormat (rowLine c) = .str c.clientID.chars :: .int pid ::
      .str (firstWord c.name.chars) ::
        sscanf [.uint] (sp ++ (behind c.name.chars ++ rowBack c)) := by
    unfold rowFormat rowLine
    rw [hfront, ← sscanf_space_uint, ← List.append_assoc sp]
    exact congrArg _ (congrArg _ hword)
  obtain ⟨v, hv⟩ := scan_timeout c hsp hbehind
  unfold lineKey scanRow
  rw [hscan, hv]
  unfold readable
  split_ifs <;> rfl

-- ── the loop ──────────────────────────────────────────────────────────────────

/-- What is seen of the lines. -/
def keys (lines : List (List Byte)) : List (List Byte × List Byte) :=
  lines.filterMap lineKey

/-- A row under the name that was asked for. -/
def note (s : Search) (k : List Byte × List Byte) : Search :=
  ⟨CStr.strncpy wdClientIDLen k.1, true, s.matchCount + 1⟩

/-- The loop, over what is seen. -/
def searchKeys (client : List Byte) : List (List Byte × List Byte) → Search → Search
  | [], s => s
  | k :: ks, s =>
      if client = k.1 then { s with idCandidate := CStr.strncpy wdClientIDLen k.1, found := true }
      else if client = k.2 then searchKeys client ks (note s k)
      else searchKeys client ks s

variable {client : List Byte} {ks : List (List Byte × List Byte)}

theorem search_eq (client : List Byte) (lines : List (List Byte)) :
    ∀ s, search client lines s = searchKeys client (keys lines) s := by
  induction lines with
  | nil => intro s; rfl
  | cons line lines ih =>
      intro s
      cases hrow : scanRow line with
      | none =>
          have hkeys : keys (line :: lines) = keys lines :=
            List.filterMap_cons_none (by rw [lineKey, hrow]; rfl)
          rw [search, hrow, hkeys]
          exact ih s
      | some row =>
          have hkeys : keys (line :: lines) = (row.id, row.name) :: keys lines :=
            List.filterMap_cons_some (by rw [lineKey, hrow]; rfl)
          rw [search, hrow, hkeys, searchKeys]
          by_cases hid : client = row.id
          · rw [if_pos hid]
            exact if_pos hid
          rw [if_neg hid]
          refine (if_neg hid).trans ?_
          by_cases hname : client = row.name
          · rw [if_pos hname, if_pos hname]
            exact ih _
          · rw [if_neg hname, if_neg hname]
            exact ih s

/-- As long as no row has the argument as its ID, the rows under that name are noted. -/
theorem searchKeys_append (h : ∀ k ∈ ks, k.1 ≠ client) (rest : List (List Byte × List Byte)) :
    ∀ s, searchKeys client (ks ++ rest) s
      = searchKeys client rest ((ks.filter fun k => client = k.2).foldl note s) := by
  induction ks with
  | nil => intro s; rfl
  | cons k ks ih =>
      intro s
      have ih := ih fun k hk => h k (List.mem_cons_of_mem _ hk)
      rw [List.cons_append, searchKeys, if_neg fun heq => h k List.mem_cons_self heq.symm]
      by_cases hname : client = k.2
      · rw [if_pos hname, List.filter_cons_of_pos (by simpa using hname), List.foldl_cons]
        exact ih _
      · rw [if_neg hname, List.filter_cons_of_neg (by simpa using hname)]
        exact ih s

theorem foldl_note_matchCount (s : Search) :
    (ks.foldl note s).matchCount = s.matchCount + ks.length := by
  induction ks generalizing s with
  | nil => rfl
  | cons k ks ih =>
      rw [List.foldl_cons, ih, List.length_cons]
      show s.matchCount + 1 + ks.length = s.matchCount + (ks.length + 1)
      omega

/-- The ID in the command, if a command is sent. -/
def addressed (client : List Byte) (ks : List (List Byte × List Byte)) : Option (List Byte) :=
  let s := searchKeys client ks Search.init
  if s.matchCount ≤ 1 ∧ s.found = true then some s.idCandidate.chars else none

/-- The command for an ID. -/
def unregisterCmd (id : List Byte) : List Byte := cmdUnregister ++ (id ++ bytes "\n")

theorem requests_unregister (client : List Byte) (lines : List (List Byte)) (second : Exchange) :
    (unregister client lines second).requests
      = (addressed client (keys lines)).toList.map unregisterCmd := by
  unfold unregister addressed
  rw [search_eq]
  generalize searchKeys client (keys lines) Search.init = s
  dsimp only
  have hcmd : (cmdUnregister ++ (s.idCandidate.chars ++ bytes "\n")).take 127
      = unregisterCmd s.idCandidate.chars := by
    refine List.take_of_length_le ?_
    have hid := s.idCandidate.fits
    unfold wdClientIDLen at hid
    rw [List.length_append, List.length_append, show cmdUnregister.length = 11 from rfl,
      show (bytes "\n").length = 1 from rfl]
    omega
  rw [hcmd]
  by_cases hcount : s.matchCount > 1
  · rw [if_pos hcount, if_neg fun h => absurd h.1 (Nat.not_le_of_gt hcount)]
    rfl
  rw [if_neg hcount]
  cases hfound : s.found with
  | false =>
      rw [if_pos (show (!false) = true from rfl),
        if_neg (show ¬ (s.matchCount ≤ 1 ∧ false = true) from fun h => Bool.false_ne_true h.2)]
      rfl
  | true =>
      rw [if_neg (show ¬ (!true) = true from Bool.false_ne_true),
        if_pos (show s.matchCount ≤ 1 ∧ true = true from ⟨Nat.not_lt.mp hcount, rfl⟩)]
      -- whatever the answer, the command has been sent
      split_ifs <;> rfl

/-- With a row whose ID is the argument, the rows in front of it decide. -/
theorem addressed_of_id {pre post : List (List Byte × List Byte)} {k : List Byte × List Byte}
    (hpre : ∀ k ∈ pre, k.1 ≠ client) (hk : k.1 = client) (hlen : client.length ≤ 16)
    (hnul : (0 : Byte) ∉ client) :
    addressed client (pre ++ k :: post)
      = if (pre.filter fun k => client = k.2).length ≤ 1 then some client else none := by
  have hchars : (CStr.strncpy wdClientIDLen client).chars = client :=
    CStr.strncpy_chars (Nat.lt_succ_of_le hlen) hnul
  unfold addressed
  rw [searchKeys_append hpre, searchKeys, if_pos hk.symm, hk]
  dsimp only
  rw [foldl_note_matchCount, show Search.init.matchCount = 0 from rfl, Nat.zero_add, hchars]
  simp only [and_true]

/-- The only element of a list. -/
def only {α : Type} : List α → Option α
  | [x] => some x
  | _ => none

theorem only_eq_some_iff {α : Type} {l : List α} {x : α} : only l = some x ↔ l = [x] := by
  cases l with
  | nil => exact ⟨nofun, nofun⟩
  | cons y l =>
      cases l with
      | nil =>
          exact ⟨fun h => by rw [Option.some.inj h], fun h => congrArg some (List.cons.inj h).1⟩
      | cons z l => exact ⟨nofun, nofun⟩

theorem only_isSome {α : Type} {l : List α} : (only l).isSome = true ↔ l.length = 1 := by
  rw [Option.isSome_iff_exists, List.length_eq_one_iff]
  exact exists_congr fun x => only_eq_some_iff

theorem only_map {α β : Type} (f : α → β) (l : List α) : only (l.map f) = (only l).map f := by
  cases l with
  | nil => rfl
  | cons y l => cases l <;> rfl

/-- Without one, it is the only row under that name. -/
theorem addressed_of_no_id (h : ∀ k ∈ ks, k.1 ≠ client)
    (hid : ∀ k ∈ ks, k.1.length ≤ 16 ∧ (0 : Byte) ∉ k.1) :
    addressed client ks = (only (ks.filter fun k => client = k.2)).map Prod.fst := by
  have hrun := searchKeys_append h [] Search.init
  rw [List.append_nil] at hrun
  unfold addressed
  rw [hrun]
  dsimp only [searchKeys]
  cases hmatch : ks.filter fun k => client = k.2 with
  | nil => rfl
  | cons k ms =>
      cases ms with
      | nil =>
          have hk := hid k (List.mem_of_mem_filter (hmatch ▸ List.mem_cons_self))
          rw [if_pos ⟨Nat.le_refl 1, rfl⟩]
          exact congrArg some (CStr.strncpy_chars (Nat.lt_succ_of_le hk.1) hk.2)
      | cons k' ms =>
          have hcount : ¬ ((k :: k' :: ms).foldl note Search.init).matchCount ≤ 1 := by
            rw [foldl_note_matchCount, List.length_cons, List.length_cons]
            omega
          rw [if_neg fun hle => hcount hle.1]
          rfl

-- ── the names of a reachable table ────────────────────────────────────────────

/-- What the row of a live slot needs. -/
structure Named (c : Client) : Prop where
  clientID : IsClientID c.clientID
  nonempty : c.name.chars ≠ []
  head : ∀ b ∈ c.name.chars.head?, isspace b = false
  line : (10 : Byte) ∉ c.name.chars

/-- Live names begin with a non-blank and have no newline. -/
def NamesOk (b : Broker) : Prop :=
  ∀ c ∈ b.clients.slots, c.live = true →
    (∀ x ∈ c.name.chars.head?, isspace x = false) ∧ (10 : Byte) ∉ c.name.chars

/-- A name from the configuration file has its blanks stripped, and is from one line. -/
theorem sectionName_text {text line : List Byte} {nm : CStr wdClientNameLen}
    (hmem : line ∈ configLines text) (h : sectionName line = some nm) :
    (∀ x ∈ nm.chars.head?, isspace x = false) ∧ (10 : Byte) ∉ nm.chars := by
  unfold sectionName at h
  split at h
  · next t name hclass =>
      obtain ⟨-, hlen, hnul⟩ := classify_client hclass
      obtain ⟨rfl, -, sp, rest, htext, -, hhead, -⟩ := classify_client_iff.mp hclass
      have hlt : name.length < wdClientNameLen := Nat.lt_succ_of_le hlen
      rw [← Option.some.inj h, CStr.strncpy_chars hlt hnul]
      refine ⟨hhead, fun h10 => ?_⟩
      obtain ⟨body, eol, rfl, hbody, heol⟩ := fgetsLines_newline List.not_mem_nil hmem
      rw [trimmed_eol heol] at htext
      refine hbody ((List.takeWhile_prefix _).subset (trim_subset (cstr body) ?_))
      rw [show trim (cstr body) = trimmed body from rfl, htext]
      simp [h10]
  · exact nomatch h

theorem namesOk_boot {file : Option (List Byte)} {clock : Nat → Timespec} {raws : Nat → Raw}
    {b : Broker} (h : boot file clock raws = .ok b) : NamesOk b := by
  refine forall_slots_boot h (fun hlive => nomatch hlive) ?_
  rintro name i c ⟨text, line, hline, hsec⟩ hann -
  rw [hann.name_eq]
  exact sectionName_text hline hsec

theorem namesOk_command (b : Broker) (r : Request) (h : NamesOk b) : NamesOk (command b r) := by
  refine forall_slots_command h (fun _ hc => hc) (fun creds args c hreq _ _ => ?_)
    (fun _ hc => hc) fun _ _ hlive => nomatch hlive
  obtain ⟨-, -, hplain⟩ := registers_ok hreq
  rw [registerSlot_name]
  exact ⟨fun x hx => (hplain x (List.mem_of_mem_head? hx)).2,
    fun h10 => absurd (hplain 10 h10).2 (by decide)⟩

theorem named_of_reachable {b : Broker} (h : Reachable b) :
    ∀ c ∈ b.clients.slots, c.live = true → Named c := by
  have hwf := wellFormed_of_reachable h
  obtain ⟨file, clock, raws, b₀, rs, hboot, rfl⟩ := h
  have hnames := Machine.run_invariant command namesOk_command rs b₀ (namesOk_boot hboot)
  intro c hc hlive
  obtain ⟨hhead, hline⟩ := hnames c hc hlive
  exact ⟨(hwf.slots c hc).clientID hlive, ((hwf.slots c hc).name hlive).1, hhead, hline⟩

-- ── the intended client ───────────────────────────────────────────────────────

/-- The client that an argument means: the one with that ID, or else the only one of
    that name. -/
def intended (clients : List Client) (a : List Byte) : Option (List Byte) :=
  if (clients.filter Client.live).any fun c => c.clientID.chars = a then some a
  else
    (only ((clients.filter Client.live).filter fun c => c.name.chars = a)).map (·.clientID.chars)

/-- The clients whose rows can be read. -/
def seen (clients : List Client) : List Client :=
  (clients.filter Client.live).filter fun c => readable c.name.chars

/-- The argument can be told from the rows: with a client of that ID, such a client can
    be read and at most one row in front of it begins its name with the argument; without
    one, exactly one client has the name if and only if exactly one row begins its name
    with it. -/
structure Clear (clients : List Client) (a : List Byte) : Prop where
  byID : (∃ c ∈ clients, c.live = true ∧ c.clientID.chars = a) →
    ∃ pre c post, seen clients = pre ++ c :: post ∧ c.clientID.chars = a ∧
      (∀ d ∈ pre, d.clientID.chars ≠ a) ∧
      (pre.countP fun d => firstWord d.name.chars = a) ≤ 1
  byName : (¬ ∃ c ∈ clients, c.live = true ∧ c.clientID.chars = a) →
    ((((clients.filter Client.live).countP fun c => c.name.chars = a) = 1 ↔
      ((seen clients).countP fun c => firstWord c.name.chars = a) = 1))

variable {config : Config} {a : List Byte}

theorem mem_seen : c ∈ seen clients ↔
    c ∈ clients ∧ c.live = true ∧ readable c.name.chars = true := by
  unfold seen
  rw [List.mem_filter, List.mem_filter, and_assoc]

theorem keys_rows {cs : List Client} (h : ∀ c ∈ cs, Named c) :
    keys (cs.map rowLine) = (cs.filter fun c => readable c.name.chars).map
      fun c => (c.clientID.chars, firstWord c.name.chars) := by
  induction cs with
  | nil => rfl
  | cons c cs ih =>
      obtain ⟨hid, hne, hhead, -⟩ := h c List.mem_cons_self
      have hrow := lineKey_rowLine hid hne hhead
      have ih := ih fun d hd => h d (List.mem_cons_of_mem c hd)
      unfold keys at ih ⊢
      rw [List.map_cons]
      cases hread : readable c.name.chars with
      | true =>
          rw [hread, if_pos rfl] at hrow
          rw [List.filterMap_cons_some hrow, ih,
            @List.filter_cons_of_pos _ (fun c => readable c.name.chars) c cs hread, List.map_cons]
      | false =>
          rw [hread, if_neg Bool.false_ne_true] at hrow
          rw [List.filterMap_cons_none hrow, ih,
            List.filter_cons_of_neg (by rw [hread]; exact Bool.false_ne_true)]

/-- What is seen of a STATUS reply. -/
theorem keys_statusLines (h : ∀ c ∈ clients, c.live = true → Named c) :
    keys (statusLines config clients)
      = (seen clients).map fun c => (c.clientID.chars, firstWord c.name.chars) := by
  have hheader : keys (headerLines config (clients.countP Client.active)) = [] := by
    refine List.filterMap_eq_nil_iff.mpr fun line hline => ?_
    rw [lineKey, scanRow_header config _ line hline]
    rfl
  have hlive : ∀ c ∈ clients.filter Client.live, Named c := fun c hc =>
    h c (List.mem_filter.mp hc).1 (List.mem_filter.mp hc).2
  have hrows := keys_rows hlive
  unfold keys at hheader hrows ⊢
  rw [statusLines, List.filterMap_append, hheader, List.nil_append, hrows, seen]

/-- What is seen of a client. -/
def clientKey (c : Client) : List Byte × List Byte := (c.clientID.chars, firstWord c.name.chars)

theorem filter_map_clientKey (cs : List Client) (a : List Byte) :
    (cs.map clientKey).filter (fun k => a = k.2)
      = (cs.filter fun c => firstWord c.name.chars = a).map clientKey := by
  rw [List.filter_map]
  refine congrArg _ (List.filter_congr fun c _ => ?_)
  show decide (a = firstWord c.name.chars) = decide (firstWord c.name.chars = a)
  rw [decide_eq_decide]
  exact eq_comm

theorem clientKey_id (h : ∀ c ∈ clients, c.live = true → Named c) :
    ∀ k ∈ (seen clients).map clientKey, k.1.length ≤ 16 ∧ (0 : Byte) ∉ k.1 := by
  intro k hk
  obtain ⟨c, hc, rfl⟩ := List.mem_map.mp hk
  obtain ⟨hmem, hlive, -⟩ := mem_seen.mp hc
  exact ⟨Nat.le_of_eq (h c hmem hlive).clientID.1, c.clientID.noNul⟩

/-- A client of that ID can be told from the others. -/
theorem addressed_iff_byID (h : ∀ c ∈ clients, c.live = true → Named c)
    (hid : ∃ c ∈ clients, c.live = true ∧ c.clientID.chars = a) :
    addressed a ((seen clients).map clientKey) = some a ↔
      ∃ pre c post, seen clients = pre ++ c :: post ∧ c.clientID.chars = a ∧
        (∀ d ∈ pre, d.clientID.chars ≠ a) ∧
        (pre.countP fun d => firstWord d.name.chars = a) ≤ 1 := by
  obtain ⟨c₀, hmem₀, hlive₀, rfl⟩ := hid
  have hlen : c₀.clientID.chars.length ≤ 16 := Nat.le_of_eq (h c₀ hmem₀ hlive₀).clientID.1
  -- up to the first row of that ID
  have hsplit : ∀ {pre c post}, seen clients = pre ++ c :: post →
      c.clientID.chars = c₀.clientID.chars →
      (∀ d ∈ pre, d.clientID.chars ≠ c₀.clientID.chars) →
      addressed c₀.clientID.chars ((seen clients).map clientKey)
        = if (pre.countP fun d => firstWord d.name.chars = c₀.clientID.chars) ≤ 1
          then some c₀.clientID.chars else none := by
    intro pre c post hseen hc hpre
    have hkeys : ∀ k ∈ pre.map clientKey, k.1 ≠ c₀.clientID.chars := by
      intro k hk
      obtain ⟨d, hd, rfl⟩ := List.mem_map.mp hk
      exact hpre d hd
    rw [hseen, List.map_append, List.map_cons,
      addressed_of_id hkeys (show (clientKey c).1 = c₀.clientID.chars from hc) hlen
        c₀.clientID.noNul, filter_map_clientKey, List.length_map, ← List.countP_eq_length_filter]
  constructor
  · intro haddr
    cases hfind : (seen clients).find? fun c => c.clientID.chars = c₀.clientID.chars with
    | none =>
        have hno : ∀ k ∈ (seen clients).map clientKey, k.1 ≠ c₀.clientID.chars := by
          intro k hk
          obtain ⟨d, hd, rfl⟩ := List.mem_map.mp hk
          show d.clientID.chars ≠ c₀.clientID.chars
          simpa using List.find?_eq_none.mp hfind d hd
        rw [addressed_of_no_id hno (clientKey_id h)] at haddr
        obtain ⟨k, hk, hka⟩ := Option.map_eq_some_iff.mp haddr
        have hmem : k ∈ (seen clients).map clientKey :=
          List.mem_of_mem_filter (only_eq_some_iff.mp hk ▸ List.mem_singleton_self k)
        exact absurd hka (hno k hmem)
    | some c =>
        obtain ⟨hc, pre, post, hseen, hpre⟩ := List.find?_eq_some_iff_append.mp hfind
        have hc : c.clientID.chars = c₀.clientID.chars := of_decide_eq_true hc
        have hpre : ∀ d ∈ pre, d.clientID.chars ≠ c₀.clientID.chars := fun d hd => by
          simpa using hpre d hd
        refine ⟨pre, c, post, hseen, hc, hpre, ?_⟩
        by_contra hcount
        rw [hsplit hseen hc hpre, if_neg hcount] at haddr
        exact nomatch haddr
  · rintro ⟨pre, c, post, hseen, hc, hpre, hcount⟩
    rw [hsplit hseen hc hpre, if_pos hcount]

/-- Without a client of that ID, the only one of that name can. -/
theorem addressed_iff_byName (h : ∀ c ∈ clients, c.live = true → Named c)
    (hid : ¬ ∃ c ∈ clients, c.live = true ∧ c.clientID.chars = a) :
    addressed a ((seen clients).map clientKey)
        = (only ((clients.filter Client.live).filter fun c => c.name.chars = a)).map
            (·.clientID.chars) ↔
      (((clients.filter Client.live).countP fun c => c.name.chars = a) = 1 ↔
        ((seen clients).countP fun c => firstWord c.name.chars = a) = 1) := by
  have hno : ∀ k ∈ (seen clients).map clientKey, k.1 ≠ a := by
    intro k hk heq
    obtain ⟨c, hc, rfl⟩ := List.mem_map.mp hk
    obtain ⟨hmem, hlive, -⟩ := mem_seen.mp hc
    exact hid ⟨c, hmem, hlive, heq⟩
  rw [addressed_of_no_id hno (clientKey_id h), filter_map_clientKey, only_map, Option.map_map,
    List.countP_eq_length_filter, List.countP_eq_length_filter, ← only_isSome, ← only_isSome]
  constructor
  · intro heq
    have hsome := congrArg Option.isSome heq
    rw [Option.isSome_map, Option.isSome_map] at hsome
    rw [hsome]
  · intro hiff
    cases hseen : only ((seen clients).filter fun c => firstWord c.name.chars = a) with
    | none =>
        rw [hseen] at hiff
        have hnone := Option.not_isSome_iff_eq_none.mp fun hs => Bool.false_ne_true (hiff.mp hs)
        rw [hnone]
        rfl
    | some d =>
        rw [hseen] at hiff
        obtain ⟨c, hc⟩ := Option.isSome_iff_exists.mp (hiff.mpr rfl)
        rw [hc]
        -- the argument is a word, so the client of that name can be read under it
        have hd : d ∈ (seen clients).filter fun c => firstWord c.name.chars = a :=
          only_eq_some_iff.mp hseen ▸ List.mem_singleton_self d
        have hword : ∀ b ∈ a, isspace b = false := by
          rw [← of_decide_eq_true (List.mem_filter.mp hd).2]
          exact firstWord_no_blank
        have hc' : c ∈ (clients.filter Client.live).filter fun c => c.name.chars = a :=
          only_eq_some_iff.mp hc ▸ List.mem_singleton_self c
        obtain ⟨hlive, hname⟩ := List.mem_filter.mp hc'
        have hname : c.name.chars = a := of_decide_eq_true hname
        obtain ⟨hfirst, hread⟩ := @firstWord_word c.name.chars (hname.symm ▸ hword)
        have hmem : c ∈ (seen clients).filter fun c => firstWord c.name.chars = a := by
          refine List.mem_filter.mpr ⟨List.mem_filter.mpr ⟨hlive, hread⟩, ?_⟩
          rw [hfirst, hname]
          exact decide_eq_true rfl
        rw [only_eq_some_iff.mp hseen] at hmem
        obtain rfl := List.mem_singleton.mp hmem
        rfl

/-- **WHO IS ADDRESSED**: the intended client exactly if the argument is clear. -/
theorem addressed_eq_intended_iff (h : ∀ c ∈ clients, c.live = true → Named c) :
    addressed a ((seen clients).map clientKey) = intended clients a ↔ Clear clients a := by
  by_cases hid : ∃ c ∈ clients, c.live = true ∧ c.clientID.chars = a
  · have hany : ((clients.filter Client.live).any fun c => c.clientID.chars = a) = true := by
      obtain ⟨c, hmem, hlive, hc⟩ := hid
      exact List.any_eq_true.mpr ⟨c, List.mem_filter.mpr ⟨hmem, hlive⟩, decide_eq_true hc⟩
    unfold intended
    rw [if_pos hany, addressed_iff_byID h hid]
    exact ⟨fun hsplit => ⟨fun _ => hsplit, fun hno => absurd hid hno⟩,
      fun hclear => hclear.byID hid⟩
  · have hany : ¬ ((clients.filter Client.live).any fun c => c.clientID.chars = a) = true := by
      intro hany
      obtain ⟨c, hc, heq⟩ := List.any_eq_true.mp hany
      obtain ⟨hmem, hlive⟩ := List.mem_filter.mp hc
      exact hid ⟨c, hmem, hlive, of_decide_eq_true heq⟩
    unfold intended
    rw [if_neg hany, addressed_iff_byName h hid]
    exact ⟨fun hcount => ⟨fun hyes => absurd hyes hid, fun _ => hcount⟩,
      fun hclear => hclear.byName hid⟩

-- ── the tool and the broker ───────────────────────────────────────────────────

/-- The tool's STATUS request: it runs as root. -/
def FromCtrl (r : Request) : Prop :=
  ∃ creds, r.creds = some creds ∧ creds.uid = 0 ∧ r.incoming = .packet cmdStatus

theorem asksStatus_ctrl {r : Request} (h : FromCtrl r) : AsksStatus r := by
  obtain ⟨creds, hc, huid, hin⟩ := h
  refine ⟨creds, [], hc, huid, ?_, List.forall_mem_nil _⟩
  rw [buf_of_packet hin (by decide) (by decide) (by decide), List.append_nil]

theorem unregisterCmd_injective {id id' : List Byte} (h : unregisterCmd id = unregisterCmd id') :
    id = id' :=
  List.append_cancel_right (List.append_cancel_left h)

/-- **WHOM `wd-ctrl unregister` ADDRESSES**: in every reachable state whose STATUS reply
    fits the tool's buffer, it sends the command for the client that was meant, and none
    if there is no such client, exactly if the argument is clear. -/
theorem addresses_intended_iff {b : Broker} {r : Request} (hb : Reachable b) (hr : FromCtrl r)
    (hlen : (statusMsg b.config b.clients.slots).offset ≤ 4095) (a : List Byte)
    (second : Exchange) :
    ∃ reply, (handleCommand b r).replies = [reply] ∧
      ((ctrlUnregister a (.reads (.packet reply.bytes)) second).requests
          = cmdStatus :: (intended b.clients.slots a).toList.map unregisterCmd ↔
        Clear b.clients.slots a) := by
  have hnamed := named_of_reachable hb
  have hone : ∀ c ∈ b.clients.slots, c.live = true → OneLine c := fun c hc hlive =>
    ⟨(hnamed c hc hlive).clientID, (hnamed c hc hlive).line⟩
  obtain ⟨hpos, hlines⟩ := split_status (Nat.le_of_eq b.clients.size) hone hlen
  refine ⟨.buffer (statusMsg b.config b.clients.slots), ?_, ?_⟩
  · rw [handleCommand_asksStatus (asksStatus_ctrl hr)]
    rfl
  have hrequests : (ctrlUnregister a (.reads (.packet (statusReply b.config b.clients.slots)))
      second).requests = cmdStatus ::
        (addressed a ((seen b.clients.slots).map clientKey)).toList.map unregisterCmd := by
    unfold ctrlUnregister
    dsimp only
    rw [if_neg (Int.not_le.mpr hpos), hlines]
    dsimp only
    rw [requests_unregister, keys_statusLines hnamed]
    rfl
  rw [← addressed_eq_intended_iff hnamed]
  refine (Eq.congr_left hrequests).trans ?_
  rw [List.cons_inj_right, List.map_inj_right fun _ _ => unregisterCmd_injective]
  refine ⟨fun heq => ?_, fun heq => by rw [heq]⟩
  rw [← Option.head?_toList (o := addressed a _), heq, Option.head?_toList]

/-- The tool's STATUS request, at clock zero. -/
def ctrlStatus : Request := ⟨some ⟨1, 0⟩, .packet cmdStatus, Timespec.zero, Vector.replicate 8 0⟩

theorem addresses_intended_iff_one :
    ∃ b, boot (some (bytes "[client a]\n")) (fun _ => Timespec.zero) (fun _ => Vector.replicate 8 0)
        = .ok b ∧
      ∃ reply, (handleCommand b ctrlStatus).replies = [reply] ∧
        ((ctrlUnregister (bytes "a") (.reads (.packet reply.bytes)) .fails).requests
            = cmdStatus :: (intended b.clients.slots (bytes "a")).toList.map unregisterCmd ↔
          Clear b.clients.slots (bytes "a")) := by
  obtain ⟨b, hboot, hlen⟩ := @exists_of_accepts (bytes "[client a]\n")
    (fun b => decide ((statusMsg b.config b.clients.slots).offset ≤ 4095)) (by decide +kernel)
  have hreach : Reachable b := ⟨_, _, _, b, [], hboot, rfl⟩
  exact ⟨b, hboot, addresses_intended_iff hreach ⟨⟨1, 0⟩, rfl, rfl, rfl⟩ (of_decide_eq_true hlen)
    (bytes "a") .fails⟩

/-- The tool sends the command for the ID, if there is one, and no other. -/
def Sends (b : Broker) (a : List Byte) (id : Option (List Byte)) : Prop :=
  (statusMsg b.config b.clients.slots).offset ≤ 4095 ∧
    (ctrlUnregister a (.reads (.packet (statusReply b.config b.clients.slots))) .fails).requests
      = cmdStatus :: id.toList.map unregisterCmd

instance (b : Broker) (a : List Byte) (id : Option (List Byte)) : Decidable (Sends b a id) :=
  inferInstanceAs (Decidable (_ ∧ _))

/-- Three clients register; the first two take the ID of the third for their name. -/
def threeClients : Broker :=
  commands ⟨Table.zero, Parse.init.config, true, false⟩
    [⟨some ⟨1001, 1000⟩, .packet (bytes "REGISTER 0303030303030303 5000\n"), Timespec.zero,
        Vector.replicate 8 1⟩,
      ⟨some ⟨1002, 1000⟩, .packet (bytes "REGISTER 0303030303030303 5000\n"), Timespec.zero,
        Vector.replicate 8 2⟩,
      ⟨some ⟨1003, 1000⟩, .packet (bytes "REGISTER a 5000\n"), Timespec.zero,
        Vector.replicate 8 3⟩]

/-- **THE WRONG CLIENT IS ADDRESSED**: with the only client `web 2` announced, `web`
    unregisters it and `web 2` does not; and a client cannot be addressed by its ID once
    two others in front of it bear the ID as their name. -/
theorem wrong_client_addressed :
    (∃ b, boot (some (bytes "[client web 2]\n")) (fun _ => Timespec.zero)
        (fun _ => Vector.replicate 8 0) = .ok b ∧ Reachable b ∧
      Sends b (bytes "web") (some (bytes "0000000000000000")) ∧
      intended b.clients.slots (bytes "web") = none ∧
      Sends b (bytes "web 2") none ∧
      intended b.clients.slots (bytes "web 2") = some (bytes "0000000000000000")) ∧
    Reachable threeClients ∧ Sends threeClients (bytes "0303030303030303") none ∧
      intended threeClients.clients.slots (bytes "0303030303030303")
        = some (bytes "0303030303030303") := by
  constructor
  · obtain ⟨b, hboot, hsends⟩ := @exists_of_accepts (bytes "[client web 2]\n")
      (fun b => decide (Sends b (bytes "web") (some (bytes "0000000000000000")) ∧
        intended b.clients.slots (bytes "web") = none ∧ Sends b (bytes "web 2") none ∧
        intended b.clients.slots (bytes "web 2") = some (bytes "0000000000000000")))
      (by decide +kernel)
    exact ⟨b, hboot, ⟨_, _, _, b, [], hboot, rfl⟩, of_decide_eq_true hsends⟩
  · exact ⟨⟨_, _, _, _, _, boot_empty, rfl⟩, by decide +kernel, by decide +kernel⟩

end WdUnregister
