import WdBroker.RegisterProtocolProofs

/-! # What the client library writes and the broker reads

    `wd_client_register` puts `client->name` into its command as it is, so that a
    name with blanks in it moves the fields of the broker's `sscanf`: its second
    word stands where the timeout is expected, and may be a number, or a number and
    `ignorepid`.  `encoding_agrees` says that no such name gets through.  The timeout
    that the library appends always stands behind a blank, so it is a field of its
    own, and where it is not the second field there is one field too many or a third
    one that begins with a digit.

    The ID in the answer, and the commands that `wd_client_ping` and
    `wd_client_unregister` make of it, are read as they were written. -/

namespace WdEncoding

open CString Scanf WdClock WdTable WdClientID WdConfig WdCommand WdReach WdRegister

-- ── the packets of the client library ─────────────────────────────────────────

/-- What happens to the connection of a call. -/
inductive Connection where
  | connectFails (code : Int)
  | writeFails
  | reads (incoming : Incoming)

/-- `wd_client_ping` and `wd_client_unregister`: the packet that is sent and the code
    that is returned.  The command is built in `cmd[64]`, the answer is read into
    `response[64]`. -/
def sendID (keyword : List Byte) (clientID : CStr wdClientIDLen) (conn : Connection) :
    Option (List Byte) × Int :=
  if clientID.chars = [] then (none, wdClientEparam)
  else
    match conn with
    | .connectFails code => (none, code)
    | .writeFails => (none, wdClientErr)
    | .reads incoming =>
        let cmd := (keyword ++ (clientID.chars ++ bytes "\n")).take 63
        let (len, response) := readWithTimeout 64 incoming
        if len < 0 then (some cmd, wdClientErr)
        else if len = 0 then (some cmd, wdClientEtimeout)
        else if strncmpEq (cstr response) (bytes "OK") 2 then (some cmd, wdClientOk)
        else (some cmd, wdClientErr)

/-- `wd_client_ping`, `"PING %s\n"`. -/
def wdClientPing : CStr wdClientIDLen → Connection → Option (List Byte) × Int := sendID cmdPing

/-- `wd_client_unregister`, `"UNREGISTER %s\n"`. -/
def wdClientUnregister : CStr wdClientIDLen → Connection → Option (List Byte) × Int :=
  sendID cmdUnregister

/-- The packet makes the broker's `parse_clientID` return `id`. -/
def Carries (packet keyword : List Byte) (id : CStr wdClientIDLen) : Prop :=
  ∀ r : Request, r.incoming = .packet packet →
    ∃ buf, r.buf = some buf ∧ isCommand buf keyword = true ∧ parseClientID buf keyword = .ok id

/-- One run of printable characters that are not blanks. -/
def PlainWord (s : List Byte) : Prop := s ≠ [] ∧ ∀ b ∈ s, isprint b = true ∧ isspace b = false

-- ── the fields of a REGISTER command ──────────────────────────────────────────

/-- What follows the timeout. -/
def trailer (ignorePid : Bool) : List Byte :=
  (if ignorePid then bytes " ignorepid" else []) ++ bytes "\n"

/-- `"%s %u%s\n"`, what follows the keyword. -/
def registerText (name : List Byte) (timeout : Nat) (ignorePid : Bool) : List Byte :=
  name ++ 32 :: (decimal timeout ++ trailer ignorePid)

theorem decimal_not_isspace (n : Nat) : ∀ b ∈ decimal n, isspace b = false :=
  fun b hb => not_isspace_of_isdigit b (decimal_isdigit n b hb)

theorem trailer_head (ignorePid : Bool) :
    ∀ b ∈ (trailer ignorePid).head?, isspace b = true ∧ isdigit b = false := by
  have hall : (trailer ignorePid).head?.all (fun b => isspace b && !isdigit b) = true := by
    cases ignorePid <;> decide
  intro b hb
  have hboth := (Option.all_eq_true _ _).mp hall b hb
  simpa using hboth

/-- Behind the timeout stands the flag. -/
theorem scan_trailer (ignorePid : Bool) :
    sscanf [.space, .str 15, .space, .str 15] (trailer ignorePid) = optField (!ignorePid) := by
  cases ignorePid <;> decide

/-- A blank name: the timeout is read as the name, and no number follows. -/
theorem scan_blank {name : List Byte} (hname : ∀ b ∈ name, isspace b = true) {timeout : Nat}
    (hlen : (decimal timeout).length ≤ 63) (ignorePid : Bool) :
    sscanf wdRegisterScanfFormat (registerText name timeout ignorePid)
      = [.str (decimal timeout)] := by
  have hsp : ∀ b ∈ name ++ [32], isspace b = true := isspace_append_blank hname
  have hrest :
      sscanf [.space, .uint, .space, .str 15, .space, .str 15] (trailer ignorePid) = [] := by
    cases ignorePid <;> decide
  unfold wdRegisterScanfFormat registerText
  rw [List.append_cons, sscanf_str_word hsp (decimal_ne_nil timeout) (decimal_not_isspace timeout)
    hlen (Or.inr fun b hb => (trailer_head ignorePid b hb).1), hrest]

/-- One word: every field is where it belongs. -/
theorem scan_word {sp t sp' : List Byte} (hsp : ∀ b ∈ sp, isspace b = true) (hne : t ≠ [])
    (ht : ∀ b ∈ t, isspace b = false) (hsp' : ∀ b ∈ sp', isspace b = true)
    (hlen : t.length ≤ 63) {timeout : Nat} (htimeout : timeout < 2 ^ 32) (ignorePid : Bool) :
    sscanf wdRegisterScanfFormat (registerText (sp ++ (t ++ sp')) timeout ignorePid)
      = .str t :: .uint timeout :: optField (!ignorePid) := by
  have hblank : ∀ b ∈ sp' ++ [32], isspace b = true := isspace_append_blank hsp'
  have hhead : ∀ b ∈ (sp' ++ 32 :: (decimal timeout ++ trailer ignorePid)).head?,
      isspace b = true := by
    cases sp' with
    | nil => intro b hb; cases hb; decide
    | cons c sp' => intro b hb; cases hb; exact hsp' _ List.mem_cons_self
  unfold wdRegisterScanfFormat registerText
  rw [List.append_assoc, List.append_assoc, sscanf_str_word hsp hne ht hlen (Or.inr hhead),
    sscanf_space_uint, List.append_cons,
    sscanf_uint_decimal hblank htimeout (fun b hb => (trailer_head ignorePid b hb).2), scan_trailer]

/-- A text that ends in a timeout of its own is not read as the flag: if the flag
    stands before the timeout there is one field too many, and else the third field
    begins with a digit. -/
theorem scan_flag_ne (r : List Byte) (timeout : Nat) (ignorePid checkPID : Bool) :
    sscanf [.space, .str 15, .space, .str 15] (registerText r timeout ignorePid)
      ≠ optField checkPID := by
  obtain ⟨d, ds, hd⟩ := List.exists_cons_of_ne_nil (decimal_ne_nil timeout)
  have hdigit : isdigit d = true := decimal_isdigit timeout d (hd ▸ List.mem_cons_self)
  have hword : isspace d = false := not_isspace_of_isdigit d hdigit
  have hmem : ∀ r, d ∈ r ++ 32 :: (decimal timeout ++ trailer ignorePid) := by
    intro r
    rw [hd]
    simp
  have hnot : ∀ {s : List Byte}, d ∈ s → ¬ ∀ b ∈ s, isspace b = true := by
    intro s hs hall
    have hblank := hall d hs
    rw [hword] at hblank
    exact Bool.noConfusion hblank
  intro h
  cases checkPID with
  | true => exact hnot (hmem r) ((sscanf_space_str_eq_nil (by decide)).mp h)
  | false =>
      rw [sscanf_space_str] at h
      obtain ⟨sp, t, rest, hs, hv, hvs, hne, -, -, hsp, ht⟩ := sscanf_str h
      have hrest : ∀ b ∈ rest, isspace b = true := (sscanf_space_str_eq_nil (by decide)).mp hvs.symm
      rw [registerText, List.append_assoc] at hs
      by_cases hr : ∀ b ∈ r, isspace b = true
      · have hlead : ∀ b ∈ r ++ [32], isspace b = true := isspace_append_blank hr
        have hfirst := congrArg (List.dropWhile isspace) hs
        rw [List.append_cons, dropWhile_isspace_append hlead (decimal_ne_nil timeout)
            (decimal_not_isspace timeout), dropWhile_isspace_append hsp hne ht, hd,
          ← Value.str.inj hv] at hfirst
        obtain ⟨rfl, -⟩ := List.cons.inj hfirst
        exact absurd hdigit (by decide)
      · push Not at hr
        obtain ⟨x, hx, hxword⟩ := hr
        obtain ⟨r', -, hrest'⟩ :=
          first_word_before hsp ht hx (Bool.eq_false_iff.mpr hxword) (by decide) hs.symm
        exact hnot (hrest' ▸ hmem r') hrest

/-- A second word in the name: whatever stands where the timeout is expected, the
    fields are none that the broker accepts. -/
theorem scan_words {sp t rest : List Byte} {x : Byte} (hsp : ∀ b ∈ sp, isspace b = true)
    (hne : t ≠ []) (ht : ∀ b ∈ t, isspace b = false) (hhead : ∀ b ∈ rest.head?, isspace b = true)
    (hx : x ∈ rest) (hword : isspace x = false) (hlen : t.length ≤ 63) (timeout : Nat)
    (ignorePid : Bool) (name : List Byte) (n : Nat) (checkPID : Bool) :
    sscanf wdRegisterScanfFormat (registerText (sp ++ (t ++ rest)) timeout ignorePid)
      ≠ .str name :: .uint n :: optField checkPID := by
  have hhead' : ∀ b ∈ (rest ++ 32 :: (decimal timeout ++ trailer ignorePid)).head?,
      isspace b = true := by
    cases rest with
    | nil => exact absurd hx List.not_mem_nil
    | cons c rest => exact hhead
  unfold wdRegisterScanfFormat registerText
  rw [List.append_assoc, List.append_assoc, sscanf_str_word hsp hne ht hlen (Or.inr hhead'),
    sscanf_space_uint]
  intro h
  obtain ⟨sp', neg, sign, digits, rest', hs, -, hvs, hsp', hsign, -, hdigits, -⟩ :=
    sscanf_uint (List.cons.inj h).2
  have hnumeral := numeral_not_isspace hsign hdigits
  obtain ⟨r, -, hrest⟩ := first_word_before hsp' hnumeral hx hword (by decide) hs.symm
  rw [hrest] at hvs
  exact scan_flag_ne r timeout ignorePid checkPID hvs.symm

theorem length_decimal_timeout {timeout : Nat} (h : TimeoutOk timeout) :
    (decimal timeout).length ≤ 6 := by
  rw [decimal, List.length_map, Nat.length_toDigits_le_iff (by decide) (by decide)]
  exact Nat.lt_of_le_of_lt h.2 (by decide)

theorem optField_inj {f g : Bool} (h : optField f = optField g) : f = g := by
  cases f <;> cases g <;> first | rfl | exact nomatch h

/-- **WHICH NAMES GET THROUGH**: those that are one plain word between blanks, and
    they arrive with their own timeout and flag. -/
theorem parse_text_iff {name : List Byte} {timeout : Nat} {ignorePid : Bool} {args : RegisterArgs}
    (hlen : name.length ≤ 63) (hnul : (0 : Byte) ∉ name) (htimeout : TimeoutOk timeout) :
    parseRegister (cmdRegister ++ registerText name timeout ignorePid) = .ok args ↔
      PlainWord (trim name) ∧ args.name.chars = trim name ∧ args.timeoutMs = timeout ∧
        args.checkPID = !ignorePid := by
  rw [parseRegister_ok_iff]
  rcases blank_or_word name with hblank | ⟨sp, t, rest, rfl, hsp, hne, ht, hhead⟩
  · have hdigits := Nat.le_trans (length_decimal_timeout htimeout) (by decide : 6 ≤ 63)
    rw [scan_blank hblank hdigits, trim_blank hblank]
    constructor
    · rintro ⟨n, k, f, hscan, -⟩
      exact nomatch (List.cons.inj hscan).2
    · rintro ⟨hplain, -⟩
      exact absurd rfl hplain.1
  · have htlen : t.length ≤ 63 := by
      simp only [List.length_append] at hlen
      omega
    by_cases hrest : ∀ b ∈ rest, isspace b = true
    · have hchars : (CStr.strncpy wdClientNameLen t).chars = t :=
        CStr.strncpy_chars (Nat.lt_succ_of_le htlen) fun h0 => hnul (by simp [h0])
      have hsmall : timeout < 2 ^ 32 := Nat.lt_of_le_of_lt htimeout.2 (by decide)
      rw [scan_word hsp hne ht hrest htlen hsmall, trim_word hsp hrest hne ht]
      constructor
      · rintro ⟨n, k, f, hscan, hval⟩
        obtain ⟨hname, hfields⟩ := List.cons.inj hscan
        obtain ⟨htime, hflag⟩ := List.cons.inj hfields
        obtain rfl := Value.str.inj hname
        obtain ⟨rfl, -, hplain⟩ := validateRegister_ok_iff.mp hval
        exact ⟨⟨hne, hplain⟩, hchars, (Value.uint.inj htime).symm, (optField_inj hflag).symm⟩
      · rintro ⟨hplain, hname, htime, hflag⟩
        refine ⟨t, timeout, !ignorePid, rfl, validateRegister_ok_iff.mpr ⟨?_, htimeout, hplain.2⟩⟩
        obtain ⟨argName, argTimeout, argCheck⟩ := args
        obtain rfl : argName = CStr.strncpy wdClientNameLen t := CStr.ext (hname.trans hchars.symm)
        obtain rfl : argTimeout = timeout := htime
        obtain rfl : argCheck = !ignorePid := hflag
        rfl
    · push Not at hrest
      obtain ⟨x, hx, hword⟩ := hrest
      have hxword := Bool.eq_false_iff.mpr hword
      constructor
      · rintro ⟨n, k, f, hscan, -⟩
        exact absurd hscan (scan_words hsp hne ht hhead hx hxword htlen timeout ignorePid n k f)
      · rintro ⟨hplain, -⟩
        obtain ⟨b, hb, hblank⟩ := trim_words hsp hne ht hhead hx hxword
        rw [(hplain.2 b hb).2] at hblank
        exact Bool.noConfusion hblank

-- ── the command that is sent ──────────────────────────────────────────────────

theorem timeoutOk_of_paramsOk {call : Call} (h : call.paramsOk = true) :
    TimeoutOk call.timeoutMs := by
  unfold Call.paramsOk at h
  simp only [Bool.and_eq_true, Bool.not_eq_true', Bool.or_eq_false_iff, decide_eq_false_iff_not,
    not_lt, gt_iff_lt] at h
  exact h.2

/-- The command is not cut, neither where it is built nor where it is read. -/
theorem cmd_eq {call : Call} (h : call.paramsOk = true) :
    call.cmd = cmdRegister ++ registerText call.name.chars call.timeoutMs call.ignorePid ∧
      call.cmd.length ≤ 127 := by
  have htext : call.name.chars ++ bytes " " ++ decimal call.timeoutMs ++
      (if call.ignorePid then bytes " ignorepid" else []) ++ bytes "\n"
      = registerText call.name.chars call.timeoutMs call.ignorePid := by
    simp only [registerText, trailer, List.append_assoc]
    rfl
  have hlen : (cmdRegister ++ registerText call.name.chars call.timeoutMs call.ignorePid).length
      ≤ 127 := by
    have hname : call.name.chars.length < 64 := call.name.fits
    have hdigits := length_decimal_timeout (timeoutOk_of_paramsOk h)
    have hkey : cmdRegister.length = 9 := rfl
    have htail : (trailer call.ignorePid).length ≤ 11 := by
      cases call.ignorePid <;> decide
    simp only [registerText, List.length_append, List.length_cons]
    omega
  have hcmd : call.cmd
      = cmdRegister ++ registerText call.name.chars call.timeoutMs call.ignorePid := by
    unfold Call.cmd
    rw [htext, List.take_of_length_le hlen]
  exact ⟨hcmd, hcmd ▸ hlen⟩

theorem registerText_no_nul {name : List Byte} (hname : (0 : Byte) ∉ name) (timeout : Nat)
    (ignorePid : Bool) : (0 : Byte) ∉ registerText name timeout ignorePid := by
  intro h0
  rcases List.mem_append.mp h0 with h | h
  · exact hname h
  rcases List.mem_cons.mp h with h | h
  · exact absurd h (by decide)
  rcases List.mem_append.mp h with h | h
  · exact absurd (decimal_isdigit timeout 0 h) (by decide)
  · revert h
    cases ignorePid <;> decide

/-- What the broker has in its buffer. -/
theorem buf_register {call : Call} (h : call.paramsOk = true) (now : Timespec) (raw : Raw) :
    (call.request true true now raw).buf
      = some (cmdRegister ++ registerText call.name.chars call.timeoutMs call.ignorePid) := by
  obtain ⟨hcmd, hlen⟩ := cmd_eq h
  have hnul : (0 : Byte) ∉ call.cmd := by
    rw [hcmd]
    intro h0
    rcases List.mem_append.mp h0 with h0 | h0
    · exact absurd h0 (by decide)
    · exact registerText_no_nul call.name.noNul call.timeoutMs call.ignorePid h0
  have hne : call.cmd ≠ [] := by
    rw [hcmd]
    simp [cmdRegister, bytes]
  rw [buf_of_packet rfl hne hlen hnul, hcmd]

/-- The broker reads the request as `args` exactly if the name is a plain word. -/
theorem registers_iff {call : Call} (h : call.paramsOk = true) (now : Timespec) (raw : Raw)
    (args : RegisterArgs) :
    Registers (call.request true true now raw) call.creds args ↔
      PlainWord (trim call.name.chars) ∧ args.name.chars = trim call.name.chars ∧
        args.timeoutMs = call.timeoutMs ∧ args.checkPID = !call.ignorePid := by
  have hbuf := buf_register h now raw
  rw [← parse_text_iff (Nat.le_of_lt_succ call.name.fits) call.name.noNul (timeoutOk_of_paramsOk h)]
  constructor
  · rintro ⟨s, -, hb, hparse⟩
    rw [hbuf] at hb
    rw [Option.some.inj hb]
    exact hparse
  · intro hparse
    exact ⟨_, rfl, hbuf, hparse⟩

-- ── the ID and back ───────────────────────────────────────────────────────────

/-- The packet of `wd_client_ping` or `wd_client_unregister`, whatever is answered. -/
theorem sendID_packet {keyword : List Byte} {id : CStr wdClientIDLen} (hid : IsClientID id)
    (hlen : keyword.length ≤ 46) (incoming : Incoming) :
    (sendID keyword id (.reads incoming)).1 = some (keyword ++ (id.chars ++ bytes "\n")) := by
  have hne : id.chars ≠ [] := by
    intro h0
    have hfmt := hid.1
    rw [h0] at hfmt
    exact absurd hfmt (by decide)
  have hcut : (keyword ++ (id.chars ++ bytes "\n")).length ≤ 63 := by
    have hfmt : id.chars.length = 16 := hid.1
    have hend : (bytes "\n").length = 1 := rfl
    simp only [List.length_append]
    omega
  unfold sendID
  rw [if_neg hne, List.take_of_length_le hcut]
  dsimp only
  split
  · rfl
  split
  · rfl
  split <;> rfl

/-- The command that carries an ID is read as that ID. -/
theorem carries_id {keyword : List Byte} {id : CStr wdClientIDLen} (hid : IsClientID id)
    (hlen : keyword.length ≤ 46) (hnul : (0 : Byte) ∉ keyword) :
    Carries (keyword ++ (id.chars ++ bytes "\n")) keyword id := by
  intro r hr
  have hfits : (keyword ++ (id.chars ++ bytes "\n")).length ≤ 127 := by
    have hfmt : id.chars.length = 16 := hid.1
    have hend : (bytes "\n").length = 1 := rfl
    simp only [List.length_append]
    omega
  have hzero : (0 : Byte) ∉ keyword ++ (id.chars ++ bytes "\n") := by
    intro h0
    rcases List.mem_append.mp h0 with h | h
    · exact hnul h
    rcases List.mem_append.mp h with h | h
    · exact id.noNul h
    · exact absurd h (by decide)
  exact ⟨_, buf_of_packet hr (by simp [bytes]) hfits hzero, isCommand_self _ _,
    parseClientID_ok_iff.mpr (@names_of_isClientID _ hid [] _ (List.forall_mem_nil _)
      (List.forall_mem_singleton.mpr rfl))⟩

/-- An answer that does not begin with `OK ` changes nothing, and neither does none. -/
theorem readResponse_keeps (old : CStr wdClientIDLen) {incoming : Incoming}
    (h : ∀ data, incoming = .packet data → ¬ bytes "OK " <+: data) :
    (readResponse old incoming).2 = old := by
  have hresponse : ¬ strncmpEq (cstr (readWithTimeout 128 incoming).2) (bytes "OK ") 3 = true := by
    intro hok
    obtain ⟨rest, hrest⟩ := (strncmpEq_length_iff _ (bytes "OK ")).mp hok
    have hbegins : bytes "OK " <+: (readWithTimeout 128 incoming).2 :=
      List.IsPrefix.trans ⟨rest, hrest.symm⟩ (List.takeWhile_prefix _)
    cases incoming with
    | selectFails => exact absurd hbegins (by decide)
    | silent => exact absurd hbegins (by decide)
    | readFails => exact absurd hbegins (by decide)
    | packet data => exact h data rfl (hbegins.trans (List.take_prefix _ data))
  unfold readResponse
  dsimp only
  rw [if_neg hresponse]
  split
  · rfl
  split <;> rfl

/-- **LIBRARY AND BROKER AGREE**: for every name, timeout and flag that
    `wd_client_register` lets through its own checks, the broker accepts the command
    exactly if the name, without blanks around it, is one run of printable characters
    that are not blanks, and then reads that name, that timeout and that flag.  The ID
    it answers with ends up in `client->clientID`, and the commands that carry it
    are read as that ID; an answer of another kind leaves `client->clientID` alone. -/
theorem encoding_agrees (call : Call) (hcall : call.paramsOk = true) (now : Timespec) (raw : Raw)
    (old : CStr wdClientIDLen) :
    (∀ args, Registers (call.request true true now raw) call.creds args ↔
      PlainWord (trim call.name.chars) ∧ args.name.chars = trim call.name.chars ∧
        args.timeoutMs = call.timeoutMs ∧ args.checkPID = !call.ignorePid) ∧
    (∀ b, Reachable b → ∀ i id,
      filled (handleCommand b (call.request true true now raw)) = some (i, id) →
      (handleCommand b (call.request true true now raw)).replies = [.text (okID id)] ∧
        IsClientID id) ∧
    (∀ id, IsClientID id →
      readResponse old (.packet (okID id)) = (wdClientOk, id) ∧
      ∀ incoming,
        (∃ packet, (wdClientPing id (.reads incoming)).1 = some packet ∧
          Carries packet cmdPing id) ∧
        ∃ packet, (wdClientUnregister id (.reads incoming)).1 = some packet ∧
          Carries packet cmdUnregister id) ∧
    ∀ incoming, (∀ data, incoming = .packet data → ¬ bytes "OK " <+: data) →
      (readResponse old incoming).2 = old := by
  refine ⟨registers_iff hcall now raw, ?_, ?_, fun incoming => readResponse_keeps old⟩
  · intro b hb i id hfill
    exact (filled_some (wellFormed_of_reachable hb) hfill).2
  · intro id hid
    refine ⟨readResponse_okID old hid, fun incoming => ⟨⟨_, sendID_packet hid (by decide) incoming,
      carries_id hid (by decide) (by decide)⟩, ⟨_, sendID_packet hid (by decide) incoming,
      carries_id hid (by decide) (by decide)⟩⟩⟩

theorem encoding_agrees_example :
    exampleCall.paramsOk = true ∧
      (∀ args, Registers (exampleCall.request true true Timespec.zero (Vector.replicate 8 0))
          exampleCall.creds args ↔
        PlainWord (trim exampleCall.name.chars) ∧ args.name.chars = trim exampleCall.name.chars ∧
          args.timeoutMs = exampleCall.timeoutMs ∧ args.checkPID = !exampleCall.ignorePid) :=
  ⟨by decide, (encoding_agrees exampleCall (by decide) Timespec.zero (Vector.replicate 8 0)
    (CStr.empty wdClientIDLen)).1⟩

end WdEncoding
