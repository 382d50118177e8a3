import WdBroker.ScanfProofs
import WdBroker.TableProofs

/-! # Making and parsing a clientID

    `make_clientID` prints eight raw bytes as sixteen lower-case hexadecimal
    digits.  The bytes come from `/dev/urandom`, or, when that cannot be read, from
    `random()` reseeded in the same call; most of the development takes them as an
    input.  `parse_clientID` reads the argument of
    `PING` and `UNREGISTER`.

    `parseClientID_ok_iff` is the grammar of that argument: blanks, sixteen
    hexadecimal digits, blanks, and nothing else; the result is the digits in
    lower case. -/

namespace WdClientID

open CString Scanf WdTable

/-- The array `raw` of `make_clientID`. -/
abbrev Raw := Vector Byte 8

/-- The table `hex` of `make_clientID`. -/
def hex : List Byte := bytes "0123456789abcdef"

/-- The two digits of one raw byte, high nibble first. -/
def hexByte (b : Byte) : List Byte :=
  [hex.getD ((b >>> 4) &&& 0x0F).toNat 0, hex.getD (b &&& 0x0F).toNat 0]

/-- `make_clientID`, from the raw bytes on. -/
def makeClientID (raw : Raw) : CStr wdClientIDLen :=
  CStr.strncpy wdClientIDLen (raw.toList.flatMap hexByte)

theorem hexByte_isLowerHex (b : Byte) : ∀ d ∈ hexByte b, isLowerHex d = true := by
  have hall : ∀ b, (hexByte b).all isLowerHex = true := byte_forall (by decide +kernel)
  exact List.all_eq_true.mp (hall b)

theorem length_flatMap_hexByte (l : List Byte) :
    (l.flatMap hexByte).length = 2 * l.length := by
  induction l with
  | nil => rfl
  | cons b l ih =>
      rw [List.flatMap_cons, List.length_append, ih, List.length_cons]
      show 2 + 2 * l.length = 2 * (l.length + 1)
      omega

/-- An ID as the broker issues it: sixteen lower-case hexadecimal digits. -/
def IsClientID (id : CStr wdClientIDLen) : Prop :=
  id.chars.length = wdClientIDFmtLen ∧ ∀ d ∈ id.chars, isLowerHex d = true

theorem makeClientID_chars (raw : Raw) :
    (makeClientID raw).chars = raw.toList.flatMap hexByte := by
  refine CStr.strncpy_chars ?_ ?_
  · rw [length_flatMap_hexByte, Vector.length_toList]
    decide
  · intro h0
    obtain ⟨b, -, hd⟩ := List.mem_flatMap.mp h0
    have := hexByte_isLowerHex b 0 hd
    exact absurd this (by decide)

/-- **ISSUED IDS ARE WELL FORMED**, whatever the raw bytes. -/
theorem makeClientID_isClientID (raw : Raw) : IsClientID (makeClientID raw) := by
  constructor
  · rw [makeClientID_chars, length_flatMap_hexByte, Vector.length_toList]
    rfl
  · intro d hd
    rw [makeClientID_chars] at hd
    obtain ⟨b, -, hb⟩ := List.mem_flatMap.mp hd
    exact hexByte_isLowerHex b d hb

-- ── where the raw bytes come from ─────────────────────────────────────────────

/-- `struct timeval`. -/
structure Timeval where
  tvSec : Int
  tvUsec : Int
deriving DecidableEq

/-- What one call of `make_clientID` finds: the eight bytes of `/dev/urandom`
    (`none` if it cannot be opened or does not deliver all of them), the time of
    day and the process numbers. -/
structure Source where
  urandom : Option Raw
  tv : Timeval
  pid : Int
  ppid : Int

/-- `(unsigned int)(tv.tv_sec ^ tv.tv_usec ^ getpid() ^ getppid())`, from `long`. -/
def Source.seed (src : Source) : BitVec 32 :=
  (BitVec.ofInt 64 src.tv.tvSec ^^^ BitVec.ofInt 64 src.tv.tvUsec ^^^ BitVec.ofInt 64 src.pid ^^^
    BitVec.ofInt 64 src.ppid).setWidth 32

/-- The array `raw`; `random seed i` is what the `i`-th call of `random()` returns
    after `srandom(seed)`. -/
def Source.raw (random : BitVec 32 → Nat → Nat) (src : Source) : Raw :=
  match src.urandom with
  | some raw => raw
  | none => Vector.ofFn fun i : Fin 8 => (random src.seed i &&& 0xFF).toUInt8

/-- The value of a lower-case hexadecimal digit. -/
def hexVal (d : Byte) : Byte := if d ≤ 57 then d - 48 else d - 87

theorem hexByte_val : ∀ b, (hexByte b).foldl (fun n d => 16 * n + hexVal d) 0 = b :=
  byte_forall (by decide +kernel)

theorem flatMap_hexByte_inj : ∀ {l l' : List Byte},
    l.flatMap hexByte = l'.flatMap hexByte → l = l' := by
  intro l
  induction l with
  | nil =>
      intro l' h
      cases l' with
      | nil => rfl
      | cons b l' => exact nomatch h
  | cons b l ih =>
      intro l' h
      cases l' with
      | nil => exact nomatch h
      | cons b' l' =>
          rw [List.flatMap_cons, List.flatMap_cons] at h
          obtain ⟨hhead, htail⟩ := List.append_inj h rfl
          have hb : b = b' := by rw [← hexByte_val b, hhead, hexByte_val]
          rw [hb, ih htail]

/-- **DIFFERENT BYTES, DIFFERENT IDS**. -/
theorem makeClientID_inj {raw raw' : Raw} (h : makeClientID raw = makeClientID raw') :
    raw = raw' := by
  have hchars := congrArg CStr.chars h
  rw [makeClientID_chars, makeClientID_chars] at hchars
  exact Vector.toList_inj.mp (flatMap_hexByte_inj hchars)

-- ── parsing ───────────────────────────────────────────────────────────────────

/-- `WD_CLIENTID_SCANF_FORMAT`, `"%16s %15s"`. -/
def wdClientIDScanfFormat : List Directive := [.str wdClientIDFmtLen, .space, .str 15]

/-- `parse_clientID`: the ID in lower case, or the reply that refuses it. -/
def parseClientID (buf cmdPrefix : List Byte) : Except (List Byte) (CStr wdClientIDLen) :=
  match sscanf wdClientIDScanfFormat (buf.drop cmdPrefix.length) with
  | [.str raw] =>
      if raw.length ≠ wdClientIDFmtLen then .error (bytes "ERROR invalid clientID length\n")
      else if raw.all isxdigit then .ok (CStr.strncpy wdClientIDLen (raw.map tolower))
      else .error (bytes "ERROR invalid clientID format\n")
  | _ => .error (bytes "ERROR invalid syntax\n")

/-- Text that names an ID: blanks, its sixteen digits in any case, blanks. -/
def Names (s : List Byte) (id : CStr wdClientIDLen) : Prop :=
  ∃ sp raw sp', s = sp ++ (raw ++ sp') ∧ (∀ b ∈ sp, isspace b = true) ∧
    (∀ b ∈ sp', isspace b = true) ∧ raw.length = wdClientIDFmtLen ∧
    (∀ b ∈ raw, isxdigit b = true) ∧ id.chars = raw.map tolower

/-- The format assigns exactly one field to one word of at most sixteen bytes. -/
theorem sscanf_clientID_iff {s raw : List Byte} :
    sscanf wdClientIDScanfFormat s = [.str raw] ∧ raw.length = wdClientIDFmtLen ↔
      ∃ sp sp', s = sp ++ (raw ++ sp') ∧ (∀ b ∈ sp, isspace b = true) ∧
        (∀ b ∈ sp', isspace b = true) ∧ raw.length = wdClientIDFmtLen ∧
        (∀ b ∈ raw, isspace b = false) := by
  constructor
  · rintro ⟨h, hlen⟩
    obtain ⟨sp, t, rest, hs, hv, hvs, -, -, -, hsp, ht⟩ := sscanf_str h
    obtain rfl := Value.str.inj hv
    refine ⟨sp, rest, by rw [hs, List.append_assoc], hsp, ?_, hlen, ht⟩
    exact (sscanf_space_str_eq_nil (by decide)).mp hvs.symm
  · rintro ⟨sp, sp', rfl, hsp, hsp', hlen, hraw⟩
    have hne : raw ≠ [] := by
      intro h0
      rw [h0] at hlen
      exact absurd hlen (by decide)
    refine ⟨?_, hlen⟩
    unfold wdClientIDScanfFormat
    rw [sscanf_str_word hsp hne hraw (Nat.le_of_eq hlen) (Or.inl hlen),
      (sscanf_space_str_eq_nil (by decide)).mpr hsp']

/-- Lower-case digits copied into an ID array arrive complete. -/
theorem strncpy_tolower_chars {raw : List Byte} (hlen : raw.length = wdClientIDFmtLen)
    (hx : ∀ b ∈ raw, isxdigit b = true) :
    (CStr.strncpy wdClientIDLen (raw.map tolower)).chars = raw.map tolower := by
  refine CStr.strncpy_chars ?_ ?_
  · rw [List.length_map, hlen]
    decide
  · intro h0
    obtain ⟨b, hb, hb0⟩ := List.mem_map.mp h0
    have hl := isxdigit_of_isLowerHex _ (tolower_isLowerHex b (hx b hb))
    exact not_nul_of_isxdigit _ hl hb0

/-- **THE GRAMMAR OF AN ID ARGUMENT**. -/
theorem parseClientID_ok_iff {cmdPrefix s : List Byte} {id : CStr wdClientIDLen} :
    parseClientID (cmdPrefix ++ s) cmdPrefix = .ok id ↔ Names s id := by
  unfold parseClientID
  rw [List.drop_left' rfl]
  constructor
  · intro h
    split at h
    · next raw hscan =>
        split at h
        · exact nomatch h
        · next hlen =>
            split at h
            · next hall =>
                rw [not_not] at hlen
                rw [List.all_eq_true] at hall
                obtain ⟨sp, sp', hs, hsp, hsp', -, -⟩ :=
                  sscanf_clientID_iff.mp ⟨hscan, hlen⟩
                refine ⟨sp, raw, sp', hs, hsp, hsp', hlen, hall, ?_⟩
                rw [← Except.ok.inj h]
                exact strncpy_tolower_chars hlen hall
            · exact nomatch h
    · exact nomatch h
  · rintro ⟨sp, raw, sp', rfl, hsp, hsp', hlen, hx, hid⟩
    have hscan : sscanf wdClientIDScanfFormat (sp ++ (raw ++ sp')) = [.str raw] :=
      (sscanf_clientID_iff.mpr ⟨sp, sp', rfl, hsp, hsp', hlen,
        fun b hb => not_isspace_of_isxdigit b (hx b hb)⟩).1
    rw [hscan]
    dsimp only
    rw [if_neg (not_not.mpr hlen), if_pos (List.all_eq_true.mpr hx)]
    exact congrArg _ (CStr.ext ((strncpy_tolower_chars hlen hx).trans hid.symm))

/-- A text names at most one ID. -/
theorem Names.unique {s : List Byte} {id id' : CStr wdClientIDLen} (h : Names s id)
    (h' : Names s id') : id = id' := by
  have h1 : parseClientID ([] ++ s) [] = .ok id := parseClientID_ok_iff.mpr h
  have h2 : parseClientID ([] ++ s) [] = .ok id' := parseClientID_ok_iff.mpr h'
  exact Except.ok.inj (h1.symm.trans h2)

theorem names_of_isClientID {id : CStr wdClientIDLen} (hid : IsClientID id) {sp sp' : List Byte}
    (hsp : ∀ b ∈ sp, isspace b = true) (hsp' : ∀ b ∈ sp', isspace b = true) :
    Names (sp ++ (id.chars ++ sp')) id := by
  refine ⟨sp, id.chars, sp', rfl, hsp, hsp', hid.1,
    fun b hb => isxdigit_of_isLowerHex b (hid.2 b hb), ?_⟩
  calc id.chars = id.chars.map fun b => b := (List.map_id' id.chars).symm
    _ = id.chars.map tolower :=
        List.map_congr_left fun b hb => (tolower_of_isLowerHex b (hid.2 b hb)).symm

/-- Sixteen hexadecimal digits in any case. -/
def IsIDText (raw : List Byte) : Prop :=
  raw.length = wdClientIDFmtLen ∧ ∀ b ∈ raw, isxdigit b = true

/-- The same text but for the case of its letters. -/
theorem IsIDText.of_tolower {raw raw' : List Byte} (h : IsIDText raw)
    (hcase : raw'.map tolower = raw.map tolower) : IsIDText raw' := by
  have hlen := congrArg List.length hcase
  rw [List.length_map, List.length_map] at hlen
  refine ⟨hlen.trans h.1, fun b hb => ?_⟩
  have hmem : tolower b ∈ raw.map tolower := hcase ▸ List.mem_map_of_mem hb
  obtain ⟨c, hc, hcb⟩ := List.mem_map.mp hmem
  rw [← isxdigit_tolower b, ← hcb, isxdigit_tolower c]
  exact h.2 c hc

/-- **THE ID ARGUMENT OF PING AND UNREGISTER**: accepted are sixteen hexadecimal digits
    between blanks and nothing else; the result is these digits in lower case, whatever
    the blanks and the case; and every issued ID is read back as it is. -/
theorem parse_clientID_grammar (cmdPrefix : List Byte) :
    (∀ s, (∃ id, parseClientID (cmdPrefix ++ s) cmdPrefix = .ok id) ↔
      ∃ sp raw sp', s = sp ++ (raw ++ sp') ∧ (∀ b ∈ sp, isspace b = true) ∧
        (∀ b ∈ sp', isspace b = true) ∧ IsIDText raw) ∧
    (∀ sp raw sp', (∀ b ∈ sp, isspace b = true) → (∀ b ∈ sp', isspace b = true) →
      IsIDText raw → ∃ id, parseClientID (cmdPrefix ++ (sp ++ (raw ++ sp'))) cmdPrefix = .ok id ∧
        id.chars = raw.map tolower ∧
        ∀ sq raw' sq', (∀ b ∈ sq, isspace b = true) → (∀ b ∈ sq', isspace b = true) →
          raw'.map tolower = raw.map tolower →
          parseClientID (cmdPrefix ++ (sq ++ (raw' ++ sq'))) cmdPrefix = .ok id) ∧
    ∀ (raw : Raw) (sp sp' : List Byte), (∀ b ∈ sp, isspace b = true) →
      (∀ b ∈ sp', isspace b = true) →
      parseClientID (cmdPrefix ++ (sp ++ ((makeClientID raw).chars ++ sp'))) cmdPrefix
        = .ok (makeClientID raw) := by
  have hok : ∀ {sp raw sp' : List Byte}, (∀ b ∈ sp, isspace b = true) →
      (∀ b ∈ sp', isspace b = true) → IsIDText raw →
      parseClientID (cmdPrefix ++ (sp ++ (raw ++ sp'))) cmdPrefix
        = .ok (CStr.strncpy wdClientIDLen (raw.map tolower)) :=
    fun hsp hsp' hraw => parseClientID_ok_iff.mpr
      ⟨_, _, _, rfl, hsp, hsp', hraw.1, hraw.2, strncpy_tolower_chars hraw.1 hraw.2⟩
  refine ⟨fun s => ⟨?_, ?_⟩, ?_, ?_⟩
  · rintro ⟨id, hid⟩
    obtain ⟨sp, raw, sp', hs, hsp, hsp', hlen, hx, -⟩ := parseClientID_ok_iff.mp hid
    exact ⟨sp, raw, sp', hs, hsp, hsp', hlen, hx⟩
  · rintro ⟨sp, raw, sp', rfl, hsp, hsp', hraw⟩
    exact ⟨_, hok hsp hsp' hraw⟩
  · intro sp raw sp' hsp hsp' hraw
    refine ⟨_, hok hsp hsp' hraw, strncpy_tolower_chars hraw.1 hraw.2, ?_⟩
    intro sq raw' sq' hsq hsq' hcase
    rw [hok hsq hsq' (hraw.of_tolower hcase), hcase]
  · intro raw sp sp' hsp hsp'
    exact parseClientID_ok_iff.mpr (names_of_isClientID (makeClientID_isClientID raw) hsp hsp')

end WdClientID
