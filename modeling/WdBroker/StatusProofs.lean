import WdBroker.ScanfProofs
import WdBroker.SnprintfProofs
import WdBroker.TableProofs

/-! # The STATUS and VERSION messages

    STATUS prints seven header lines and one line per live slot into a buffer of
    4096 bytes, VERSION prints two lines into 128 bytes, both with the
    `snprintf` idiom.  `statusMsg_within_iff` reduces the safety of the STATUS
    buffer to the lengths of the names and numerals in the table. -/

namespace WdStatus

open CString Scanf Snprintf WdTable

def packageVersion : List Byte := bytes "2.1.0"
def socketProtVersion : List Byte := bytes "1.0"

/-- C's `cond ? "true" : "false"`. -/
def boolText (b : Bool) : List Byte := if b then bytes "true" else bytes "false"

/-- The header lines of a STATUS reply. -/
def statusHeader (config : Config) (activeClients : Nat) : List (List Byte) :=
  [bytes "daemon_version=" ++ packageVersion ++ bytes "\n",
   bytes "protocol_version=" ++ socketProtVersion ++ bytes "\n",
   bytes "wd_timeout_s=" ++ decimalInt config.wdTimeoutS ++ bytes "\n",
   bytes "reboot_timeout_s=" ++ decimalInt config.rebootTimeoutS ++ bytes "\n",
   bytes "strict_clients=" ++ boolText config.strictClients ++ bytes "\n",
   bytes "unique_clients=" ++ boolText config.uniqueClients ++ bytes "\n",
   bytes "active_clients=" ++ decimal activeClients ++ bytes "\n"]

/-- The line of one client: `"%s %d %s %u %d\n"`. -/
def statusRow (c : Client) : List Byte :=
  c.clientID.chars ++ bytes " " ++ decimalInt c.pid ++ bytes " " ++ c.name.chars ++
    bytes " " ++ decimal c.timeoutMs ++ bytes " " ++
    (if c.checkPID then bytes "1" else bytes "0") ++ bytes "\n"

/-- The texts of a STATUS reply, one per `snprintf` call. -/
def statusTexts (config : Config) (clients : List Client) : List (List Byte) :=
  statusHeader config (clients.countP Client.active) ++
    (clients.filter Client.live).map statusRow

/-- The STATUS branch: `msg` and `offset` as they are passed to `write`. -/
def statusMsg (config : Config) (clients : List Client) : Buf :=
  (Buf.empty 4096).appendAll (statusTexts config clients)

/-- The VERSION branch. -/
def versionMsg : Buf :=
  (Buf.empty 128).appendAll
    [bytes "wd-broker_version=" ++ packageVersion ++ bytes "\n",
     bytes "protocol_version=" ++ socketProtVersion ++ bytes "\n"]

-- ── how long the texts are ────────────────────────────────────────────────────

/-- Printed width of an unsigned and of a signed number. -/
def width (n : Nat) : Nat := (Nat.toDigits 10 n).length

def widthInt (z : Int) : Nat := if z < 0 then width z.natAbs + 1 else width z.natAbs

/-- Width of `true` or `false`. -/
def widthBool (b : Bool) : Nat := if b then 4 else 5

/-- Length of the header: 122 characters of fixed text and the values. -/
def headerWidth (config : Config) (activeClients : Nat) : Nat :=
  122 + widthInt config.wdTimeoutS + widthInt config.rebootTimeoutS +
    widthBool config.strictClients + widthBool config.uniqueClients + width activeClients

/-- Length of a client line: the ID's sixteen digits, four blanks, the PID-check
    digit, the newline, and the values. -/
def rowWidth (c : Client) : Nat :=
  22 + widthInt c.pid + c.name.chars.length + width c.timeoutMs

/-- Length of a whole STATUS reply. -/
def statusWidth (config : Config) (clients : List Client) : Nat :=
  headerWidth config (clients.countP Client.active) +
    ((clients.filter Client.live).map rowWidth).sum

theorem length_decimal (n : Nat) : (decimal n).length = width n :=
  List.length_map _

theorem length_decimalInt (z : Int) : (decimalInt z).length = widthInt z := by
  unfold decimalInt widthInt
  split
  · rw [List.length_cons, length_decimal]
  · rw [length_decimal]

theorem length_boolText (b : Bool) : (boolText b).length = widthBool b := by
  cases b <;> rfl

theorem length_statusHeader (config : Config) (n : Nat) :
    (statusHeader config n).flatten.length = headerWidth config n := by
  simp only [statusHeader, packageVersion, socketProtVersion, List.flatten_cons,
    List.flatten_nil, List.length_append, List.length_nil, length_decimalInt, length_decimal,
    length_boolText]
  rw [show (bytes "daemon_version=").length = 15 from rfl, show (bytes "2.1.0").length = 5 from rfl,
    show (bytes "protocol_version=").length = 17 from rfl, show (bytes "1.0").length = 3 from rfl,
    show (bytes "wd_timeout_s=").length = 13 from rfl,
    show (bytes "reboot_timeout_s=").length = 17 from rfl,
    show (bytes "strict_clients=").length = 15 from rfl,
    show (bytes "unique_clients=").length = 15 from rfl,
    show (bytes "active_clients=").length = 15 from rfl, show (bytes "\n").length = 1 from rfl]
  unfold headerWidth
  omega

theorem length_statusRow {c : Client} (hid : c.clientID.chars.length = wdClientIDFmtLen) :
    (statusRow c).length = rowWidth c := by
  have hflag : (if c.checkPID then bytes "1" else bytes "0").length = 1 := by
    split <;> rfl
  simp only [statusRow, List.length_append, length_decimalInt, length_decimal, hid, hflag]
  rw [show (bytes " ").length = 1 from rfl, show (bytes "\n").length = 1 from rfl]
  unfold rowWidth wdClientIDFmtLen
  omega

theorem length_statusRows {cs : List Client}
    (hid : ∀ c ∈ cs, c.clientID.chars.length = wdClientIDFmtLen) :
    (cs.map statusRow).flatten.length = (cs.map rowWidth).sum := by
  induction cs with
  | nil => rfl
  | cons c cs ih =>
      rw [List.map_cons, List.flatten_cons, List.length_append, List.map_cons, List.sum_cons,
        length_statusRow (hid c List.mem_cons_self),
        ih fun c' hc' => hid c' (List.mem_cons_of_mem c hc')]

/-- **THE STATUS BUFFER IS SAFE** exactly when the reply fits it. -/
theorem statusMsg_within_iff (config : Config) {clients : List Client}
    (hid : ∀ c ∈ clients, c.live = true → c.clientID.chars.length = wdClientIDFmtLen) :
    (statusMsg config clients).Within ↔ statusWidth config clients ≤ 4096 := by
  have hlive : ∀ c ∈ clients.filter Client.live, c.clientID.chars.length = wdClientIDFmtLen := by
    intro c hc
    obtain ⟨hmem, hlive⟩ := List.mem_filter.mp hc
    exact hid c hmem hlive
  have hrows := length_statusRows hlive
  unfold statusMsg statusTexts statusWidth
  rw [within_iff, List.flatten_append, List.length_append, length_statusHeader, hrows]

end WdStatus
