import WdBroker.ProgramProofs
import WdBroker.MainLoopProofs

/-! # Start-up: `main` up to its loop

    `startUp` is `main` from its first line to the main loop, as a program over the calls
    that it makes; every failing call ends the process.  `getopt_long` has cut the command
    line into `Opt`s, and `parse_config` is one call that delivers the file with the clock
    readings and random bytes that were used for it.

    One lemma per part of `main` says which calls it makes (`exec_…`), and one under
    which circumstances (`safe_…`). -/

namespace WdStartUp

open CString Scanf WdClock WdTable WdClientID WdConfig WdCommand WdReach WdMain Program Prog

-- ── the command line ──────────────────────────────────────────────────────────

/-- `LOG_DAEMON`, `LOG_USER`, `LOG_LOCAL0` to `LOG_LOCAL7`. -/
inductive Facility where
  | logDaemon
  | logUser
  | logLocal (n : Fin 8)
deriving DecidableEq

/-- `parse_syslog_facility`; the process ends at any other text. -/
def parseSyslogFacility (str : List Byte) : Option Facility :=
  if str = bytes "LOG_USER" then some .logUser
  else if str = bytes "LOG_DAEMON" then some .logDaemon
  else if str = bytes "LOG_LOCAL0" then some (.logLocal 0)
  else if str = bytes "LOG_LOCAL1" then some (.logLocal 1)
  else if str = bytes "LOG_LOCAL2" then some (.logLocal 2)
  else if str = bytes "LOG_LOCAL3" then some (.logLocal 3)
  else if str = bytes "LOG_LOCAL4" then some (.logLocal 4)
  else if str = bytes "LOG_LOCAL5" then some (.logLocal 5)
  else if str = bytes "LOG_LOCAL6" then some (.logLocal 6)
  else if str = bytes "LOG_LOCAL7" then some (.logLocal 7)
  else none

/-- What `getopt_long` delivers. -/
inductive Opt where
  | configFile (arg : List Byte)
  | daemonize
  | help
  | noWatchdog
  | syslogFacility (arg : List Byte)
  | serviceUser (arg : List Byte)
  | version
  | unknown

/-- The variables that the options set. -/
structure Options where
  configFile : List Byte
  daemonize : Bool
  watchdogEnabled : Bool
  syslogFacility : Facility
  serviceUser : List Byte

/-- The reasons for which `main` ends the process before its loop. -/
inductive Fatal where
  | usage
  | syslogFacility
  | invalidUser (user : List Byte)
  | noSuchUser (user : List Byte)
  | userIsRoot
  | cannotStat (path : List Byte)
  | notRegular (path : List Byte)
  | symlink (path : List Byte)
  | wrongOwner (path user : List Byte) (uid : Nat)
  | writable (path : List Byte)
  | config (path : List Byte) (e : ConfigError)
  | timer
  | notASocket (path : List Byte)
  | probeSocket
  | activeInstance (path : List Byte)
  | probeError
  | staleSocket
  | bindDenied (path : List Byte)
  | bindFailed (path : List Byte)
  | listen
  | chmod
  | chown
  | notRoot
  | openWatchdog
  | setTimeout
  | setgroups
  | setgid
  | setuid
  | fork
  | setsid
  | chdir
deriving DecidableEq

/-- How the process ends before the loop. -/
inductive Stop where
  | success
  | failure (why : Fatal)
deriving DecidableEq

/-- `SYSCONFDIR "/wd-broker.conf"` and `SERVICE_USER_DEFAULT`, as configured. -/
structure Defaults where
  configPath : List Byte
  serviceUser : List Byte

/-- The initial values. -/
def Options.init (d : Defaults) : Options where
  configFile := d.configPath
  daemonize := false
  watchdogEnabled := true
  syslogFacility := .logDaemon
  serviceUser := d.serviceUser

/-- The loop over the options. -/
def parseOptions : Options → List Opt → Except Stop Options
  | o, [] => .ok o
  | o, .configFile arg :: rest => parseOptions { o with configFile := arg } rest
  | o, .daemonize :: rest => parseOptions { o with daemonize := true } rest
  | _, .help :: _ => .error .success
  | o, .noWatchdog :: rest => parseOptions { o with watchdogEnabled := false } rest
  | o, .syslogFacility arg :: rest =>
      match parseSyslogFacility arg with
      | some f => parseOptions { o with syslogFacility := f } rest
      | none => .error (.failure .syslogFacility)
  | o, .serviceUser arg :: rest => parseOptions { o with serviceUser := arg } rest
  | _, .version :: _ => .error .success
  | _, .unknown :: _ => .error (.failure .usage)

-- ── the calls ─────────────────────────────────────────────────────────────────

/-- The type of a file, from `st_mode`. -/
inductive FileKind where
  | regular
  | symlink
  | socket
  | other
deriving DecidableEq

/-- What `main` reads of a `struct stat`; `mode` are the permission bits. -/
structure Stat where
  kind : FileKind
  uid : Nat
  mode : Nat

/-- What `main` reads of a `struct passwd`. -/
structure Passwd where
  uid : Nat
  gid : Nat

/-- The configuration file, and what the clock and the random source gave for its
    sections. -/
structure ConfigFile where
  text : Option (List Byte)
  clock : Nat → Timespec
  raws : Nat → Raw

inductive Connect where
  | accepted
  | refused
  | failed

inductive Bind where
  | ok
  | eacces
  | failed

inductive Fork where
  | failed
  | parent
  | child

/-- The priorities of `syslog`. -/
inductive Priority where
  | emerg
  | alert
  | crit
  | err
  | warning
  | notice
  | info
  | debug

inductive Op where
  | socket
  | timerfdCreate
  | geteuid
  | getpwnam (user : List Byte)
  | lstat (path : List Byte)
  | parseConfig (path : List Byte)
  | timerfdSettime (seconds : Int)
  | connect (path : List Byte)
  | close
  | unlink (path : List Byte)
  | bind (path : List Byte)
  | listen (backlog : Nat)
  | chmod (path : List Byte) (mode : Nat)
  | chown (path : List Byte) (uid gid : Nat)
  | openWatchdog
  | setTimeout (seconds : Int)
  | setgroups
  | setgid (gid : Nat)
  | setuid (uid : Nat)
  | fork
  | setsid
  | chdir
  | openlog (facility : Facility)
  | getBootStatus
  | log (priority : Priority) (text : List Byte)

/-- Where only success matters, the answer says whether the call succeeded; a boot status
    that cannot be read comes with the text of its error. -/
@[reducible] def Ans : Op → Type
  | .geteuid => Nat
  | .getpwnam _ => Option Passwd
  | .lstat _ => Option Stat
  | .parseConfig _ => ConfigFile
  | .connect _ => Connect
  | .bind _ => Bind
  | .fork => Fork
  | .getBootStatus => Except (List Byte) (BitVec 32)
  | .close | .openlog _ | .log _ _ => Unit
  | _ => Bool

abbrev StartUp (α : Type) := Prog Op Ans Stop α

abbrev call (op : Op) : StartUp (Ans op) := ask op

/-- A call whose failure is fatal. -/
def demand (op : Op) (h : Ans op = Bool) (why : Fatal) : StartUp Unit :=
  call op >>= fun r => guard (.failure why) (cast h r = true)

-- ── the parts of main ─────────────────────────────────────────────────────────

/-- `LOGIN_NAME_MAX`. -/
def loginNameMax : Nat := 256

/-- `getpwnam` and the checks on its answer. -/
def checkUser (user : List Byte) : StartUp Passwd := do
  let pw ← call (.getpwnam user)
  guard (.failure (.invalidUser user)) ¬ (user.length = 0 ∨ user.length > loginNameMax)
  match pw with
  | none => .exit (.failure (.noSuchUser user))
  | some pw => do
      guard (.failure .userIsRoot) (pw.uid ≠ 0)
      pure pw

/-- `lstat` of the configuration file and the checks on its answer; `022` is 18. -/
def checkConfigFile (path user : List Byte) (pw : Passwd) : StartUp Unit := do
  let st ← call (.lstat path)
  match st with
  | none => .exit (.failure (.cannotStat path))
  | some st => do
      guard (.failure (.notRegular path)) (st.kind = .regular)
      guard (.failure (.symlink path)) (st.kind ≠ .symlink)
      guard (.failure (.wrongOwner path user pw.uid)) (st.uid = pw.uid)
      guard (.failure (.writable path)) (st.mode &&& 18 = 0)

/-- `parse_config`. -/
def readConfig (path : List Byte) : StartUp Broker := do
  let file ← call (.parseConfig path)
  match boot file.text file.clock file.raws with
  | .error e => .exit (.failure (.config path e))
  | .ok b => pure b

/-- Is there a socket already, and does anybody listen on it? -/
def probeSocket (path : List Byte) : StartUp Unit := do
  let st ← call (.lstat path)
  match st with
  | none => pure ()
  | some st => do
      guard (.failure (.notASocket path)) (st.kind = .socket)
      demand .socket rfl .probeSocket
      let r ← call (.connect path)
      call .close
      match r with
      | .accepted => .exit (.failure (.activeInstance path))
      | .failed => .exit (.failure .probeError)
      | .refused => demand (.unlink path) rfl .staleSocket

/-- `bind`, `listen` with a backlog of 5, and the permissions of the socket; `0660` is
    432. -/
def openSocket (path : List Byte) (pw : Passwd) (startedAsRoot : Bool) : StartUp Unit := do
  let r ← call (.bind path)
  match r with
  | .eacces => .exit (.failure (.bindDenied path))
  | .failed => .exit (.failure (.bindFailed path))
  | .ok => do
      demand (.listen 5) rfl .listen
      demand (.chmod path 432) rfl .chmod
      if startedAsRoot then demand (.chown path pw.uid pw.gid) rfl .chown else pure ()

/-- Open and arm the device; the result says whether `watchdog_fd != -1`. -/
def openDevice (enabled startedAsRoot : Bool) (config : Config) : StartUp Bool :=
  if enabled then do
    guard (.failure .notRoot) (startedAsRoot = true)
    demand .openWatchdog rfl .openWatchdog
    call (.log .info (bytes "Opened hardware watchdog device /dev/watchdog"))
    demand (.setTimeout config.wdTimeoutS) rfl .setTimeout
    pure true
  else pure false

/-- Drop privileges to the service user. -/
def dropPrivileges (startedAsRoot : Bool) (pw : Passwd) : StartUp Unit :=
  if startedAsRoot then do
    demand .setgroups rfl .setgroups
    demand (.setgid pw.gid) rfl .setgid
    demand (.setuid pw.uid) rfl .setuid
  else pure ()

/-- `if (daemonize)`: the parent ends here. -/
def becomeDaemon (daemonize : Bool) (facility : Facility) : StartUp Unit :=
  if daemonize then do
    let pid ← call .fork
    match pid with
    | .failed => .exit (.failure .fork)
    | .parent => .exit .success
    | .child => do
        demand .setsid rfl .setsid
        demand .chdir rfl .chdir
        call (.openlog facility)
  else pure ()

/-- `strncat` onto an array of `cap` bytes. -/
def strncat (cap : Nat) (dst src : List Byte) : List Byte := dst ++ src.take (cap - dst.length - 1)

/-- `bootflags`. -/
def bootflags : List (BitVec 32 × List Byte) :=
  [(0x01#32, bytes " OVERHEAT"), (0x02#32, bytes " FANFAULT"), (0x04#32, bytes " EXTERN1"),
    (0x08#32, bytes " EXTERN2"), (0x10#32, bytes " POWERUNDER"), (0x20#32, bytes " CARDRESET"),
    (0x40#32, bytes " POWEROVER")]

/-- The loop over the flags, from `flags` on. -/
def collectFlags (status : BitVec 32) (flags : List Byte) :
    List (BitVec 32 × List Byte) → List Byte
  | [] => flags
  | f :: fs =>
      collectFlags status (if status &&& f.1 ≠ 0 then strncat 128 flags f.2 else flags) fs

/-- `0x%08x`. -/
def hexWord (w : BitVec 32) : List Byte :=
  let digits := (Nat.toDigits 16 w.toNat).map fun c => c.toNat.toUInt8
  bytes "0x" ++ List.replicate (8 - digits.length) 48 ++ digits

/-- The text of `log_bootstatus`. -/
def bootStatusText (status : BitVec 32) : List Byte :=
  let flags := collectFlags status [] bootflags
  bytes "Boot status " ++ hexWord status ++ bytes ":" ++
    if flags.length = 0 then strncat 128 flags (bytes " none") else flags

/-- The line about an announced client. -/
def announcedText (c : Client) : List Byte :=
  bytes "Client '" ++ c.name.chars ++ bytes "' announced, expected within " ++
    decimal c.timeoutMs ++ bytes " ms"

/-- The loop over the announced clients; it ends at the first slot that is not. -/
def logAnnounced : List Client → StartUp Unit
  | [] => pure ()
  | c :: cs =>
      if c.anounced then do
        call (.log .info (announcedText c))
        logAnnounced cs
      else pure ()

/-- What is logged about the device. -/
def logDevice (watchdog : Bool) (config : Config) : StartUp Unit :=
  if watchdog then do
    call (.log .info (bytes "Hardware watchdog timeout: " ++ decimalInt config.wdTimeoutS ++
      bytes " seconds"))
    let status ← call .getBootStatus
    match status with
    | .error text => call (.log .err (bytes "Failed to get boot status: " ++ text))
    | .ok status => call (.log .info (bootStatusText status))
  else call (.log .info (bytes "Running in test mode, no hardware watchdog used"))

/-- What is logged in front of the loop; `PACKAGE_VERSION` is `2.1.0`. -/
def report (watchdog : Bool) (b : Broker) : StartUp Unit := do
  call (.log .notice (bytes "wd-broker v2.1.0 started on socket " ++ b.config.socketPath.chars))
  logDevice watchdog b.config
  logAnnounced b.clients.slots

/-- From the options to the loop. -/
def prepare (o : Options) (startedAsRoot : Bool) : StartUp (Broker × Bool) := do
  let pw ← checkUser o.serviceUser
  checkConfigFile o.configFile o.serviceUser pw
  let b ← readConfig o.configFile
  demand (.timerfdSettime (b.config.wdTimeoutS.tdiv 2)) rfl .timer
  probeSocket b.config.socketPath.chars
  openSocket b.config.socketPath.chars pw startedAsRoot
  let watchdog ← openDevice o.watchdogEnabled startedAsRoot b.config
  dropPrivileges startedAsRoot pw
  becomeDaemon o.daemonize o.syslogFacility
  report watchdog b
  pure (b, watchdog)

/-- `main` up to the loop: the broker, and whether the device is open.  The results of
    `socket` and `timerfd_create` are not looked at. -/
def startUp (d : Defaults) (opts : List Opt) : StartUp (Broker × Bool) := do
  let _ ← call .socket
  let _ ← call .timerfdCreate
  let euid ← call .geteuid
  match parseOptions (Options.init d) opts with
  | .error stop => .exit stop
  | .ok o => prepare o (decide ((euid : Nat) = 0))

-- ── which calls are made ──────────────────────────────────────────────────────

/-- The calls of a run, in order. -/
abbrev Calls := List (Call Op Ans)

variable {calls : Calls} {path user : List Byte} {pw : Passwd} {b : Broker}

theorem exec_demand_bind {op : Op} {h : Ans op = Bool} {why : Fatal} {α : Type}
    {f : Unit → StartUp α} {a : α} :
    Exec (demand op h why >>= f) calls (.done a) ↔
      ∃ rest, calls = ⟨op, cast h.symm true⟩ :: rest ∧ Exec (f ()) rest (.done a) := by
  have hassoc : demand op h why >>= f
      = ask op >>= fun r => guard (.failure why) (cast h r = true) >>= f := rfl
  rw [hassoc, exec_ask_bind]
  constructor
  · rintro ⟨r, rest, rfl, hrest⟩
    obtain ⟨hr, hrest⟩ := exec_guard_bind.mp hrest
    refine ⟨rest, ?_, hrest⟩
    rw [← hr, cast_cast, cast_eq]
  · rintro ⟨rest, rfl, hrest⟩
    exact ⟨_, rest, rfl, exec_guard_bind.mpr ⟨by rw [cast_cast, cast_eq], hrest⟩⟩

theorem exec_demand_done {op : Op} {h : Ans op = Bool} {why : Fatal} :
    Exec (demand op h why) calls (.done ()) ↔ calls = [⟨op, cast h.symm true⟩] := by
  unfold demand
  rw [exec_ask_bind]
  constructor
  · rintro ⟨r, rest, rfl, hrest⟩
    obtain ⟨hr, rfl⟩ := exec_guard_done.mp hrest
    rw [← hr, cast_cast, cast_eq]
  · rintro rfl
    exact ⟨_, [], rfl, exec_guard_done.mpr ⟨by rw [cast_cast, cast_eq], rfl⟩⟩

/-- The name is one that a user can have, and the user is not root. -/
structure UserOk (user : List Byte) (pw : Passwd) : Prop where
  named : user ≠ []
  short : user.length ≤ loginNameMax
  notRoot : pw.uid ≠ 0

theorem exec_checkUser : Exec (checkUser user) calls (.done pw) ↔
    calls = [⟨.getpwnam user, some pw⟩] ∧ UserOk user pw := by
  unfold checkUser call
  simp only [exec_ask_bind, exec_guard_bind, not_or]
  constructor
  · rintro ⟨found, rest, rfl, ⟨hnamed, hshort⟩, hrest⟩
    cases found with
    | none => exact (exec_exit_done.mp hrest).elim
    | some pw' =>
        obtain ⟨hroot, hpure⟩ := exec_guard_bind.mp hrest
        obtain ⟨rfl, rfl⟩ := exec_pure_done.mp hpure
        exact ⟨rfl, fun hnil => hnamed (by rw [hnil]; rfl), not_lt.mp hshort, hroot⟩
  · rintro ⟨rfl, hnamed, hshort, hroot⟩
    refine ⟨some pw, [], rfl, ⟨fun h0 => hnamed (List.eq_nil_of_length_eq_zero h0),
      not_lt.mpr hshort⟩, exec_guard_bind.mpr ⟨hroot, exec_pure_done.mpr ⟨rfl, rfl⟩⟩⟩

/-- The file cannot be written by anybody but root and the service user, who owns it. -/
structure Trusted (pw : Passwd) (st : Stat) : Prop where
  regular : st.kind = .regular
  owner : st.uid = pw.uid
  notWritable : st.mode &&& 18 = 0

theorem exec_checkConfigFile : Exec (checkConfigFile path user pw) calls (.done ()) ↔
    ∃ st, calls = [⟨.lstat path, some st⟩] ∧ Trusted pw st := by
  unfold checkConfigFile call
  rw [exec_ask_bind]
  constructor
  · rintro ⟨found, rest, rfl, hrest⟩
    cases found with
    | none => exact (exec_exit_done.mp hrest).elim
    | some st =>
        simp only [exec_guard_bind, exec_guard_done] at hrest
        obtain ⟨hregular, -, howner, hmode, rfl⟩ := hrest
        exact ⟨st, rfl, hregular, howner, hmode⟩
  · rintro ⟨st, rfl, hregular, howner, hmode⟩
    refine ⟨some st, [], rfl, ?_⟩
    simp only [exec_guard_bind, exec_guard_done]
    exact ⟨hregular, by rw [hregular]; exact FileKind.noConfusion, howner, hmode, trivial⟩

theorem exec_readConfig : Exec (readConfig path) calls (.done b) ↔
    ∃ file, calls = [⟨.parseConfig path, file⟩] ∧
      boot file.text file.clock file.raws = .ok b := by
  unfold readConfig call
  rw [exec_ask_bind]
  constructor
  · rintro ⟨file, rest, rfl, hrest⟩
    refine ⟨file, ?_⟩
    cases hboot : boot file.text file.clock file.raws with
    | error e =>
        rw [hboot] at hrest
        exact (exec_exit_done.mp hrest).elim
    | ok b' =>
        rw [hboot] at hrest
        obtain ⟨rfl, rfl⟩ := exec_pure_done.mp hrest
        exact ⟨rfl, rfl⟩
  · rintro ⟨file, rfl, hboot⟩
    refine ⟨file, [], rfl, ?_⟩
    rw [hboot]
    exact exec_pure_done.mpr ⟨rfl, rfl⟩

/-- There is nothing at the path, or a socket that nobody listens on and that is removed. -/
inductive Vacated (path : List Byte) : Calls → Prop
  | absent : Vacated path [⟨.lstat path, none⟩]
  | stale {st : Stat} (h : st.kind = .socket) :
      Vacated path [⟨.lstat path, some st⟩, ⟨.socket, true⟩, ⟨.connect path, .refused⟩,
        ⟨.close, ()⟩, ⟨.unlink path, true⟩]

theorem exec_probeSocket :
    Exec (probeSocket path) calls (.done ()) ↔ Vacated path calls := by
  unfold probeSocket call
  rw [exec_ask_bind]
  constructor
  · rintro ⟨found, rest, rfl, hrest⟩
    cases found with
    | none =>
        obtain ⟨rfl, -⟩ := exec_pure_done.mp hrest
        exact .absent
    | some st =>
        simp only [exec_guard_bind, exec_demand_bind, exec_ask_bind] at hrest
        obtain ⟨hkind, _, rfl, r, _, rfl, _, _, rfl, hrest⟩ := hrest
        cases r with
        | accepted => exact (exec_exit_done.mp hrest).elim
        | failed => exact (exec_exit_done.mp hrest).elim
        | refused =>
            obtain rfl := exec_demand_done.mp hrest
            exact .stale hkind
  · rintro (_ | hkind)
    · exact ⟨none, [], rfl, exec_pure_done.mpr ⟨rfl, rfl⟩⟩
    · refine ⟨some _, _, rfl, ?_⟩
      simp only [exec_guard_bind, exec_demand_bind, exec_ask_bind]
      exact ⟨hkind, _, rfl, .refused, _, rfl, (), _, rfl, exec_demand_done.mpr rfl⟩

/-- The calls of `openSocket`. -/
def socketCalls (path : List Byte) (pw : Passwd) (startedAsRoot : Bool) : Calls :=
  [⟨.bind path, .ok⟩, ⟨.listen 5, true⟩, ⟨.chmod path 432, true⟩] ++
    if startedAsRoot then [⟨.chown path pw.uid pw.gid, true⟩] else []

theorem exec_openSocket {root : Bool} :
    Exec (openSocket path pw root) calls (.done ()) ↔ calls = socketCalls path pw root := by
  unfold openSocket call socketCalls
  rw [exec_ask_bind]
  constructor
  · rintro ⟨r, rest, rfl, hrest⟩
    cases r with
    | eacces => exact (exec_exit_done.mp hrest).elim
    | failed => exact (exec_exit_done.mp hrest).elim
    | ok =>
        simp only [exec_demand_bind] at hrest
        obtain ⟨_, rfl, _, rfl, hrest⟩ := hrest
        cases root with
        | true =>
            obtain rfl := exec_demand_done.mp hrest
            rfl
        | false =>
            obtain ⟨rfl, -⟩ := exec_pure_done.mp hrest
            rfl
  · rintro rfl
    refine ⟨.ok, _, rfl, ?_⟩
    simp only [exec_demand_bind]
    refine ⟨_, rfl, _, rfl, ?_⟩
    cases root with
    | true => exact exec_demand_done.mpr rfl
    | false => exact exec_pure_done.mpr ⟨rfl, rfl⟩

/-- The calls of `openDevice`. -/
def deviceCalls (enabled : Bool) (config : Config) : Calls :=
  if enabled then [⟨.openWatchdog, true⟩,
    ⟨.log .info (bytes "Opened hardware watchdog device /dev/watchdog"), ()⟩,
    ⟨.setTimeout config.wdTimeoutS, true⟩] else []

theorem exec_openDevice {enabled root watchdog : Bool} {config : Config} :
    Exec (openDevice enabled root config) calls (.done watchdog) ↔
      watchdog = enabled ∧ (enabled = true → root = true) ∧ calls = deviceCalls enabled config := by
  unfold openDevice deviceCalls call
  cases enabled with
  | false =>
      rw [if_neg Bool.false_ne_true, if_neg Bool.false_ne_true, exec_pure_done]
      exact ⟨fun ⟨hcalls, hw⟩ => ⟨hw, nofun, hcalls⟩, fun ⟨hw, _, hcalls⟩ => ⟨hcalls, hw⟩⟩
  | true =>
      rw [if_pos rfl, if_pos rfl]
      simp only [exec_guard_bind, exec_demand_bind, exec_ask_bind, exec_pure_done]
      constructor
      · rintro ⟨hroot, _, rfl, _, _, rfl, _, rfl, rfl, hw⟩
        exact ⟨hw, fun _ => hroot, rfl⟩
      · rintro ⟨hw, hroot, rfl⟩
        exact ⟨hroot trivial, _, rfl, (), _, rfl, _, rfl, rfl, hw⟩

/-- The calls of `dropPrivileges`. -/
def dropCalls (startedAsRoot : Bool) (pw : Passwd) : Calls :=
  if startedAsRoot then [⟨.setgroups, true⟩, ⟨.setgid pw.gid, true⟩, ⟨.setuid pw.uid, true⟩]
  else []

theorem exec_dropPrivileges {root : Bool} :
    Exec (dropPrivileges root pw) calls (.done ()) ↔ calls = dropCalls root pw := by
  unfold dropPrivileges dropCalls
  cases root with
  | false =>
      rw [if_neg Bool.false_ne_true, if_neg Bool.false_ne_true, exec_pure_done]
      exact and_iff_left rfl
  | true =>
      rw [if_pos rfl, if_pos rfl]
      simp only [exec_demand_bind, exec_demand_done]
      constructor
      · rintro ⟨_, rfl, _, rfl, rfl⟩
        rfl
      · rintro rfl
        exact ⟨_, rfl, _, rfl, rfl⟩

/-- The calls of `becomeDaemon`, in the child. -/
def daemonCalls (daemonize : Bool) (facility : Facility) : Calls :=
  if daemonize then [⟨.fork, .child⟩, ⟨.setsid, true⟩, ⟨.chdir, true⟩, ⟨.openlog facility, ()⟩]
  else []

theorem exec_becomeDaemon {daemonize : Bool} {facility : Facility} :
    Exec (becomeDaemon daemonize facility) calls (.done ()) ↔
      calls = daemonCalls daemonize facility := by
  unfold becomeDaemon daemonCalls call
  cases daemonize with
  | false =>
      rw [if_neg Bool.false_ne_true, if_neg Bool.false_ne_true, exec_pure_done]
      exact and_iff_left rfl
  | true =>
      rw [if_pos rfl, if_pos rfl, exec_ask_bind]
      constructor
      · rintro ⟨pid, rest, rfl, hrest⟩
        cases pid with
        | failed => exact (exec_exit_done.mp hrest).elim
        | parent => exact (exec_exit_done.mp hrest).elim
        | child =>
            simp only [exec_demand_bind] at hrest
            obtain ⟨_, rfl, _, rfl, hrest⟩ := hrest
            obtain rfl := exec_ask_done.mp hrest
            rfl
      · rintro rfl
        refine ⟨.child, _, rfl, ?_⟩
        simp only [exec_demand_bind]
        exact ⟨_, rfl, _, rfl, exec_ask_done.mpr rfl⟩

/-- The text about the boot status, with its priority. -/
def statusLog : Except (List Byte) (BitVec 32) → Call Op Ans
  | .error text => ⟨.log .err (bytes "Failed to get boot status: " ++ text), ()⟩
  | .ok status => ⟨.log .info (bootStatusText status), ()⟩

/-- The calls of `logDevice`, with the answer about the boot status. -/
def deviceLog (watchdog : Bool) (config : Config) (status : Except (List Byte) (BitVec 32)) :
    Calls :=
  if watchdog then [⟨.log .info (bytes "Hardware watchdog timeout: " ++
      decimalInt config.wdTimeoutS ++ bytes " seconds"), ()⟩, ⟨.getBootStatus, status⟩,
    statusLog status]
  else [⟨.log .info (bytes "Running in test mode, no hardware watchdog used"), ()⟩]

theorem exec_logDevice {watchdog : Bool} {config : Config} :
    Exec (logDevice watchdog config) calls (.done ()) ↔
      ∃ status, calls = deviceLog watchdog config status := by
  unfold logDevice deviceLog call
  cases watchdog with
  | false =>
      rw [if_neg Bool.false_ne_true, exec_ask_done]
      exact ⟨fun h => ⟨.ok 0, h⟩, fun ⟨_, h⟩ => h⟩
  | true =>
      rw [if_pos rfl]
      simp only [exec_ask_bind]
      constructor
      · rintro ⟨_, _, rfl, status, _, rfl, hrest⟩
        refine ⟨status, ?_⟩
        cases status with
        | error text => rw [exec_ask_done.mp hrest]; rfl
        | ok status => rw [exec_ask_done.mp hrest]; rfl
      · rintro ⟨status, rfl⟩
        refine ⟨(), _, rfl, status, _, rfl, ?_⟩
        cases status with
        | error text => exact exec_ask_done.mpr rfl
        | ok status => exact exec_ask_done.mpr rfl

/-- The lines about the announced clients. -/
def announcedLog (cs : List Client) : Calls :=
  (cs.takeWhile Client.anounced).map fun c => ⟨.log .info (announcedText c), ()⟩

theorem exec_logAnnounced {cs : List Client} :
    ∀ {calls : Calls}, Exec (logAnnounced cs) calls (.done ()) ↔ calls = announcedLog cs := by
  unfold announcedLog
  induction cs with
  | nil => intro calls; exact exec_pure_done.trans (and_iff_left rfl)
  | cons c cs ih =>
      intro calls
      rw [logAnnounced, List.takeWhile_cons]
      cases c.anounced with
      | false =>
          rw [if_neg Bool.false_ne_true, if_neg Bool.false_ne_true]
          exact exec_pure_done.trans (and_iff_left rfl)
      | true =>
          rw [if_pos rfl, if_pos rfl, exec_ask_bind]
          constructor
          · rintro ⟨_, rest, rfl, hrest⟩
            rw [ih.mp hrest]
            rfl
          · rintro rfl
            exact ⟨(), _, rfl, ih.mpr rfl⟩

/-- The calls of `report`. -/
def reportCalls (watchdog : Bool) (b : Broker) (status : Except (List Byte) (BitVec 32)) : Calls :=
  ⟨.log .notice (bytes "wd-broker v2.1.0 started on socket " ++ b.config.socketPath.chars), ()⟩ ::
    (deviceLog watchdog b.config status ++ announcedLog b.clients.slots)

theorem exec_report {watchdog : Bool} : Exec (report watchdog b) calls (.done ()) ↔
    ∃ status, calls = reportCalls watchdog b status := by
  unfold report call reportCalls
  rw [exec_ask_bind]
  constructor
  · rintro ⟨_, rest, rfl, hrest⟩
    obtain ⟨first, _, last, rfl, hdevice, hann⟩ := exec_bind_done.mp hrest
    obtain ⟨status, rfl⟩ := exec_logDevice.mp hdevice
    rw [exec_logAnnounced.mp hann]
    exact ⟨status, rfl⟩
  · rintro ⟨status, rfl⟩
    exact ⟨(), _, rfl, exec_bind_done.mpr
      ⟨_, (), _, rfl, exec_logDevice.mpr ⟨status, rfl⟩, exec_logAnnounced.mpr rfl⟩⟩

/-- What the world answers on the way to the loop. -/
structure Answers where
  socket : Bool
  timer : Bool
  euid : Nat
  options : Options
  pw : Passwd
  st : Stat
  file : ConfigFile
  vacated : Calls
  status : Except (List Byte) (BitVec 32)

/-- The answers that `main` gets to its loop with. -/
structure Answers.Ok (x : Answers) (d : Defaults) (opts : List Opt) (b : Broker) : Prop where
  options : parseOptions (Options.init d) opts = .ok x.options
  user : UserOk x.options.serviceUser x.pw
  trusted : Trusted x.pw x.st
  boots : boot x.file.text x.file.clock x.file.raws = .ok b
  vacated : Vacated b.config.socketPath.chars x.vacated
  root : x.options.watchdogEnabled = true → x.euid = 0

/-- The calls from the options to the loop. -/
def Answers.prepareCalls (x : Answers) (b : Broker) (root : Bool) : Calls :=
  [⟨.getpwnam x.options.serviceUser, some x.pw⟩] ++
    ([⟨.lstat x.options.configFile, some x.st⟩] ++
      ([⟨.parseConfig x.options.configFile, x.file⟩] ++
        ⟨.timerfdSettime (b.config.wdTimeoutS.tdiv 2), true⟩ ::
          (x.vacated ++ (socketCalls b.config.socketPath.chars x.pw root ++
            (deviceCalls x.options.watchdogEnabled b.config ++
              (dropCalls root x.pw ++
                (daemonCalls x.options.daemonize x.options.syslogFacility ++
                  reportCalls x.options.watchdogEnabled b x.status)))))))

def Answers.startCalls (x : Answers) (b : Broker) : Calls :=
  ⟨.socket, x.socket⟩ :: ⟨.timerfdCreate, x.timer⟩ :: ⟨.geteuid, x.euid⟩ ::
    x.prepareCalls b (decide (x.euid = 0))

theorem exec_prepare {x : Answers} {d : Defaults} {opts : List Opt} (h : x.Ok d opts b) :
    Exec (prepare x.options (decide (x.euid = 0))) (x.prepareCalls b (decide (x.euid = 0)))
      (.done (b, x.options.watchdogEnabled)) := by
  have hroot : x.options.watchdogEnabled = true → decide (x.euid = 0) = true :=
    fun hw => decide_eq_true (h.root hw)
  refine exec_bind_done.mpr ⟨_, x.pw, _, rfl, exec_checkUser.mpr ⟨rfl, h.user⟩, ?_⟩
  refine exec_bind_done.mpr ⟨_, (), _, rfl, exec_checkConfigFile.mpr ⟨x.st, rfl, h.trusted⟩, ?_⟩
  refine exec_bind_done.mpr ⟨_, b, _, rfl, exec_readConfig.mpr ⟨x.file, rfl, h.boots⟩, ?_⟩
  refine exec_demand_bind.mpr ⟨_, rfl, ?_⟩
  refine exec_bind_done.mpr ⟨_, (), _, rfl, exec_probeSocket.mpr h.vacated, ?_⟩
  refine exec_bind_done.mpr ⟨_, (), _, rfl, exec_openSocket.mpr rfl, ?_⟩
  refine exec_bind_done.mpr ⟨_, _, _, rfl, exec_openDevice.mpr ⟨rfl, hroot, rfl⟩, ?_⟩
  refine exec_bind_done.mpr ⟨_, (), _, rfl, exec_dropPrivileges.mpr rfl, ?_⟩
  refine exec_bind_done.mpr ⟨_, (), _, rfl, exec_becomeDaemon.mpr rfl, ?_⟩
  refine exec_bind_done.mpr ⟨_, (), [], (List.append_nil _).symm, exec_report.mpr ⟨x.status, rfl⟩,
    exec_pure_done.mpr ⟨rfl, rfl⟩⟩

/-- **THE WAY TO THE LOOP**: which calls `main` makes, with which answers, if it gets to
    its loop. -/
theorem exec_startUp {d : Defaults} {opts : List Opt} {watchdog : Bool} :
    Exec (startUp d opts) calls (.done (b, watchdog)) ↔
      ∃ x : Answers, x.Ok d opts b ∧ watchdog = x.options.watchdogEnabled ∧ calls = x.startCalls b := by
  unfold startUp call
  constructor
  · intro h
    simp only [exec_ask_bind] at h
    obtain ⟨socket, _, rfl, timer, _, rfl, euid, rest, rfl, hrest⟩ := h
    cases hopts : parseOptions (Options.init d) opts with
    | error stop =>
        rw [hopts] at hrest
        exact (exec_exit_done.mp hrest).elim
    | ok o =>
        rw [hopts] at hrest
        obtain ⟨_, pw, _, rfl, hcheck, h₁⟩ := exec_bind_done.mp hrest
        obtain ⟨rfl, huser⟩ := exec_checkUser.mp hcheck
        obtain ⟨_, _, _, rfl, hfile, h₂⟩ := exec_bind_done.mp h₁
        obtain ⟨st, rfl, htrust⟩ := exec_checkConfigFile.mp hfile
        obtain ⟨_, b', _, rfl, hread, h₃⟩ := exec_bind_done.mp h₂
        obtain ⟨file, rfl, hboot⟩ := exec_readConfig.mp hread
        obtain ⟨_, rfl, h₄⟩ := exec_demand_bind.mp h₃
        obtain ⟨vacated, _, _, rfl, hvac, h₅⟩ := exec_bind_done.mp h₄
        obtain ⟨_, _, _, rfl, hsocket, h₆⟩ := exec_bind_done.mp h₅
        obtain rfl := exec_openSocket.mp hsocket
        obtain ⟨_, w, _, rfl, hdevice, h₇⟩ := exec_bind_done.mp h₆
        obtain ⟨rfl, hroot, rfl⟩ := exec_openDevice.mp hdevice
        obtain ⟨_, _, _, rfl, hdrop, h₈⟩ := exec_bind_done.mp h₇
        obtain rfl := exec_dropPrivileges.mp hdrop
        obtain ⟨_, _, _, rfl, hdaemon, h₉⟩ := exec_bind_done.mp h₈
        obtain rfl := exec_becomeDaemon.mp hdaemon
        obtain ⟨_, _, _, rfl, hreport, hpure⟩ := exec_bind_done.mp h₉
        obtain ⟨status, rfl⟩ := exec_report.mp hreport
        obtain ⟨rfl, hend⟩ := exec_pure_done.mp hpure
        obtain ⟨rfl, rfl⟩ := Prod.mk.inj hend
        refine ⟨⟨socket, timer, euid, o, pw, st, file, vacated, status⟩,
          ⟨hopts, huser, htrust, hboot, exec_probeSocket.mp hvac,
            fun hw => of_decide_eq_true (hroot hw)⟩, rfl, ?_⟩
        rw [List.append_nil]
        rfl
  · rintro ⟨x, hx, rfl, rfl⟩
    refine exec_ask_bind.mpr ⟨x.socket, _, rfl, exec_ask_bind.mpr ⟨x.timer, _, rfl,
      exec_ask_bind.mpr ⟨x.euid, _, rfl, ?_⟩⟩⟩
    rw [hx.options]
    exact exec_prepare hx

end WdStartUp
