import WdBroker.StartUpProofs

/-! # What start-up does with its privileges

    Start-up runs as root up to `setuid`, reads a file and removes one whose names come
    from outside, and arms a device that cannot be disarmed by exiting.  `Pre` says under
    which circumstances each of these calls is made, `Ended` how the process can end;
    both hold of every execution, whatever the world answers and wherever it stops.

    * `config_trusted` — what is parsed was owned by the service user and not writable by
      others when it was looked at;
    * `only_stale_sockets` — what is removed was a socket that nobody listened on;
    * `privileges_dropped` — what needs root is done as root, and the loop runs as the
      service user;
    * `device_last` — the device is opened behind everything that can go wrong with user,
      file and socket. -/

namespace WdPrivilege

open CString WdClock WdTable WdConfig WdCommand WdReach WdMain Program Prog WdStartUp

-- ── circumstances ─────────────────────────────────────────────────────────────

/-- The process was started as root and has not given that up. -/
structure Root (h : Calls) : Prop where
  started : (⟨.geteuid, (0 : Nat)⟩ : Call Op Ans) ∈ h
  kept : ∀ uid, (⟨.setuid uid, true⟩ : Call Op Ans) ∉ h

/-- The last call found the file trustworthy, for the user found by the call before. -/
def Checked (path : List Byte) (h : Calls) : Prop :=
  ∃ user pw st rest, h = ⟨.lstat path, some st⟩ :: ⟨.getpwnam user, some pw⟩ :: rest ∧
    UserOk user pw ∧ Trusted pw st

/-- The last calls found a socket that nobody listens on. -/
def Stale (path : List Byte) (h : Calls) : Prop :=
  ∃ st rest, h = ⟨.close, ()⟩ :: ⟨.connect path, .refused⟩ :: ⟨.socket, true⟩ ::
    ⟨.lstat path, some st⟩ :: rest ∧ st.kind = .socket

/-- The last call found nothing at the path, or removed what was there. -/
def Vacant (path : List Byte) (h : Calls) : Prop :=
  (∃ rest, h = ⟨.lstat path, none⟩ :: rest) ∨ ∃ rest, h = ⟨.unlink path, true⟩ :: rest

/-- The last calls made the socket, for the service user. -/
def Serving (h : Calls) : Prop :=
  ∃ path pw rest, h = (socketCalls path pw true).reverse ++ rest

/-- The device is open. -/
def Opened (h : Calls) : Prop := (⟨.openWatchdog, true⟩ : Call Op Ans) ∈ h

/-- Under which circumstances a call is made. -/
def Pre (h : Calls) : Op → Prop
  | .parseConfig path => Checked path h
  | .unlink path => Stale path h
  | .bind path => Vacant path h
  | .openWatchdog => Root h ∧ Serving h
  | .setTimeout _ => Root h ∧ Opened h
  | .chown _ _ _ | .setgroups | .setgid _ | .setuid _ => Root h
  | _ => True

/-- What can still go wrong once the device is open. -/
def lateFailures : List Fatal := [.setTimeout, .setgroups, .setgid, .setuid, .fork, .setsid, .chdir]

/-- How the process ends: with the device open only for one of the late failures, or as
    the parent of the daemon. -/
def Ended (h : Calls) (x : Stop) : Prop :=
  Opened h → (∃ why ∈ lateFailures, x = .failure why) ∨
    (x = .success ∧ ∃ rest, h = ⟨.fork, .parent⟩ :: rest)

-- ── up to the device ──────────────────────────────────────────────────────────

/-- Before the device is opened. -/
structure Before (root : Bool) (h : Calls) : Prop where
  root : root = true → Root h
  closed : ¬ Opened h

variable {h : Calls} {root : Bool} {path user : List Byte} {pw : Passwd} {b : Broker}

/-- Calls that neither give up root nor open the device. -/
def keeps : Op → Bool
  | .setuid _ | .openWatchdog => false
  | _ => true

theorem Root.cons {c : Call Op Ans} (hr : Root h) (hc : ∀ uid, c.1 ≠ .setuid uid) :
    Root (c :: h) := by
  refine ⟨List.mem_cons_of_mem c hr.started, fun uid hmem => ?_⟩
  rcases List.mem_cons.mp hmem with heq | hmem
  · exact hc uid (congrArg Sigma.fst heq).symm
  · exact hr.kept uid hmem

theorem Before.cons {c : Call Op Ans} (hb : Before root h) (hc : keeps c.1 = true) :
    Before root (c :: h) := by
  refine ⟨fun hr => (hb.root hr).cons ?_, fun hmem => ?_⟩
  · rintro uid hset
    rw [hset] at hc
    exact Bool.noConfusion hc
  · rcases List.mem_cons.mp hmem with heq | hmem
    · rw [← congrArg Sigma.fst heq] at hc
      exact Bool.noConfusion hc
    · exact hb.closed hmem

/-- Where the device is closed nothing is asked of the end. -/
theorem Before.ended (hb : Before root h) (x : Stop) : Ended h x :=
  fun hopen => absurd hopen hb.closed

theorem ended_late {why : Fatal} (hwhy : why ∈ lateFailures) : Ended h (.failure why) :=
  fun _ => Or.inl ⟨why, hwhy, rfl⟩

/-- A call whose failure is fatal. -/
theorem safe_demand {op : Op} {hb : Ans op = Bool} {why : Fatal} {post : Calls → Unit → Prop}
    (hpre : Pre h op) (hpost : post (⟨op, cast hb.symm true⟩ :: h) ())
    (hend : Ended (⟨op, cast hb.symm false⟩ :: h) (.failure why)) :
    Safe Pre post Ended h (demand op hb why) := by
  unfold demand
  refine safe_bind.mpr (safe_ask.mpr ⟨hpre, fun r => safe_guard.mpr ⟨fun hr => ?_, fun hr => ?_⟩⟩)
  · have hr' : r = cast hb.symm true := by rw [← hr, cast_cast, cast_eq]
    rw [hr']
    exact hpost
  · have hr' : r = cast hb.symm false := by
      rw [← Bool.eq_false_iff.mpr hr, cast_cast, cast_eq]
    rw [hr']
    exact hend

theorem safe_checkUser (hb : Before root h) :
    Safe Pre (fun h' pw => Before root h' ∧ UserOk user pw ∧ h' = ⟨.getpwnam user, some pw⟩ :: h)
      Ended h (checkUser user) := by
  unfold checkUser
  refine safe_bind.mpr (safe_ask.mpr ⟨trivial, fun found => ?_⟩)
  have hb' := @Before.cons h root ⟨.getpwnam user, found⟩ hb rfl
  refine safe_bind.mpr (safe_guard.mpr ⟨fun hname => ?_, fun _ => hb'.ended _⟩)
  cases found with
  | none => exact hb'.ended _
  | some pw =>
      refine safe_bind.mpr (safe_guard.mpr ⟨fun hroot => ?_, fun _ => hb'.ended _⟩)
      rw [not_or] at hname
      exact ⟨hb', ⟨fun hnil => hname.1 (by rw [hnil]; rfl), not_lt.mp hname.2, hroot⟩, rfl⟩

theorem safe_checkConfigFile (hb : Before root h) :
    Safe Pre (fun h' _ => Before root h' ∧ ∃ st, Trusted pw st ∧ h' = ⟨.lstat path, some st⟩ :: h)
      Ended h (checkConfigFile path user pw) := by
  unfold checkConfigFile
  refine safe_bind.mpr (safe_ask.mpr ⟨trivial, fun found => ?_⟩)
  have hb' := @Before.cons h root ⟨.lstat path, found⟩ hb rfl
  cases found with
  | none => exact hb'.ended _
  | some st =>
      refine safe_bind.mpr (safe_guard.mpr ⟨fun hregular => ?_, fun _ => hb'.ended _⟩)
      refine safe_bind.mpr (safe_guard.mpr ⟨fun _ => ?_, fun _ => hb'.ended _⟩)
      refine safe_bind.mpr (safe_guard.mpr ⟨fun howner => ?_, fun _ => hb'.ended _⟩)
      exact safe_guard.mpr ⟨fun hmode => ⟨hb', st, ⟨hregular, howner, hmode⟩, rfl⟩,
        fun _ => hb'.ended _⟩

theorem safe_readConfig (hb : Before root h) (hchecked : Checked path h) :
    Safe Pre (fun h' _ => Before root h') Ended h (readConfig path) := by
  unfold readConfig
  refine safe_bind.mpr (safe_ask.mpr ⟨hchecked, fun file => ?_⟩)
  have hb' := @Before.cons h root ⟨.parseConfig path, file⟩ hb rfl
  cases boot file.text file.clock file.raws with
  | error e => exact hb'.ended _
  | ok b => exact hb'

theorem safe_probeSocket (hb : Before root h) :
    Safe Pre (fun h' _ => Before root h' ∧ Vacant path h') Ended h (probeSocket path) := by
  unfold probeSocket
  refine safe_bind.mpr (safe_ask.mpr ⟨trivial, fun found => ?_⟩)
  have hb₁ := @Before.cons h root ⟨.lstat path, found⟩ hb rfl
  cases found with
  | none => exact ⟨hb₁, Or.inl ⟨h, rfl⟩⟩
  | some st =>
      refine safe_bind.mpr (safe_guard.mpr ⟨fun hkind => ?_, fun _ => hb₁.ended _⟩)
      refine safe_bind.mpr (safe_demand trivial ?_ ((hb₁.cons (by rfl)).ended _))
      refine safe_bind.mpr (safe_ask.mpr ⟨trivial, fun r => ?_⟩)
      refine safe_bind.mpr (safe_ask.mpr ⟨trivial, fun _ => ?_⟩)
      have hb₂ : Before root (⟨.close, ()⟩ :: ⟨.connect path, r⟩ :: ⟨.socket, true⟩ ::
          ⟨.lstat path, some st⟩ :: h) :=
        ((hb₁.cons (by rfl)).cons (by rfl)).cons (by rfl)
      cases r with
      | accepted => exact hb₂.ended _
      | failed => exact hb₂.ended _
      | refused =>
          exact safe_demand ⟨st, h, rfl, hkind⟩ ⟨hb₂.cons (by rfl), Or.inr ⟨_, rfl⟩⟩
            ((hb₂.cons (by rfl)).ended _)

theorem safe_openSocket (hb : Before root h) (hvacant : Vacant path h) :
    Safe Pre (fun h' _ => Before root h' ∧ (root = true → Serving h')) Ended h
      (openSocket path pw root) := by
  unfold openSocket
  refine safe_bind.mpr (safe_ask.mpr ⟨hvacant, fun r => ?_⟩)
  have hb₁ := @Before.cons h root ⟨.bind path, r⟩ hb rfl
  cases r with
  | eacces => exact hb₁.ended _
  | failed => exact hb₁.ended _
  | ok =>
      refine safe_bind.mpr (safe_demand trivial ?_ ((hb₁.cons (by rfl)).ended _))
      have hb₂ : Before root (⟨.listen 5, true⟩ :: ⟨.bind path, .ok⟩ :: h) := hb₁.cons (by rfl)
      refine safe_bind.mpr (safe_demand trivial ?_ ((hb₂.cons (by rfl)).ended _))
      have hb₃ : Before root (⟨.chmod path 432, true⟩ :: ⟨.listen 5, true⟩ :: ⟨.bind path, .ok⟩ ::
          h) := hb₂.cons (by rfl)
      cases root with
      | false => exact ⟨hb₃, nofun⟩
      | true =>
          refine safe_demand (hb₃.root rfl) ⟨hb₃.cons (by rfl), fun _ => ⟨path, pw, h, rfl⟩⟩
            ((hb₃.cons (by rfl)).ended _)

-- ── from the device on ────────────────────────────────────────────────────────

theorem safe_openDevice {enabled : Bool} {config : Config} (hb : Before root h)
    (hserving : root = true → Serving h) :
    Safe Pre (fun h' _ => root = true → Root h') Ended h (openDevice enabled root config) := by
  unfold openDevice
  cases enabled with
  | false => exact hb.root
  | true =>
      refine safe_bind.mpr (safe_guard.mpr ⟨fun hroot => ?_, fun _ => hb.ended _⟩)
      have hr := hb.root hroot
      refine safe_bind.mpr (safe_demand ⟨hr, hserving hroot⟩ ?_ fun hopen => ?_)
      · have hr₁ : Root (⟨.openWatchdog, true⟩ :: h) := hr.cons nofun
        refine safe_bind.mpr (safe_ask.mpr ⟨trivial, fun _ => ?_⟩)
        have hr₂ := hr₁.cons (c := ⟨.log .info
          (bytes "Opened hardware watchdog device /dev/watchdog"), ()⟩) nofun
        refine safe_bind.mpr (safe_demand ⟨hr₂, ?_⟩ ?_ (ended_late (by decide)))
        · exact List.mem_cons_of_mem _ List.mem_cons_self
        · exact fun _ => hr₂.cons nofun
      · rcases List.mem_cons.mp hopen with heq | hopen
        · cases heq
        · exact absurd hopen hb.closed

theorem safe_dropPrivileges (hroot : root = true → Root h) :
    Safe Pre (fun _ _ => True) Ended h (dropPrivileges root pw) := by
  unfold dropPrivileges
  cases root with
  | false => trivial
  | true =>
      have hr := hroot rfl
      refine safe_bind.mpr (safe_demand hr ?_ (ended_late (by decide)))
      have hr₁ : Root (⟨.setgroups, true⟩ :: h) := hr.cons nofun
      refine safe_bind.mpr (safe_demand hr₁ ?_ (ended_late (by decide)))
      have hr₂ : Root (⟨.setgid pw.gid, true⟩ :: ⟨.setgroups, true⟩ :: h) := hr₁.cons nofun
      exact safe_demand hr₂ trivial (ended_late (by decide))

theorem safe_becomeDaemon (daemonize : Bool) (facility : Facility) :
    Safe Pre (fun _ _ => True) Ended h (becomeDaemon daemonize facility) := by
  unfold becomeDaemon
  cases daemonize with
  | false => trivial
  | true =>
      refine safe_bind.mpr (safe_ask.mpr ⟨trivial, fun pid => ?_⟩)
      cases pid with
      | failed => exact ended_late (by decide)
      | parent => exact fun _ => Or.inr ⟨rfl, h, rfl⟩
      | child =>
          refine safe_bind.mpr (safe_demand trivial ?_ (ended_late (by decide)))
          refine safe_bind.mpr (safe_demand trivial ?_ (ended_late (by decide)))
          exact safe_ask.mpr ⟨trivial, fun _ => trivial⟩

theorem safe_report (watchdog : Bool) (b : Broker) :
    Safe Pre (fun _ _ => True) Ended h (report watchdog b) := by
  have hann : ∀ (cs : List Client) (h : Calls),
      Safe Pre (fun _ _ => True) Ended h (logAnnounced cs) := by
    intro cs
    induction cs with
    | nil => exact fun h => trivial
    | cons c cs ih =>
        intro h
        rw [logAnnounced]
        split
        · exact safe_bind.mpr (safe_ask.mpr ⟨trivial, fun _ => ih _⟩)
        · trivial
  unfold report logDevice
  refine safe_bind.mpr (safe_ask.mpr ⟨trivial, fun _ => safe_bind.mpr ?_⟩)
  cases watchdog with
  | false => exact safe_ask.mpr ⟨trivial, fun _ => hann _ _⟩
  | true =>
      refine safe_bind.mpr (safe_ask.mpr ⟨trivial, fun _ => ?_⟩)
      refine safe_bind.mpr (safe_ask.mpr ⟨trivial, fun status => ?_⟩)
      cases status with
      | error text => exact safe_ask.mpr ⟨trivial, fun _ => hann _ _⟩
      | ok status => exact safe_ask.mpr ⟨trivial, fun _ => hann _ _⟩

-- ── all of it ─────────────────────────────────────────────────────────────────

theorem safe_prepare (o : Options) (hb : Before root h) :
    Safe Pre (fun _ _ => True) Ended h (prepare o root) := by
  unfold prepare
  refine safe_bind.mpr ((safe_checkUser hb).mono ?_)
  rintro _ pw ⟨hb₁, huser, rfl⟩
  refine safe_bind.mpr ((safe_checkConfigFile hb₁).mono ?_)
  rintro _ _ ⟨hb₂, st, htrust, rfl⟩
  refine safe_bind.mpr ((safe_readConfig hb₂ ⟨_, pw, st, h, rfl, huser, htrust⟩).mono ?_)
  intro _ b hb₃
  refine safe_bind.mpr (safe_demand trivial ?_ ((hb₃.cons (by rfl)).ended _))
  refine safe_bind.mpr ((safe_probeSocket (hb₃.cons (by rfl))).mono ?_)
  rintro _ _ ⟨hb₄, hvacant⟩
  refine safe_bind.mpr ((safe_openSocket hb₄ hvacant).mono ?_)
  rintro _ _ ⟨hb₅, hserving⟩
  refine safe_bind.mpr ((safe_openDevice hb₅ hserving).mono ?_)
  intro _ watchdog hroot
  refine safe_bind.mpr ((safe_dropPrivileges hroot).mono fun _ _ _ => ?_)
  refine safe_bind.mpr ((safe_becomeDaemon _ _).mono fun _ _ _ => ?_)
  exact safe_bind.mpr ((safe_report _ _).mono fun _ _ _ => trivial)

/-- **START-UP IS SAFE**: every call is made under its circumstances. -/
theorem safe_startUp (d : Defaults) (opts : List Opt) :
    Safe Pre (fun _ _ => True) Ended [] (startUp d opts) := by
  unfold startUp
  refine safe_bind.mpr (safe_ask.mpr ⟨trivial, fun socket => ?_⟩)
  refine safe_bind.mpr (safe_ask.mpr ⟨trivial, fun timer => ?_⟩)
  refine safe_bind.mpr (safe_ask.mpr ⟨trivial, fun euid => ?_⟩)
  have hb : Before (decide ((euid : Nat) = 0))
      [⟨.geteuid, euid⟩, ⟨.timerfdCreate, timer⟩, ⟨.socket, socket⟩] := by
    refine ⟨fun hroot => ⟨?_, fun uid hmem => ?_⟩, fun hmem => ?_⟩
    · rw [of_decide_eq_true hroot]
      exact List.mem_cons_self
    · simp at hmem
    · simp [Opened] at hmem
  cases parseOptions (Options.init d) opts with
  | error stop => exact hb.ended stop
  | ok o => exact safe_prepare o hb

variable {d : Defaults} {opts : List Opt} {calls : Calls} {e : Status Stop (Broker × Bool)}

/-- Under which circumstances a call of an execution was made. -/
theorem pre_of_exec (hexec : Exec (startUp d opts) calls e) {first rest : Calls} {op : Op}
    {r : Ans op} (hcalls : calls = first ++ ⟨op, r⟩ :: rest) : Pre first.reverse op := by
  have hpre := safe_calls hexec (safe_startUp d opts) first op r rest hcalls
  rwa [List.append_nil] at hpre

/-- A history, read forwards. -/
theorem forwards {first late early : Calls} (h : first.reverse = late ++ early) :
    first = early.reverse ++ late.reverse := by
  rw [← List.reverse_append, ← h, List.reverse_reverse]

/-- **THE CONFIGURATION IS TRUSTED**: in every execution, the calls right before a file is
    parsed looked up a user other than root and found the file, at the same path, to be
    a regular file that belongs to that user and that neither group nor others can write. -/
theorem config_trusted (hexec : Exec (startUp d opts) calls e) {first rest : Calls}
    {path : List Byte} {file : ConfigFile}
    (hcalls : calls = first ++ ⟨.parseConfig path, file⟩ :: rest) :
    ∃ user pw st earlier,
      first = earlier ++ [⟨.getpwnam user, some pw⟩, ⟨.lstat path, some st⟩] ∧
        user ≠ [] ∧ pw.uid ≠ 0 ∧ st.kind = .regular ∧ st.uid = pw.uid ∧ st.mode &&& 18 = 0 := by
  obtain ⟨user, pw, st, early, hfirst, huser, htrust⟩ := pre_of_exec hexec hcalls
  refine ⟨user, pw, st, early.reverse, ?_, huser.named, huser.notRoot, htrust.regular,
    htrust.owner, htrust.notWritable⟩
  exact @forwards _ [⟨.lstat path, some st⟩, ⟨.getpwnam user, some pw⟩] _ hfirst

/-- **ONLY STALE SOCKETS ARE REMOVED**: in every execution, a path is removed only right
    after it was found to be a socket on which a connection was refused, and bound only
    right after it was found to be free or was removed so. -/
theorem only_stale_sockets (hexec : Exec (startUp d opts) calls e) :
    (∀ first path r rest, calls = first ++ ⟨.unlink path, r⟩ :: rest →
      ∃ st earlier, first = earlier ++ [⟨.lstat path, some st⟩, ⟨.socket, true⟩,
        ⟨.connect path, .refused⟩, ⟨.close, ()⟩] ∧ st.kind = .socket) ∧
    ∀ first path r rest, calls = first ++ ⟨.bind path, r⟩ :: rest →
      ∃ earlier, first = earlier ++ [⟨.lstat path, none⟩] ∨
        first = earlier ++ [⟨.unlink path, true⟩] := by
  constructor
  · intro first path r rest hcalls
    obtain ⟨st, early, hfirst, hkind⟩ := pre_of_exec hexec hcalls
    refine ⟨st, early.reverse, ?_, hkind⟩
    exact @forwards _ [⟨.close, ()⟩, ⟨.connect path, .refused⟩, ⟨.socket, true⟩,
      ⟨.lstat path, some st⟩] _ hfirst
  · intro first path r rest hcalls
    rcases pre_of_exec hexec hcalls with ⟨early, hfirst⟩ | ⟨early, hfirst⟩
    · exact ⟨early.reverse, Or.inl (@forwards _ [⟨.lstat path, none⟩] _ hfirst)⟩
    · exact ⟨early.reverse, Or.inr (@forwards _ [⟨.unlink path, true⟩] _ hfirst)⟩

-- ── credentials ───────────────────────────────────────────────────────────────

/-- Calls that need root. -/
def privileged : Op → Bool
  | .chown _ _ _ | .openWatchdog | .setTimeout _ | .setgroups | .setgid _ | .setuid _ => true
  | _ => false

/-- The credentials of a process. -/
structure Creds where
  uid : Nat
  gid : Nat
  groups : List Nat

/-- What a call does to them. -/
def Creds.after (c : Creds) : Call Op Ans → Creds
  | ⟨.setgroups, true⟩ => { c with groups := [] }
  | ⟨.setgid gid, true⟩ => { c with gid := gid }
  | ⟨.setuid uid, true⟩ => { c with uid := uid }
  | _ => c

/-- Calls that change them. -/
def changesCreds : Op → Bool
  | .setgroups | .setgid _ | .setuid _ => true
  | _ => false

/-- No call of the kind is made. -/
def Without (kind : Op → Bool) (calls : Calls) : Prop :=
  (calls.all fun x => !kind x.1) = true

theorem without_append {kind : Op → Bool} {calls calls' : Calls} :
    Without kind (calls ++ calls') ↔ Without kind calls ∧ Without kind calls' := by
  unfold Without
  rw [List.all_append, Bool.and_eq_true]

theorem Without.not_mem {kind : Op → Bool} {calls : Calls} (hno : Without kind calls)
    {x : Call Op Ans} (hx : x ∈ calls) : kind x.1 = false := by
  simpa using List.all_eq_true.mp hno x hx

/-- Other calls leave the credentials alone. -/
theorem foldl_after_without {calls : Calls} :
    ∀ (c : Creds), Without changesCreds calls → calls.foldl Creds.after c = c := by
  induction calls with
  | nil => exact fun _ _ => rfl
  | cons x calls ih =>
      intro c hno
      have hcall : c.after x = c := by
        have hop := hno.not_mem List.mem_cons_self
        obtain ⟨op, r⟩ := x
        cases op with
        | setgroups => exact Bool.noConfusion hop
        | setgid gid => exact Bool.noConfusion hop
        | setuid uid => exact Bool.noConfusion hop
        | _ => rfl
      rw [List.foldl_cons, hcall]
      exact ih c (without_append.mp (show Without changesCreds ([x] ++ calls) from hno)).2

/-- The calls in front of `setgroups`. -/
def firstCalls (x : Answers) (b : Broker) : Calls :=
  [⟨.socket, x.socket⟩, ⟨.timerfdCreate, x.timer⟩, ⟨.geteuid, x.euid⟩,
    ⟨.getpwnam x.options.serviceUser, some x.pw⟩, ⟨.lstat x.options.configFile, some x.st⟩,
    ⟨.parseConfig x.options.configFile, x.file⟩,
    ⟨.timerfdSettime (b.config.wdTimeoutS.tdiv 2), true⟩] ++
    (x.vacated ++ (socketCalls b.config.socketPath.chars x.pw (decide (x.euid = 0)) ++
      deviceCalls x.options.watchdogEnabled b.config))

/-- The calls behind `setuid`. -/
def lastCalls (x : Answers) (b : Broker) : Calls :=
  daemonCalls x.options.daemonize x.options.syslogFacility ++
    reportCalls x.options.watchdogEnabled b x.status

theorem startCalls_eq (x : Answers) (b : Broker) :
    x.startCalls b = firstCalls x b ++ (dropCalls (decide (x.euid = 0)) x.pw ++ lastCalls x b) := by
  simp only [Answers.startCalls, Answers.prepareCalls, firstCalls, lastCalls, List.cons_append,
    List.nil_append, List.append_assoc]

/-- The lines of the log are no calls of a kind without them. -/
theorem without_reportCalls {kind : Op → Bool} (hlog : ∀ p t, kind (.log p t) = false)
    (hstatus : kind .getBootStatus = false) (watchdog : Bool) (b : Broker)
    (status : Except (List Byte) (BitVec 32)) : Without kind (reportCalls watchdog b status) := by
  refine List.all_eq_true.mpr fun x hx => ?_
  rw [Bool.not_eq_true']
  rcases List.mem_cons.mp hx with rfl | hx
  · exact hlog _ _
  rcases List.mem_append.mp hx with hx | hx
  · unfold deviceLog at hx
    split at hx
    · simp only [List.mem_cons, List.not_mem_nil, or_false] at hx
      rcases hx with rfl | rfl | rfl
      · exact hlog _ _
      · exact hstatus
      · cases status <;> exact hlog _ _
    · obtain rfl := List.mem_singleton.mp hx
      exact hlog _ _
  · obtain ⟨c, -, rfl⟩ := List.mem_map.mp hx
    exact hlog _ _

theorem without_lastCalls (x : Answers) (b : Broker) : Without privileged (lastCalls x b) := by
  refine without_append.mpr ⟨?_, without_reportCalls (fun _ _ => rfl) rfl _ _ _⟩
  unfold daemonCalls
  cases x.options.daemonize <;> rfl

theorem without_firstCalls {x : Answers} {b : Broker}
    (hvac : Vacated b.config.socketPath.chars x.vacated) :
    Without changesCreds (firstCalls x b) := by
  refine without_append.mpr ⟨rfl, without_append.mpr ⟨?_, without_append.mpr ⟨?_, ?_⟩⟩⟩
  · generalize x.vacated = vacated at hvac
    cases hvac <;> rfl
  · unfold socketCalls
    cases decide (x.euid = 0) <;> rfl
  · unfold deviceCalls
    cases x.options.watchdogEnabled <;> rfl

theorem without_changesCreds {calls : Calls} (h : Without privileged calls) :
    Without changesCreds calls := by
  refine List.all_eq_true.mpr fun x hx => ?_
  have hop := h.not_mem hx
  obtain ⟨op, r⟩ := x
  cases op with
  | setgroups => exact Bool.noConfusion hop
  | setgid gid => exact Bool.noConfusion hop
  | setuid uid => exact Bool.noConfusion hop
  | _ => rfl

/-- What needs root is asked for as root. -/
theorem root_of_pre {h : Calls} {op : Op} (hpre : Pre h op) (hop : privileged op = true) :
    Root h := by
  cases op with
  | chown path uid gid => exact hpre
  | openWatchdog => exact hpre.1
  | setTimeout seconds => exact hpre.1
  | setgroups => exact hpre
  | setgid gid => exact hpre
  | setuid uid => exact hpre
  | _ => exact Bool.noConfusion hop

/-- `geteuid` is called once. -/
theorem geteuid_eq {x : Answers} {b : Broker}
    (hvac : Vacated b.config.socketPath.chars x.vacated) {euid : Nat}
    (hmem : ⟨.geteuid, euid⟩ ∈ x.startCalls b) : euid = x.euid := by
  let isGeteuid : Op → Bool := fun op => match op with
    | .geteuid => true
    | _ => false
  have hrest : Without isGeteuid (x.prepareCalls b (decide (x.euid = 0))) := by
    refine without_append.mpr ⟨rfl, without_append.mpr ⟨rfl, without_append.mpr ⟨rfl, ?_⟩⟩⟩
    show Without isGeteuid ([⟨.timerfdSettime (b.config.wdTimeoutS.tdiv 2), true⟩] ++ _)
    refine without_append.mpr ⟨rfl, without_append.mpr ⟨?_, without_append.mpr ⟨?_,
      without_append.mpr ⟨?_, without_append.mpr ⟨?_, without_append.mpr ⟨?_, ?_⟩⟩⟩⟩⟩⟩
    · generalize x.vacated = vacated at hvac
      cases hvac <;> rfl
    · unfold socketCalls
      cases decide (x.euid = 0) <;> rfl
    · unfold deviceCalls
      cases x.options.watchdogEnabled <;> rfl
    · unfold dropCalls
      cases decide (x.euid = 0) <;> rfl
    · unfold daemonCalls
      cases x.options.daemonize <;> rfl
    · exact without_reportCalls (fun _ _ => rfl) rfl _ _ _
  rcases List.mem_cons.mp hmem with heq | hmem
  · cases heq
  rcases List.mem_cons.mp hmem with heq | hmem
  · cases heq
  rcases List.mem_cons.mp hmem with heq | hmem
  · cases heq
    rfl
  · exact Bool.noConfusion (hrest.not_mem hmem)

/-- The credentials in the loop. -/
theorem creds_startCalls {x : Answers} {b : Broker}
    (hvac : Vacated b.config.socketPath.chars x.vacated) (c : Creds) :
    (x.startCalls b).foldl Creds.after c
      = if x.euid = 0 then ⟨x.pw.uid, x.pw.gid, []⟩ else c := by
  rw [startCalls_eq, List.foldl_append, List.foldl_append,
    foldl_after_without c (without_firstCalls hvac),
    foldl_after_without _ (without_changesCreds (without_lastCalls x b))]
  unfold dropCalls
  by_cases hroot : x.euid = 0
  · rw [if_pos hroot, decide_eq_true hroot]
    rfl
  · rw [if_neg hroot, decide_eq_false hroot]
    rfl

/-- **PRIVILEGES ARE DROPPED**: in every execution, a call that needs root is made only in
    a process that was started as root and has not called `setuid` yet; and where the loop
    is entered, the process does not run as root: its credentials are those it was started
    with, or, if these were root's, exactly those of the user that was looked up, without
    any supplementary group, and no call behind `setuid` has needed root. -/
theorem privileges_dropped (hexec : Exec (startUp d opts) calls e) :
    (∀ first op r rest, calls = first ++ ⟨op, r⟩ :: rest → privileged op = true →
      (⟨.geteuid, (0 : Nat)⟩ : Call Op Ans) ∈ first ∧ ∀ uid, ⟨.setuid uid, true⟩ ∉ first) ∧
    ∀ b watchdog, e = .done (b, watchdog) → ∀ c : Creds, ⟨.geteuid, c.uid⟩ ∈ calls →
      (calls.foldl Creds.after c).uid ≠ 0 ∧
      ((c.uid ≠ 0 ∧ calls.foldl Creds.after c = c) ∨
        ∃ user pw first rest, ⟨.getpwnam user, some pw⟩ ∈ calls ∧
          calls = first ++ ⟨.setuid pw.uid, true⟩ :: rest ∧ Without privileged rest ∧
          calls.foldl Creds.after c = ⟨pw.uid, pw.gid, []⟩) := by
  constructor
  · intro first op r rest hcalls hop
    obtain ⟨hstarted, hkept⟩ := root_of_pre (pre_of_exec hexec hcalls) hop
    exact ⟨List.mem_reverse.mp hstarted, fun uid hmem => hkept uid (List.mem_reverse.mpr hmem)⟩
  · rintro b watchdog rfl c hc
    obtain ⟨x, hx, -, rfl⟩ := exec_startUp.mp hexec
    have huid : c.uid = x.euid := geteuid_eq hx.vacated hc
    have hcreds := creds_startCalls hx.vacated c
    by_cases hroot : x.euid = 0
    · rw [if_pos hroot] at hcreds
      rw [hcreds]
      refine ⟨hx.user.notRoot, Or.inr ⟨x.options.serviceUser, x.pw,
        firstCalls x b ++ [⟨.setgroups, true⟩, ⟨.setgid x.pw.gid, true⟩], lastCalls x b, ?_, ?_,
        without_lastCalls x b, rfl⟩⟩
      · rw [startCalls_eq]
        exact List.mem_append_left _ (by simp [firstCalls])
      · rw [startCalls_eq, dropCalls, if_pos (decide_eq_true hroot), List.append_assoc]
        rfl
    · rw [if_neg hroot] at hcreds
      rw [hcreds, huid]
      exact ⟨hroot, Or.inl ⟨hroot, rfl⟩⟩

-- ── the device ────────────────────────────────────────────────────────────────

/-- **THE DEVICE COMES LAST**: in every execution, `/dev/watchdog` is opened right after
    the socket was bound, made to listen and given to the user; a process that ends with
    the device open ends because the timeout could not be set, privileges could not be
    dropped or the daemon could not be made, or as the daemon's parent. -/
theorem device_last (hexec : Exec (startUp d opts) calls e) :
    (∀ first r rest, calls = first ++ ⟨.openWatchdog, r⟩ :: rest →
      ∃ (path : List Byte) (pw : Passwd) (earlier : Calls),
        first = earlier ++ [⟨.bind path, .ok⟩, ⟨.listen 5, true⟩, ⟨.chmod path 432, true⟩,
          ⟨.chown path pw.uid pw.gid, true⟩]) ∧
    ∀ stop, e = .exited stop → ⟨.openWatchdog, true⟩ ∈ calls →
      (∃ why ∈ [Fatal.setTimeout, .setgroups, .setgid, .setuid, .fork, .setsid, .chdir],
        stop = .failure why) ∨
      (stop = .success ∧ ∃ earlier, calls = earlier ++ [⟨.fork, .parent⟩]) := by
  constructor
  · intro first r rest hcalls
    obtain ⟨-, path, pw, early, hfirst⟩ := pre_of_exec hexec hcalls
    refine ⟨path, pw, early.reverse, ?_⟩
    rw [forwards hfirst, List.reverse_reverse]
    rfl
  · rintro stop rfl hopen
    have hend := (safe_ends hexec (safe_startUp d opts)).2 stop rfl
    rw [List.append_nil] at hend
    rcases hend (List.mem_reverse.mpr hopen) with hlate | ⟨rfl, early, hcalls⟩
    · exact Or.inl hlate
    · exact Or.inr ⟨rfl, early.reverse, @forwards _ [⟨.fork, .parent⟩] _ hcalls⟩

-- ── a start as root ───────────────────────────────────────────────────────────

/-- The defaults of the package. -/
def package : Defaults := ⟨bytes "/etc/wd-broker.conf", bytes "wd-broker"⟩

/-- An empty configuration file, and a socket that was left behind. -/
def asRoot : Answers where
  socket := true
  timer := true
  euid := 0
  options := Options.init package
  pw := ⟨998, 998⟩
  st := ⟨.regular, 998, 416⟩
  file := ⟨some [], fun _ => Timespec.zero, fun _ => Vector.replicate 8 0⟩
  vacated := [⟨.lstat socketPathDefault, some ⟨.socket, 998, 432⟩⟩, ⟨.socket, true⟩,
    ⟨.connect socketPathDefault, .refused⟩, ⟨.close, ()⟩, ⟨.unlink socketPathDefault, true⟩]
  status := .ok 0

/-- The broker of an empty configuration file. -/
def emptyBroker : Broker := ⟨Table.zero, Parse.init.config, true, false⟩

theorem exec_asRoot :
    Exec (startUp package []) (asRoot.startCalls emptyBroker) (.done (emptyBroker, true)) :=
  exec_startUp.mpr ⟨asRoot, ⟨rfl, ⟨List.cons_ne_nil _ _, by decide, by decide⟩,
    ⟨rfl, rfl, rfl⟩, boot_empty, .stale rfl, fun _ => rfl⟩, rfl, rfl⟩

theorem config_trusted_root :
    ∃ user pw st earlier,
      (asRoot.startCalls emptyBroker).take 5
        = earlier ++ [⟨.getpwnam user, some pw⟩, ⟨.lstat (bytes "/etc/wd-broker.conf"), some st⟩] ∧
        user ≠ [] ∧ pw.uid ≠ 0 ∧ st.kind = .regular ∧ st.uid = pw.uid ∧ st.mode &&& 18 = 0 :=
  @config_trusted _ _ _ _ exec_asRoot _ ((asRoot.startCalls emptyBroker).drop 6)
    (bytes "/etc/wd-broker.conf") asRoot.file rfl

theorem only_stale_sockets_root :
    ∃ st earlier, (asRoot.startCalls emptyBroker).take 11
      = earlier ++ [⟨.lstat socketPathDefault, some st⟩, ⟨.socket, true⟩,
        ⟨.connect socketPathDefault, .refused⟩, ⟨.close, ()⟩] ∧ st.kind = .socket :=
  (only_stale_sockets exec_asRoot).1 _ socketPathDefault true
    ((asRoot.startCalls emptyBroker).drop 12) rfl

theorem privileges_dropped_root :
    ((asRoot.startCalls emptyBroker).foldl Creds.after ⟨0, 0, [27]⟩).uid ≠ 0 :=
  ((privileges_dropped exec_asRoot).2 _ _ rfl ⟨0, 0, [27]⟩
    (List.mem_cons_of_mem _ (List.mem_cons_of_mem _ List.mem_cons_self))).1

theorem device_last_root :
    ∃ (path : List Byte) (pw : Passwd) (earlier : Calls),
      (asRoot.startCalls emptyBroker).take 16
        = earlier ++ [⟨.bind path, .ok⟩, ⟨.listen 5, true⟩, ⟨.chmod path 432, true⟩,
          ⟨.chown path pw.uid pw.gid, true⟩] :=
  (device_last exec_asRoot).1 _ true ((asRoot.startCalls emptyBroker).drop 17) rfl

end WdPrivilege
