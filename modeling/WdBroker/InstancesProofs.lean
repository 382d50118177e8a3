import WdBroker.PrivilegeProofs

/-! # Several brokers on one socket path

    A starting broker probes the socket path, removes what nobody listens on, binds and
    listens, and none of this is atomic: several may start at once, and each may die at
    any point.  Here is any number of them around one path, in any order of steps.

    * `takeover_overlaps` — a broker that loses its socket to a starting one began to
      listen after that one had probed the path;
    * `one_broker` — where start-ups do not overlap, and a broker whose reset was pending
      is not terminated later, the broker that serves keeps its socket, and there is one. -/

namespace WdInstances

open CString WdTable WdReach WdCommand Program Prog WdStartUp

-- ── one start-up ──────────────────────────────────────────────────────────────

/-- How far a start-up has come with its socket. -/
inductive Phase where
  | looking
  | probed (path : List Byte)
  | bound (path : List Byte)
  | listening (path : List Byte)
deriving DecidableEq

def Phase.after : Phase → Call Op Ans → Phase
  | .looking, ⟨.connect path, .refused⟩ => .probed path
  | .probed _, ⟨.unlink _, _⟩ => .looking
  | .looking, ⟨.bind path, .ok⟩ => .bound path
  | .bound path, ⟨.listen _, true⟩ => .listening path
  | phase, _ => phase

def phaseOf (calls : Calls) : Phase := calls.foldl Phase.after .looking

/-- In which phase a call is made. -/
def InPhase (phase : Phase) : Op → Prop
  | .connect _ | .bind _ => phase = .looking
  | .unlink path => phase = .probed path
  | .listen _ => ∃ path, phase = .bound path
  | _ => True

/-- Calls that have nothing to do with the socket. -/
def Apart : Op → Prop
  | .connect _ | .bind _ | .unlink _ | .listen _ => False
  | _ => True

theorem phaseOf_snoc (calls : Calls) (c : Call Op Ans) :
    phaseOf (calls ++ [c]) = (phaseOf calls).after c := by
  unfold phaseOf
  rw [List.foldl_append]
  rfl

theorem after_apart {phase : Phase} {op : Op} {r : Ans op} (hop : Apart op) :
    phase.after ⟨op, r⟩ = phase := by
  cases op <;> first | exact hop.elim | cases phase <;> rfl

/-- The circumstances of a call, looking back. -/
def Pre (h : Calls) (op : Op) : Prop := InPhase (phaseOf h.reverse) op

def At (phase : Phase) (h : Calls) : Prop := phaseOf h.reverse = phase

variable {h : Calls} {phase : Phase} {path : List Byte}

theorem At.cons {c : Call Op Ans} (hat : At phase h) : At (phase.after c) (c :: h) := by
  unfold At
  rw [List.reverse_cons, phaseOf_snoc, hat]

/-- A part of `main` that has nothing to do with the socket. -/
theorem safe_apart {α : Type} {p : StartUp α} (hp : Only Apart p) (hat : At phase h) :
    Safe Pre (fun h _ => At phase h) (fun _ _ => True) h p := by
  refine safe_of_only (fun h op _ hop => ?_) (fun h op r hat hop => ?_)
    (fun _ _ _ => trivial) hp hat
  · unfold Pre
    cases op <;> first | exact hop.elim | trivial
  · have hnext := @At.cons h phase ⟨op, r⟩ hat
    rwa [after_apart hop] at hnext

theorem only_demand {op : Op} {hb : Ans op = Bool} {why : Fatal} (hop : Apart op) :
    Only Apart (demand op hb why) :=
  only_bind (only_ask hop) fun _ => only_guard

theorem only_checkUser (user : List Byte) : Only Apart (checkUser user) := by
  refine only_bind (only_ask trivial) fun found => only_bind only_guard fun _ => ?_
  cases found with
  | none => trivial
  | some pw => exact only_bind only_guard fun _ => trivial

theorem only_checkConfigFile (path user : List Byte) (pw : Passwd) :
    Only Apart (checkConfigFile path user pw) := by
  refine only_bind (only_ask trivial) fun found => ?_
  cases found with
  | none => trivial
  | some st =>
      exact only_bind only_guard fun _ => only_bind only_guard fun _ =>
        only_bind only_guard fun _ => only_guard

theorem only_readConfig (path : List Byte) : Only Apart (readConfig path) := by
  refine only_bind (only_ask trivial) fun file => ?_
  split <;> trivial

theorem only_openDevice (enabled startedAsRoot : Bool) (config : Config) :
    Only Apart (openDevice enabled startedAsRoot config) := by
  unfold openDevice
  cases enabled with
  | false => trivial
  | true =>
      exact only_bind only_guard fun _ => only_bind (only_demand trivial) fun _ =>
        only_bind (only_ask trivial) fun _ => only_bind (only_demand trivial) fun _ => trivial

theorem only_dropPrivileges (startedAsRoot : Bool) (pw : Passwd) :
    Only Apart (dropPrivileges startedAsRoot pw) := by
  unfold dropPrivileges
  cases startedAsRoot with
  | false => trivial
  | true =>
      exact only_bind (only_demand trivial) fun _ => only_bind (only_demand trivial) fun _ =>
        only_demand trivial

theorem only_becomeDaemon (daemonize : Bool) (facility : Facility) :
    Only Apart (becomeDaemon daemonize facility) := by
  unfold becomeDaemon
  cases daemonize with
  | false => trivial
  | true =>
      refine only_bind (only_ask trivial) fun pid => ?_
      cases pid with
      | failed => trivial
      | parent => trivial
      | child =>
          exact only_bind (only_demand trivial) fun _ => only_bind (only_demand trivial) fun _ =>
            only_ask trivial

theorem only_report (watchdog : Bool) (b : Broker) : Only Apart (report watchdog b) := by
  have hann : ∀ cs : List Client, Only Apart (logAnnounced cs) := by
    intro cs
    induction cs with
    | nil => trivial
    | cons c cs ih =>
        rw [logAnnounced]
        split
        · exact only_bind (only_ask trivial) fun _ => ih
        · trivial
  refine only_bind (only_ask trivial) fun _ => only_bind ?_ fun _ => hann _
  unfold logDevice
  cases watchdog with
  | false => exact only_ask trivial
  | true =>
      refine only_bind (only_ask trivial) fun _ => only_bind (only_ask trivial) fun status => ?_
      cases status <;> exact only_ask trivial

/-- The probe leaves a path that can be bound. -/
theorem safe_probeSocket (hat : At .looking h) :
    Safe Pre (fun h _ => At .looking h) (fun _ _ => True) h (probeSocket path) := by
  refine safe_bind.mpr (safe_ask.mpr ⟨trivial, fun found => ?_⟩)
  have hat₁ := @At.cons h _ ⟨.lstat path, found⟩ hat
  cases found with
  | none => exact hat₁
  | some st =>
      refine safe_bind.mpr (safe_guard.mpr ⟨fun _ => ?_, fun _ => trivial⟩)
      have hprobe := safe_apart (@only_demand .socket rfl .probeSocket trivial) hat₁
      refine safe_bind.mpr (hprobe.mono fun h _ hat₂ => ?_)
      refine safe_bind.mpr (safe_ask.mpr ⟨hat₂, fun r => ?_⟩)
      refine safe_bind.mpr (safe_ask.mpr ⟨trivial, fun _ => ?_⟩)
      have hat₃ := @At.cons _ _ ⟨.close, ()⟩ (@At.cons h _ ⟨.connect path, r⟩ hat₂)
      cases r with
      | accepted => trivial
      | failed => trivial
      | refused =>
          refine safe_bind.mpr (safe_ask.mpr ⟨hat₃, fun removed => ?_⟩)
          exact safe_guard.mpr ⟨fun _ => hat₃.cons, fun _ => trivial⟩

/-- It is bound, and then the broker listens. -/
theorem safe_openSocket {pw : Passwd} {startedAsRoot : Bool} (hat : At .looking h) :
    Safe Pre (fun h _ => At (.listening path) h) (fun _ _ => True) h
      (openSocket path pw startedAsRoot) := by
  refine safe_bind.mpr (safe_ask.mpr ⟨hat, fun r => ?_⟩)
  have hat₁ := @At.cons h _ ⟨.bind path, r⟩ hat
  cases r with
  | eacces => trivial
  | failed => trivial
  | ok =>
      refine safe_bind.mpr (safe_bind.mpr (safe_ask.mpr ⟨⟨path, hat₁⟩, fun listens => ?_⟩))
      refine safe_guard.mpr ⟨fun hlistens => ?_, fun _ => trivial⟩
      have hat₂ := @At.cons _ _ ⟨.listen 5, listens⟩ hat₁
      rw [show listens = true from hlistens] at hat₂ ⊢
      have hchmod := safe_apart (@only_demand (.chmod path 432) rfl .chmod trivial) hat₂
      refine safe_bind.mpr (hchmod.mono fun h _ hat₃ => ?_)
      cases startedAsRoot with
      | false => exact hat₃
      | true => exact safe_apart (only_demand trivial) hat₃

/-- **ONE START-UP**: the calls around the socket come in this order, and a broker that
    gets to its loop listens on its own path. -/
theorem safe_startUp (d : Defaults) (opts : List Opt) :
    Safe Pre (fun h a => At (.listening a.1.config.socketPath.chars) h) (fun _ _ => True) []
      (startUp d opts) := by
  unfold startUp
  refine safe_bind.mpr (safe_ask.mpr ⟨trivial, fun socket => ?_⟩)
  refine safe_bind.mpr (safe_ask.mpr ⟨trivial, fun timer => ?_⟩)
  refine safe_bind.mpr (safe_ask.mpr ⟨trivial, fun euid => ?_⟩)
  have hat : At .looking [⟨.geteuid, euid⟩, ⟨.timerfdCreate, timer⟩, ⟨.socket, socket⟩] := rfl
  split
  · trivial
  next o _ =>
  refine safe_bind.mpr ((safe_apart (only_checkUser _) hat).mono fun h pw hat => ?_)
  refine safe_bind.mpr ((safe_apart (only_checkConfigFile _ _ _) hat).mono fun h _ hat => ?_)
  refine safe_bind.mpr ((safe_apart (only_readConfig _) hat).mono fun h b hat => ?_)
  refine safe_bind.mpr ((safe_apart (@only_demand (.timerfdSettime _) _ _ trivial) hat).mono
    fun h _ hat => ?_)
  refine safe_bind.mpr ((safe_probeSocket hat).mono fun h _ hat => ?_)
  refine safe_bind.mpr ((safe_openSocket hat).mono fun h _ hat => ?_)
  refine safe_bind.mpr ((safe_apart (only_openDevice _ _ _) hat).mono fun h _ hat => ?_)
  refine safe_bind.mpr ((safe_apart (only_dropPrivileges _ _) hat).mono fun h _ hat => ?_)
  refine safe_bind.mpr ((safe_apart (only_becomeDaemon _ _) hat).mono fun h _ hat => ?_)
  exact safe_bind.mpr ((safe_apart (only_report _ _) hat).mono fun h _ hat => hat)

-- ── many of them ──────────────────────────────────────────────────────────────

/-- What can be at the path. -/
inductive Place where
  | other
  | socketOf (n : Nat)
deriving DecidableEq

/-- What a broker does: a call of its start-up; the `unlink` behind its loop, which is
    made twice if its reset was pending; and its end, at any time.  A daemon goes on as
    the child that it makes. -/
inductive Act where
  | call (c : Call Op Ans)
  | leave (path : List Byte) (removed : Bool)
  | die

abbrev History := List (Nat × Act)

/-- The path, and who listens on the socket that it has made. -/
structure World where
  place : Option Place
  listening : Nat → Bool

variable (path : List Byte)

/-- What the kernel does with the path. -/
def placeAfter (place : Option Place) (n : Nat) : Act → Option Place
  | .call ⟨.bind p, .ok⟩ => if p = path then some (.socketOf n) else place
  | .call ⟨.unlink p, true⟩ => if p = path then none else place
  | .leave p true => if p = path then none else place
  | _ => place

def listensAfter (listens : Bool) : Act → Bool
  | .call ⟨.listen _, true⟩ => true
  | .die => false
  | _ => listens

def World.after (w : World) (e : Nat × Act) : World where
  place := placeAfter path w.place e.1 e.2
  listening m := if m = e.1 then listensAfter (w.listening m) e.2 else w.listening m

/-- What the kernel promises: only a socket that somebody listens on accepts, one that
    nobody listens on refuses, and what is there cannot be bound. -/
def KernelOk (w : World) : Nat × Act → Prop
  | (_, .call ⟨.connect p, .accepted⟩) =>
      p = path → ∃ m, w.place = some (.socketOf m) ∧ w.listening m = true
  | (_, .call ⟨.connect p, .refused⟩) =>
      p = path → ∀ m, w.place = some (.socketOf m) → w.listening m = false
  | (_, .call ⟨.bind p, .ok⟩) => p = path → w.place = none
  | _ => True

/-- The calls of one broker. -/
def callsOf (n : Nat) : History → Calls
  | [] => []
  | (m, .call c) :: es => if m = n then c :: callsOf n es else callsOf n es
  | _ :: es => callsOf n es

/-- Everybody runs this program: `start` are the defaults and options of each. -/
structure Lives (start : Nat → Defaults × List Opt) (es : History) : Prop where
  startUp : ∀ n, Exec (startUp (start n).1 (start n).2) (callsOf n es) .running
  leave : ∀ xs n p r ys, es = xs ++ (n, .leave p r) :: ys → ∃ b watchdog,
    Exec (WdStartUp.startUp (start n).1 (start n).2) (callsOf n xs) (.done (b, watchdog)) ∧
      p = b.config.socketPath.chars
  die : ∀ xs n ys, es = xs ++ (n, .die) :: ys → ∀ act, (n, act) ∉ ys

/-- How far broker `n` has come with its socket. -/
def progress (n : Nat) (es : History) : Phase := phaseOf (callsOf n es)

def Phase.step : Phase → Act → Phase
  | phase, .call c => phase.after c
  | phase, _ => phase

/-- The world behind a history that starts with nobody running. -/
def worldAfter (place : Option Place) (es : History) : World :=
  Machine.run (World.after path) ⟨place, fun _ => false⟩ es

variable {path} {place : Option Place} {start : Nat → Defaults × List Opt} {es xs ys : History}
  {n m : Nat} {act : Act} {w : World}

theorem callsOf_append (n : Nat) (xs ys : History) :
    callsOf n (xs ++ ys) = callsOf n xs ++ callsOf n ys := by
  induction xs with
  | nil => rfl
  | cons e xs ih =>
      obtain ⟨m, act⟩ := e
      cases act with
      | call c =>
          by_cases hm : m = n
          · rw [List.cons_append, callsOf, callsOf, if_pos hm, if_pos hm, ih, List.cons_append]
          · rw [List.cons_append, callsOf, callsOf, if_neg hm, if_neg hm, ih]
      | leave p r => exact ih
      | die => exact ih

theorem progress_same (xs : History) (n : Nat) (act : Act) :
    progress n (xs ++ [(n, act)]) = (progress n xs).step act := by
  unfold progress
  rw [callsOf_append]
  cases act with
  | call c =>
      rw [show callsOf n [(n, .call c)] = [c] by rw [callsOf, if_pos rfl]; rfl]
      exact phaseOf_snoc _ c
  | leave p r => rw [show callsOf n [(n, .leave p r)] = [] from rfl, List.append_nil]; rfl
  | die => rw [show callsOf n [(n, .die)] = [] from rfl, List.append_nil]; rfl

theorem progress_ne (xs : History) (act : Act) (h : m ≠ n) :
    progress m (xs ++ [(n, act)]) = progress m xs := by
  unfold progress
  rw [callsOf_append]
  cases act with
  | call c =>
      rw [show callsOf m [(n, .call c)] = [] by rw [callsOf, if_neg h.symm]; rfl, List.append_nil]
  | leave p r => rw [show callsOf m [(n, .leave p r)] = [] from rfl, List.append_nil]
  | die => rw [show callsOf m [(n, .die)] = [] from rfl, List.append_nil]

theorem worldAfter_snoc (xs : History) (e : Nat × Act) :
    worldAfter path place (xs ++ [e]) = (worldAfter path place xs).after path e :=
  Machine.run_snoc _ _ xs e

/-- A call is made in its phase. -/
theorem Lives.inPhase {c : Call Op Ans} (h : Lives start es)
    (hsplit : es = xs ++ (n, .call c) :: ys) : InPhase (progress n xs) c.1 := by
  have hcalls : callsOf n es = callsOf n xs ++ ⟨c.1, c.2⟩ :: callsOf n ys := by
    rw [hsplit, callsOf_append, callsOf, if_pos rfl]
  have hpre := safe_calls (h.startUp n) (safe_startUp _ _) _ _ _ _ hcalls
  rwa [List.append_nil, Pre, List.reverse_reverse] at hpre

/-- A broker that leaves its loop has listened on this path. -/
theorem Lives.leaving {p : List Byte} {r : Bool} (h : Lives start es)
    (hsplit : es = xs ++ (n, .leave p r) :: ys) : progress n xs = .listening p := by
  obtain ⟨b, watchdog, hexec, rfl⟩ := h.leave xs n p r ys hsplit
  have hpost := (safe_ends hexec (safe_startUp _ _)).1 _ rfl
  rwa [List.append_nil, At, List.reverse_reverse] at hpost

/-- A socket gets to the path by a `bind`. -/
theorem place_after (h : (w.after path (n, act)).place = some (.socketOf m)) :
    w.place = some (.socketOf m) ∨ (n = m ∧ act = .call ⟨.bind path, .ok⟩) := by
  unfold World.after placeAfter at h
  dsimp only at h
  split at h
  · split at h
    · next p hp =>
      obtain rfl := hp
      exact Or.inr ⟨Place.socketOf.inj (Option.some.inj h), rfl⟩
    · exact Or.inl h
  · split at h
    · cases h
    · exact Or.inl h
  · split at h
    · cases h
    · exact Or.inl h
  · exact Or.inl h

/-- A broker begins to listen by a `listen`. -/
theorem listening_after (h : (w.after path (n, act)).listening m = true) :
    w.listening m = true ∨ (n = m ∧ ∃ k, act = .call ⟨.listen k, true⟩) := by
  unfold World.after at h
  dsimp only at h
  split at h
  · next heq =>
    unfold listensAfter at h
    split at h
    · next k => exact Or.inr ⟨heq.symm, k, rfl⟩
    · cases h
    · exact Or.inl h
  · exact Or.inl h

/-- Whoever listens has come to the end of its way to the socket. -/
theorem listening_phase (hlives : Lives start es) (xs : History) :
    ∀ ys, es = xs ++ ys → ∀ n, (worldAfter path place xs).listening n = true →
      ∃ p, progress n xs = .listening p := by
  refine Machine.split_induction (P := fun xs _ => ∀ n,
    (worldAfter path place xs).listening n = true → ∃ p, progress n xs = .listening p)
    (fun n h => nomatch h) (fun xs e ys hsplit ih n h => ?_) xs
  obtain ⟨m, act⟩ := e
  rw [worldAfter_snoc] at h
  rcases listening_after h with hold | ⟨rfl, k, rfl⟩
  · obtain ⟨p, hp⟩ := ih n hold
    by_cases hn : n = m
    · subst hn
      rw [progress_same, hp]
      cases act <;> exact ⟨p, rfl⟩
    · rw [progress_ne xs act hn]
      exact ⟨p, hp⟩
  · obtain ⟨p, hp⟩ := hlives.inPhase hsplit
    rw [progress_same, hp]
    exact ⟨p, rfl⟩

-- ── who can lose a socket to whom ─────────────────────────────────────────────

/-- A broker gets to the other side of a probe only by a refused connection. -/
theorem probed_step {ph : Phase} (h : ph.step act = .probed path) :
    ph = .probed path ∨ act = .call ⟨.connect path, .refused⟩ := by
  cases act with
  | leave p r => exact Or.inl h
  | die => exact Or.inl h
  | call c =>
      have hafter : ph.after c = .probed path := h
      unfold Phase.after at hafter
      split at hafter
      · obtain rfl := Phase.probed.inj hafter
        exact Or.inr rfl
      · cases hafter
      · cases hafter
      · cases hafter
      · exact Or.inl hafter

/-- The broker has been refused, and whoever listens at the path now began to after that. -/
def ProbedBefore (path : List Byte) (place : Option Place) (n : Nat) (xs : History) : Prop :=
  ∃ us vs, xs = us ++ (n, .call ⟨.connect path, .refused⟩) :: vs ∧
    ∀ m, (worldAfter path place xs).place = some (.socketOf m) →
      (worldAfter path place xs).listening m = true → ∃ k, (m, .call ⟨.listen k, true⟩) ∈ vs

/-- A probe stays in front of every `listen` that comes later. -/
theorem ProbedBefore.snoc (hlives : Lives start es) {e : Nat × Act} (hsplit : es = xs ++ e :: ys)
    (h : ProbedBefore path place n xs) : ProbedBefore path place n (xs ++ [e]) := by
  obtain ⟨us, vs, rfl, hlater⟩ := h
  obtain ⟨l, act⟩ := e
  refine ⟨us, vs ++ [(l, act)], by rw [List.append_assoc]; rfl, fun m hplace hlistens => ?_⟩
  rw [worldAfter_snoc] at hplace hlistens
  rcases listening_after hlistens with hlistened | ⟨rfl, k, rfl⟩
  · rcases place_after hplace with hplaced | ⟨rfl, rfl⟩
    · obtain ⟨k, hk⟩ := hlater m hplaced hlistened
      exact ⟨k, List.mem_append_left _ hk⟩
    · -- who binds now cannot have listened before
      obtain ⟨p, hp⟩ := listening_phase hlives _ _ hsplit l hlistened
      have hphase : progress l _ = .looking := hlives.inPhase hsplit
      exact nomatch hp.symm.trans hphase
  · exact ⟨k, List.mem_append_right _ List.mem_cons_self⟩

theorem probedBefore (hlives : Lives start es)
    (hkernel : Machine.Admissible (KernelOk path) (World.after path) ⟨place, fun _ => false⟩ es)
    (xs : History) : ∀ ys, es = xs ++ ys → ∀ n, progress n xs = .probed path →
      ProbedBefore path place n xs := by
  refine Machine.split_induction (P := fun xs _ => ∀ n, progress n xs = .probed path →
    ProbedBefore path place n xs) (fun n h => nomatch h) (fun xs e ys hsplit ih n h => ?_) xs
  obtain ⟨m, act⟩ := e
  by_cases hn : n = m
  · subst hn
    rw [progress_same] at h
    rcases probed_step h with hprobed | rfl
    · exact (ih n hprobed).snoc hlives hsplit
    · -- at the probe nobody listened there
      refine ⟨xs, [], rfl, fun l hplace hlistens => ?_⟩
      have hrefused := Machine.admissible_iff.mp hkernel xs _ ys hsplit rfl l
      rw [worldAfter_snoc] at hplace hlistens
      rcases listening_after hlistens with hlistened | ⟨rfl, k, hk⟩
      · rcases place_after hplace with hplaced | ⟨rfl, hk⟩
        · have hno : (worldAfter path place xs).listening l = false := hrefused hplaced
          rw [hno] at hlistened
          exact Bool.noConfusion hlistened
        · cases hk
      · cases hk
  · rw [progress_ne xs act hn] at h
    exact (ih n h).snoc hlives hsplit

/-- **TAKEOVERS OVERLAP**: any number of brokers, each at any point of its life, in any
    order of steps, on a path with anything on it at first: where a starting broker
    removes the socket of one that listens, that one began to listen after the other had
    probed the path and been refused. -/
theorem takeover_overlaps (hlives : Lives start es)
    (hkernel : Machine.Admissible (KernelOk path) (World.after path) ⟨place, fun _ => false⟩ es)
    (hremoves : es = xs ++ (n, .call ⟨.unlink path, true⟩) :: ys)
    (hplace : (worldAfter path place xs).place = some (.socketOf m))
    (hlistens : (worldAfter path place xs).listening m = true) :
    ∃ us vs k, xs = us ++ (n, .call ⟨.connect path, .refused⟩) :: vs ∧
      (m, .call ⟨.listen k, true⟩) ∈ vs := by
  have hprobed : progress n xs = .probed path := hlives.inPhase hremoves
  obtain ⟨us, vs, hxs, hlater⟩ := probedBefore hlives hkernel xs _ hremoves n hprobed
  obtain ⟨k, hk⟩ := hlater m hplace hlistens
  exact ⟨us, vs, k, hxs, hk⟩

-- ── two starts as root ────────────────────────────────────────────────────────

/-- The history of a broker that gets these answers. -/
def starts (n : Nat) (calls : Calls) : History := calls.map fun c => (n, .call c)

theorem callsOf_starts (n : Nat) (calls : Calls) : callsOf n (starts n calls) = calls := by
  induction calls with
  | nil => rfl
  | cons c calls ih =>
      show callsOf n ((n, .call c) :: starts n calls) = c :: calls
      rw [callsOf, if_pos rfl, ih]

theorem callsOf_starts_ne {calls : Calls} (h : m ≠ n) : callsOf n (starts m calls) = [] := by
  induction calls with
  | nil => rfl
  | cons c calls ih =>
      show callsOf n ((m, .call c) :: starts m calls) = []
      rw [callsOf, if_neg h, ih]

/-- Brokers that are not terminated. -/
theorem lives_of_calls (hcalls : ∀ e ∈ es, ∃ c, e.2 = .call c)
    (hstart : ∀ n, Exec (startUp (start n).1 (start n).2) (callsOf n es) .running) :
    Lives start es where
  startUp := hstart
  leave xs n p r ys hsplit := by
    obtain ⟨c, hc⟩ := hcalls (n, .leave p r) (hsplit ▸ List.mem_append_right _ List.mem_cons_self)
    exact nomatch hc
  die xs n ys hsplit := by
    obtain ⟨c, hc⟩ := hcalls (n, .die) (hsplit ▸ List.mem_append_right _ List.mem_cons_self)
    exact nomatch hc

open WdPrivilege WdConfig

/-- A start as root on a socket that was left behind. -/
def rootCalls : Calls := asRoot.startCalls emptyBroker

theorem starts_call (n : Nat) (calls : Calls) : ∀ e ∈ starts n calls, ∃ c, e.2 = .call c :=
  List.forall_mem_map.mpr fun c _ => ⟨c, rfl⟩

/-- Broker 0 stops between its probe and its `unlink`, and broker 1 starts meanwhile. -/
def race : History := starts 0 (rootCalls.take 11) ++ starts 1 rootCalls

def takenOver : History := race ++ starts 0 [⟨.unlink socketPathDefault, true⟩]

theorem race_lives : Lives (fun _ => (package, [])) takenOver := by
  refine lives_of_calls (List.forall_mem_append.mpr ⟨List.forall_mem_append.mpr
    ⟨starts_call _ _, starts_call _ _⟩, starts_call _ _⟩) fun n => ?_
  unfold takenOver race
  rw [callsOf_append, callsOf_append]
  match n with
  | 0 =>
      rw [callsOf_starts, callsOf_starts_ne Nat.one_ne_zero, callsOf_starts]
      have hexec : Exec (startUp package []) (rootCalls.take 11 ++
          ⟨.unlink socketPathDefault, true⟩ :: rootCalls.drop 12) (.done (emptyBroker, true)) :=
        exec_asRoot
      exact exec_until true hexec
  | 1 =>
      rw [callsOf_starts_ne Nat.zero_ne_one, callsOf_starts, callsOf_starts_ne Nat.zero_ne_one]
      rw [List.nil_append, List.append_nil]
      exact exec_running exec_asRoot
  | n + 2 =>
      rw [callsOf_starts_ne (Nat.zero_ne_add_one _), callsOf_starts_ne (by omega),
        callsOf_starts_ne (Nat.zero_ne_add_one _)]
      exact .stop _

theorem kernelOk_refused {k : Nat} (hplace : w.place = some (.socketOf k))
    (hlistens : w.listening k = false) :
    KernelOk path w (n, .call ⟨.connect path, .refused⟩) := by
  intro _ m hm
  obtain rfl := Place.socketOf.inj (Option.some.inj (hplace.symm.trans hm))
  exact hlistens

theorem race_admissible : Machine.Admissible (KernelOk socketPathDefault)
    (World.after socketPathDefault) ⟨some (.socketOf 99), fun _ => false⟩ takenOver := by
  unfold takenOver race starts
  repeat' constructor
  · exact kernelOk_refused (k := 99) rfl rfl
  · exact kernelOk_refused (k := 99) rfl rfl
  · exact fun _ => rfl

theorem takeover_overlaps_race : ∃ us vs k,
    race = us ++ (0, .call ⟨.connect socketPathDefault, .refused⟩) :: vs ∧
      (1, .call ⟨.listen k, true⟩) ∈ vs := by
  have hremoves : takenOver = race ++ (0, .call ⟨.unlink socketPathDefault, true⟩) :: [] := rfl
  exact takeover_overlaps race_lives race_admissible hremoves rfl rfl

-- ── one start-up at a time ────────────────────────────────────────────────────

/-- At every call of a start-up, the others have not begun theirs or are through. -/
def Serial (es : History) : Prop :=
  ∀ xs n c ys, es = xs ++ (n, .call c) :: ys →
    ∀ m, m ≠ n → callsOf m xs = [] ∨ callsOf m ys = []

/-- No broker removes its socket a second time. -/
def LeavesOnce (es : History) : Prop :=
  ∀ xs n p r ys, es = xs ++ (n, .leave p r) :: ys → ∀ p' r', (n, .leave p' r') ∉ xs

/-- The broker has come to listen on the path, and has not left its loop. -/
structure Serves (path : List Byte) (n : Nat) (xs : History) : Prop where
  listens : progress n xs = .listening path
  stays : ∀ p r, (n, .leave p r) ∉ xs
  lives : (n, .die) ∉ xs

/-- The broker has bound the path and goes on to listen, or has come to. -/
structure Holds (path : List Byte) (n : Nat) (xs ys : History) : Prop where
  stays : ∀ p r, (n, .leave p r) ∉ xs
  lives : (n, .die) ∉ xs
  has : progress n xs = .listening path ∨ (progress n xs = .bound path ∧ callsOf n ys ≠ [])

/-- Nobody listens on the socket at the path. -/
def Deserted (w : World) : Prop :=
  ∀ m, w.place = some (.socketOf m) → w.listening m ≠ true

theorem bound_step {ph : Phase} (h : ph.step act = .bound path) :
    ph = .bound path ∨ act = .call ⟨.bind path, .ok⟩ := by
  cases act with
  | leave p r => exact Or.inl h
  | die => exact Or.inl h
  | call c =>
      have hafter : ph.after c = .bound path := h
      unfold Phase.after at hafter
      split at hafter
      · cases hafter
      · cases hafter
      · obtain rfl := Phase.bound.inj hafter
        exact Or.inr rfl
      · cases hafter
      · exact Or.inl hafter

theorem listening_step {ph : Phase} (h : ph.step act = .listening path) :
    ph = .listening path ∨ (ph = .bound path ∧ ∃ k, act = .call ⟨.listen k, true⟩) := by
  cases act with
  | leave p r => exact Or.inl h
  | die => exact Or.inl h
  | call c =>
      have hafter : ph.after c = .listening path := h
      unfold Phase.after at hafter
      split at hafter
      · cases hafter
      · cases hafter
      · cases hafter
      · next k =>
        obtain rfl := Phase.listening.inj hafter
        exact Or.inr ⟨rfl, k, rfl⟩
      · exact Or.inl hafter

/-- A listener stops only by its end. -/
theorem stays_listening (hlistens : w.listening n = true) (hact : (m, act) ≠ (n, .die)) :
    (w.after path (m, act)).listening n = true := by
  unfold World.after
  dsimp only
  split
  · next heq =>
    unfold listensAfter
    split
    · rfl
    · exact absurd (by rw [heq]) hact
    · exact hlistens
  · exact hlistens

/-- What is at the path is lost only by an `unlink`, and replaced only by a `bind`. -/
theorem place_stays {q : Place} (hplace : w.place = some q)
    (hbind : act ≠ .call ⟨.bind path, .ok⟩) (hunlink : act ≠ .call ⟨.unlink path, true⟩)
    (hleave : act ≠ .leave path true) : (w.after path (n, act)).place = some q := by
  show placeAfter path w.place n act = some q
  unfold placeAfter
  split
  · split
    · next p hp => exact absurd (by rw [hp]) hbind
    · exact hplace
  · split
    · next p hp => exact absurd (by rw [hp]) hunlink
    · exact hplace
  · split
    · next p hp => exact absurd (by rw [hp]) hleave
    · exact hplace
  · exact hplace

theorem Deserted.after (h : Deserted w) (hbind : act ≠ .call ⟨.bind path, .ok⟩)
    (hlisten : ∀ k, act ≠ .call ⟨.listen k, true⟩) : Deserted (w.after path (n, act)) := by
  intro m hplace hlistens
  rcases place_after hplace with hplaced | ⟨-, rfl⟩
  · rcases listening_after hlistens with hlistened | ⟨-, k, rfl⟩
    · exact h m hplaced hlistened
    · exact hlisten k rfl
  · exact hbind rfl

theorem callsOf_cons_ne {e : Nat × Act} (h : callsOf n ys ≠ []) : callsOf n (e :: ys) ≠ [] := by
  rw [← List.singleton_append, callsOf_append]
  exact List.append_ne_nil_of_right_ne_nil _ h

theorem callsOf_call (n : Nat) (c : Call Op Ans) (ys : History) :
    callsOf n ((n, .call c) :: ys) = c :: callsOf n ys := by
  rw [callsOf, if_pos rfl]

/-- A broker that has come to listen does so until its end. -/
theorem listens_until_end (xs : History) :
    ∀ ys, es = xs ++ ys → ∀ n p, progress n xs = .listening p → (n, .die) ∉ xs →
      (worldAfter path place xs).listening n = true := by
  refine Machine.split_induction (P := fun xs _ => ∀ n p, progress n xs = .listening p →
    (n, .die) ∉ xs → (worldAfter path place xs).listening n = true)
    (fun n p h => nomatch h) (fun xs e ys hsplit ih n p h hlive => ?_) xs
  obtain ⟨m, act⟩ := e
  have hbefore : (n, .die) ∉ xs := fun hmem => hlive (List.mem_append_left _ hmem)
  have hact : (m, act) ≠ (n, .die) := fun heq =>
    hlive (List.mem_append_right _ (heq ▸ List.mem_cons_self))
  rw [worldAfter_snoc]
  by_cases hn : n = m
  · subst hn
    rw [progress_same] at h
    rcases listening_step h with hlistened | ⟨-, k, rfl⟩
    · exact stays_listening (ih n p hlistened hbefore) hact
    · show (if n = n then true else _) = true
      exact if_pos rfl
  · rw [progress_ne xs act hn] at h
    exact stays_listening (ih n p h hbefore) hact

/-- From the probe to the `unlink`, the socket stays deserted. -/
theorem stays_deserted (hlives : Lives start es)
    (hkernel : Machine.Admissible (KernelOk path) (World.after path) ⟨place, fun _ => false⟩ es)
    (hserial : Serial es) (xs : History) : ∀ ys, es = xs ++ ys → ∀ n,
      progress n xs = .probed path → callsOf n ys ≠ [] → Deserted (worldAfter path place xs) := by
  refine Machine.split_induction (P := fun xs ys => ∀ n, progress n xs = .probed path →
    callsOf n ys ≠ [] → Deserted (worldAfter path place xs))
    (fun n h => nomatch h) (fun xs e ys hsplit ih n h hmore => ?_) xs
  obtain ⟨m, act⟩ := e
  rw [worldAfter_snoc]
  by_cases hn : n = m
  · subst hn
    rw [progress_same] at h
    rcases probed_step h with hprobed | rfl
    · have hphase : ∀ c, act = .call c → InPhase (.probed path) c.1 := by
        rintro c rfl
        exact hprobed ▸ hlives.inPhase hsplit
      refine (ih n hprobed (callsOf_cons_ne hmore)).after (fun hact => ?_) fun k hact => ?_
      · exact nomatch hphase _ hact
      · obtain ⟨p, hp⟩ := hphase _ hact
        exact nomatch hp
    · -- at the probe nobody listens there
      have hrefused := Machine.admissible_iff.mp hkernel xs _ ys hsplit rfl
      refine Deserted.after (fun l hplace hlistens => ?_) nofun nofun
      have hno : (worldAfter path place xs).listening l = false := hrefused l hplace
      rw [hno] at hlistens
      exact Bool.noConfusion hlistens
  · rw [progress_ne xs act hn] at h
    refine (ih n h (callsOf_cons_ne hmore)).after (fun hact => ?_) fun k hact => ?_
    all_goals
      subst hact
      rcases hserial xs m _ ys hsplit n hn with hnone | hnone
      · rw [progress, hnone] at h
        exact nomatch h
      · exact hmore hnone

theorem Holds.earlier (h : Holds path n (xs ++ [(m, act)]) ys)
    (hhas : progress n xs = .listening path ∨
      (progress n xs = .bound path ∧ callsOf n ((m, act) :: ys) ≠ [])) :
    Holds path n xs ((m, act) :: ys) where
  stays p r hmem := h.stays p r (List.mem_append_left _ hmem)
  lives hmem := h.lives (List.mem_append_left _ hmem)
  has := hhas

theorem Holds.back_ne (hn : n ≠ m) (h : Holds path n (xs ++ [(m, act)]) ys) :
    Holds path n xs ((m, act) :: ys) := by
  refine h.earlier ?_
  have hhas := h.has
  rw [progress_ne xs act hn] at hhas
  exact hhas.imp_right fun hbound => ⟨hbound.1, callsOf_cons_ne hbound.2⟩

theorem Holds.back_same {c : Call Op Ans} (h : Holds path n (xs ++ [(n, .call c)]) ys) :
    Act.call c = .call ⟨.bind path, .ok⟩ ∨ Holds path n xs ((n, .call c) :: ys) := by
  have hmore : callsOf n ((n, .call c) :: ys) ≠ [] := by
    rw [callsOf_call]
    exact List.cons_ne_nil _ _
  have hhas := h.has
  rw [progress_same] at hhas
  rcases hhas with hlistens | ⟨hbound, -⟩
  · rcases listening_step hlistens with hlistened | ⟨hbound, -⟩
    · exact Or.inr (h.earlier (Or.inl hlistened))
    · exact Or.inr (h.earlier (Or.inr ⟨hbound, hmore⟩))
  · rcases bound_step hbound with hbound | hact
    · exact Or.inr (h.earlier (Or.inr ⟨hbound, hmore⟩))
    · exact Or.inl hact

/-- A broker that leaves its loop for the first time held the path up to then. -/
theorem Holds.of_leave {p : List Byte} {r : Bool} (hlives : Lives start es)
    (honce : LeavesOnce es) (hsplit : es = xs ++ (n, .leave p r) :: ys) :
    Holds p n xs ((n, .leave p r) :: ys) where
  stays := honce xs n p r ys hsplit
  lives hmem := by
    obtain ⟨us, vs, rfl⟩ := List.append_of_mem hmem
    refine hlives.die us n (vs ++ (n, .leave p r) :: ys) ?_ (.leave p r)
      (List.mem_append_right _ List.mem_cons_self)
    rw [hsplit, List.append_assoc, List.cons_append]
  has := Or.inl (hlives.leaving hsplit)

/-- What a broker has bound is its own from then on. -/
theorem keeps_place (hlives : Lives start es)
    (hkernel : Machine.Admissible (KernelOk path) (World.after path) ⟨place, fun _ => false⟩ es)
    (hserial : Serial es) (honce : LeavesOnce es) (xs : History) :
    ∀ ys, es = xs ++ ys → ∀ n, Holds path n xs ys →
      (worldAfter path place xs).place = some (.socketOf n) := by
  refine Machine.split_induction (P := fun xs ys => ∀ n, Holds path n xs ys →
    (worldAfter path place xs).place = some (.socketOf n))
    (fun n h => ?_) (fun xs e ys hsplit ih n h => ?_) xs
  · rcases h.has with hnone | ⟨hnone, -⟩ <;> exact nomatch hnone
  obtain ⟨m, act⟩ := e
  rw [worldAfter_snoc]
  by_cases hn : n = m
  · subst hn
    cases act with
    | leave p r => exact absurd (List.mem_append_right _ List.mem_cons_self) (h.stays p r)
    | die => exact absurd (List.mem_append_right _ List.mem_cons_self) h.lives
    | call c =>
        rcases h.back_same with hact | hheld
        · rw [hact]
          show (if path = path then some (Place.socketOf n) else _) = _
          exact if_pos rfl
        · -- it neither binds again nor removes what it has bound
          have hphase : InPhase (progress n xs) c.1 := hlives.inPhase hsplit
          have hplace := ih n hheld
          refine place_stays hplace (fun hact => ?_) (fun hact => ?_) nofun
          all_goals
            obtain rfl := Act.call.inj hact
            rcases hheld.has with hhas | ⟨hhas, -⟩ <;> exact nomatch hhas.symm.trans hphase
  · have hheld := h.back_ne hn
    have hplace := ih n hheld
    refine place_stays hplace (fun hact => ?_) (fun hact => ?_) fun hact => ?_
    · -- what is there cannot be bound
      subst hact
      have hfree : (worldAfter path place xs).place = none :=
        Machine.admissible_iff.mp hkernel xs _ ys hsplit rfl
      exact nomatch hplace.symm.trans hfree
    · subst hact
      have hmore : callsOf m ((m, .call ⟨.unlink path, true⟩) :: ys) ≠ [] := by
        rw [callsOf_call]
        exact List.cons_ne_nil _ _
      have hdeserted := stays_deserted hlives hkernel hserial xs _ hsplit m
        (hlives.inPhase hsplit) hmore
      rcases hheld.has with hlistens | ⟨hbound, -⟩
      · exact hdeserted n hplace (listens_until_end xs _ hsplit n path hlistens hheld.lives)
      · -- a start-up that is not through
        rcases hserial xs m _ ys hsplit n hn with hnone | hnone
        · rw [progress, hnone] at hbound
          exact nomatch hbound
        · rcases h.has with hlistens | ⟨-, hcalls⟩
          · rw [progress_ne xs _ hn, hbound] at hlistens
            exact nomatch hlistens
          · exact hcalls hnone
    · subst hact
      have hother := ih m (Holds.of_leave hlives honce hsplit)
      exact hn (Place.socketOf.inj (Option.some.inj (hplace.symm.trans hother)))

/-- **ONE BROKER**: any number of brokers on a path with anything on it at first, in any
    order of steps, each dying at any point.  Where their start-ups do not overlap and
    nobody removes a socket twice, a broker that has come to listen on the path keeps its
    socket there and listens on it until it leaves or dies, and there is only one. -/
theorem one_broker (hlives : Lives start es)
    (hkernel : Machine.Admissible (KernelOk path) (World.after path) ⟨place, fun _ => false⟩ es)
    (hserial : Serial es) (honce : LeavesOnce es) (hsplit : es = xs ++ ys)
    (hserves : Serves path n xs) :
    (worldAfter path place xs).place = some (.socketOf n) ∧
      (worldAfter path place xs).listening n = true ∧ ∀ m, Serves path m xs → m = n := by
  have hplace : ∀ m, Serves path m xs → (worldAfter path place xs).place = some (.socketOf m) :=
    fun m hm => keeps_place hlives hkernel hserial honce xs ys hsplit m
      ⟨hm.stays, hm.lives, Or.inl hm.listens⟩
  refine ⟨hplace n hserves,
    listens_until_end xs ys hsplit n path hserves.listens hserves.lives, fun m hm => ?_⟩
  exact Place.socketOf.inj (Option.some.inj ((hplace m hm).symm.trans (hplace n hserves)))

-- ── one start behind the other ────────────────────────────────────────────────

theorem callsOf_eq_nil (h : ∀ e ∈ es, e.1 ≠ n) : callsOf n es = [] := by
  induction es with
  | nil => rfl
  | cons e es ih =>
      have hrest := ih fun e' he' => h e' (List.mem_cons_of_mem _ he')
      obtain ⟨m, act⟩ := e
      cases act with
      | call c => rw [callsOf, if_neg (h _ List.mem_cons_self), hrest]
      | leave p r => exact hrest
      | die => exact hrest

/-- Brokers that start in their order do not overlap. -/
theorem serial_of_pairwise (h : es.Pairwise fun e e' => e.1 ≤ e'.1) : Serial es := by
  rintro xs n c ys rfl m hm
  obtain ⟨-, hlater, hacross⟩ := List.pairwise_append.mp h
  rcases Nat.lt_or_gt_of_ne hm with hlt | hgt
  · refine Or.inr (callsOf_eq_nil fun e he => ?_)
    have := (List.pairwise_cons.mp hlater).1 e he
    exact (Nat.lt_of_lt_of_le hlt this).ne'
  · refine Or.inl (callsOf_eq_nil fun e he => ?_)
    have := hacross e he _ List.mem_cons_self
    exact (Nat.lt_of_le_of_lt this hgt).ne

/-- Broker 0 is at its loop when broker 1 finds it there. -/
def second : History :=
  starts 0 rootCalls ++ starts 1 (rootCalls.take 9 ++ [⟨.connect socketPathDefault, .accepted⟩])

theorem second_call : ∀ e ∈ second, ∃ c, e.2 = .call c :=
  List.forall_mem_append.mpr ⟨starts_call _ _, starts_call _ _⟩

theorem second_lives : Lives (fun _ => (package, [])) second := by
  refine lives_of_calls second_call fun n => ?_
  unfold second
  rw [callsOf_append]
  match n with
  | 0 =>
      rw [callsOf_starts, callsOf_starts_ne Nat.one_ne_zero, List.append_nil]
      exact exec_running exec_asRoot
  | 1 =>
      rw [callsOf_starts_ne Nat.zero_ne_one, callsOf_starts, List.nil_append]
      have hexec : Exec (startUp package []) (rootCalls.take 9 ++
          ⟨.connect socketPathDefault, .refused⟩ :: rootCalls.drop 10)
            (.done (emptyBroker, true)) := exec_asRoot
      exact exec_until Connect.accepted hexec
  | n + 2 =>
      rw [callsOf_starts_ne (Nat.zero_ne_add_one _), callsOf_starts_ne (by omega)]
      exact .stop _

theorem second_admissible : Machine.Admissible (KernelOk socketPathDefault)
    (World.after socketPathDefault) ⟨some (.socketOf 99), fun _ => false⟩ second := by
  unfold second starts
  repeat' constructor
  · exact kernelOk_refused (k := 99) rfl rfl
  · exact fun _ => rfl
  · exact fun _ => ⟨0, rfl, rfl⟩

theorem second_serial : Serial second := by
  have hown : ∀ n calls, (starts n calls).Pairwise fun e e' => e.1 ≤ e'.1 := fun n calls =>
    List.pairwise_map.mpr (List.pairwise_of_forall fun _ _ => Nat.le_refl n)
  refine serial_of_pairwise (List.pairwise_append.mpr ⟨hown _ _, hown _ _, ?_⟩)
  exact List.forall_mem_map.mpr fun _ _ => List.forall_mem_map.mpr fun _ _ => Nat.zero_le _

theorem one_broker_second :
    (worldAfter socketPathDefault (some (.socketOf 99)) second).place = some (.socketOf 0) ∧
      (worldAfter socketPathDefault (some (.socketOf 99)) second).listening 0 = true ∧
        ∀ m, Serves socketPathDefault m second → m = 0 := by
  refine one_broker second_lives second_admissible second_serial (fun xs n p r ys hsplit => ?_)
    (List.append_nil _).symm ⟨rfl, fun p r hmem => ?_, fun hmem => ?_⟩
  · obtain ⟨c, hc⟩ := second_call (n, .leave p r)
      (hsplit ▸ List.mem_append_right _ List.mem_cons_self)
    exact nomatch hc
  · obtain ⟨c, hc⟩ := second_call _ hmem
    exact nomatch hc
  · obtain ⟨c, hc⟩ := second_call _ hmem
    exact nomatch hc

end WdInstances
