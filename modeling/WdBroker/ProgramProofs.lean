import Mathlib.Data.List.Basic

/-! # Programs that call the world

    A program ends with a value, ends the process, or makes a call and goes on with
    whatever the world answers.  `Exec` are its executions, up to any point; a call is
    recorded with its answer.

    `Safe` is a program logic over the history of the calls made so far, latest first: a
    condition on every call at the time it is made, one on values, and one on the ways
    to end the process.  `safe_bind` and `safe_ask` take a program apart, `safe_calls`
    and `safe_ends` say what is known of every execution, whatever the answers. -/

namespace Program

variable {Op : Type} {Ans : Op → Type} {X α β γ : Type}

/-- `done` carries a value, `exit` the way the process ends. -/
inductive Prog (Op : Type) (Ans : Op → Type) (X α : Type) where
  | done (a : α)
  | exit (x : X)
  | call (op : Op) (next : Ans op → Prog Op Ans X α)

/-- A call and its answer. -/
abbrev Call (Op : Type) (Ans : Op → Type) := (op : Op) × Ans op

namespace Prog

/-- One after the other. -/
def bind : Prog Op Ans X α → (α → Prog Op Ans X β) → Prog Op Ans X β
  | .done a, f => f a
  | .exit x, _ => .exit x
  | .call op next, f => .call op fun r => (next r).bind f

instance : Monad (Prog Op Ans X) where
  pure := .done
  bind := bind

/-- A single call. -/
def ask (op : Op) : Prog Op Ans X (Ans op) := .call op .done

/-- Go on only if the condition holds. -/
def guard (x : X) (c : Prop) [Decidable c] : Prog Op Ans X Unit := if c then .done () else .exit x

end Prog

open Prog

-- ── executions ────────────────────────────────────────────────────────────────

/-- How far an execution has come. -/
inductive Status (X α : Type) where
  | running
  | done (a : α)
  | exited (x : X)

/-- Executions with their calls in order. -/
inductive Exec : Prog Op Ans X α → List (Call Op Ans) → Status X α → Prop
  | stop (p : Prog Op Ans X α) : Exec p [] .running
  | done (a : α) : Exec (.done a) [] (.done a)
  | exit (x : X) : Exec (.exit x) [] (.exited x)
  | call {op : Op} {next : Ans op → Prog Op Ans X α} {calls : List (Call Op Ans)}
      {e : Status X α} (r : Ans op) (h : Exec (next r) calls e) :
      Exec (.call op next) (⟨op, r⟩ :: calls) e

/-- An execution of two programs one after the other that ends with a value. -/
theorem exec_bind_done {p : Prog Op Ans X α} {f : α → Prog Op Ans X β} {b : β} :
    ∀ {calls : List (Call Op Ans)}, Exec (p >>= f) calls (.done b) ↔
      ∃ first a rest, calls = first ++ rest ∧ Exec p first (.done a) ∧ Exec (f a) rest (.done b) := by
  induction p with
  | done a =>
      intro calls
      constructor
      · exact fun h => ⟨[], a, calls, rfl, .done a, h⟩
      · rintro ⟨first, a', rest, rfl, hp, hf⟩
        cases hp
        exact hf
  | exit x =>
      intro calls
      constructor
      · rintro ⟨⟩
      · rintro ⟨first, a', rest, -, hp, -⟩
        cases hp
  | call op next ih =>
      intro calls
      constructor
      · intro h
        cases h with
        | call r h =>
            obtain ⟨first, a, rest, rfl, hp, hf⟩ := (ih r).mp h
            exact ⟨⟨op, r⟩ :: first, a, rest, rfl, .call r hp, hf⟩
      · rintro ⟨first, a, rest, rfl, hp, hf⟩
        cases hp with
        | call r hp => exact .call r ((ih r).mpr ⟨_, a, rest, rfl, hp, hf⟩)

theorem exec_pure_done {a a' : α} {calls : List (Call Op Ans)} :
    Exec (pure a : Prog Op Ans X α) calls (.done a') ↔ calls = [] ∧ a' = a := by
  constructor
  · intro h
    cases h
    exact ⟨rfl, rfl⟩
  · rintro ⟨rfl, rfl⟩
    exact .done _

theorem exec_exit_done {x : X} {a : α} {calls : List (Call Op Ans)} :
    Exec (.exit x : Prog Op Ans X α) calls (.done a) ↔ False :=
  iff_false_intro nofun

theorem exec_ask_done {op : Op} {r : Ans op} {calls : List (Call Op Ans)} :
    Exec (ask op : Prog Op Ans X (Ans op)) calls (.done r) ↔ calls = [⟨op, r⟩] := by
  constructor
  · intro h
    cases h with
    | call r' h =>
        cases h
        rfl
  · rintro rfl
    exact .call r (.done r)

/-- A call in front of the rest. -/
theorem exec_ask_bind {op : Op} {f : Ans op → Prog Op Ans X β} {b : β}
    {calls : List (Call Op Ans)} :
    Exec (ask op >>= f) calls (.done b) ↔
      ∃ r rest, calls = ⟨op, r⟩ :: rest ∧ Exec (f r) rest (.done b) := by
  constructor
  · intro h
    cases h with
    | call r h => exact ⟨r, _, rfl, h⟩
  · rintro ⟨r, rest, rfl, h⟩
    exact .call r h

/-- A test in front of the rest. -/
theorem exec_guard_bind {x : X} {c : Prop} [Decidable c] {f : Unit → Prog Op Ans X β} {b : β}
    {calls : List (Call Op Ans)} :
    Exec (guard x c >>= f) calls (.done b) ↔ c ∧ Exec (f ()) calls (.done b) := by
  unfold Prog.guard
  split
  · next hc => exact (and_iff_right hc).symm
  · next hc => exact iff_of_false nofun fun h => hc h.1

theorem exec_guard_done {x : X} {c : Prop} [Decidable c] {calls : List (Call Op Ans)} :
    Exec (guard x c : Prog Op Ans X Unit) calls (.done ()) ↔ c ∧ calls = [] := by
  unfold Prog.guard
  split
  · next hc =>
      constructor
      · rintro ⟨⟩
        exact ⟨hc, rfl⟩
      · rintro ⟨-, rfl⟩
        exact .done ()
  · next hc => exact iff_of_false nofun fun h => hc h.1

/-- The calls of an execution are all of one that goes on. -/
theorem exec_running {p : Prog Op Ans X α} {calls : List (Call Op Ans)} {e : Status X α}
    (h : Exec p calls e) : Exec p calls .running := by
  induction h with
  | stop p => exact .stop p
  | done a => exact .stop _
  | exit x => exact .stop _
  | call r _ ih => exact .call r ih

/-- An execution up to a call, with any answer to it. -/
theorem exec_until {p : Prog Op Ans X α} {e : Status X α} {op : Op} {r : Ans op}
    {before after : List (Call Op Ans)} (r' : Ans op)
    (h : Exec p (before ++ ⟨op, r⟩ :: after) e) : Exec p (before ++ [⟨op, r'⟩]) .running := by
  induction before generalizing p with
  | nil =>
      cases h with
      | call _ h => exact .call r' (.stop _)
  | cons c before ih =>
      cases h with
      | call r₀ h => exact .call r₀ (ih h)

-- ── the logic ─────────────────────────────────────────────────────────────────

variable (pre : List (Call Op Ans) → Op → Prop) (post : List (Call Op Ans) → α → Prop)
  (ended : List (Call Op Ans) → X → Prop)

/-- From the history `h` on: every call is made under `pre`, and the program ends under
    `post` or `ended`, whatever the answers are. -/
def Safe : List (Call Op Ans) → Prog Op Ans X α → Prop
  | h, .done a => post h a
  | h, .exit x => ended h x
  | h, .call op next => pre h op ∧ ∀ r, Safe (⟨op, r⟩ :: h) (next r)

variable {pre post ended} {h : List (Call Op Ans)}

/-- **SEQUENCE RULE**. -/
theorem safe_bind {post : List (Call Op Ans) → β → Prop} {p : Prog Op Ans X α}
    {f : α → Prog Op Ans X β} :
    ∀ {h : List (Call Op Ans)}, Safe pre post ended h (p >>= f) ↔
      Safe pre (fun h a => Safe pre post ended h (f a)) ended h p := by
  induction p with
  | done a => exact Iff.rfl
  | exit x => exact Iff.rfl
  | call op next ih => exact and_congr_right fun _ => forall_congr' fun r => ih r

/-- A single call. -/
theorem safe_ask {op : Op} {post : List (Call Op Ans) → Ans op → Prop} :
    Safe pre post ended h (ask op) ↔ pre h op ∧ ∀ r, post (⟨op, r⟩ :: h) r :=
  Iff.rfl

theorem safe_guard {x : X} {c : Prop} [Decidable c] {post : List (Call Op Ans) → Unit → Prop} :
    Safe pre post ended h (guard x c) ↔ (c → post h ()) ∧ (¬ c → ended h x) := by
  unfold Prog.guard
  split
  · next hc => exact ⟨fun hp => ⟨fun _ => hp, fun hno => absurd hc hno⟩, fun hp => hp.1 hc⟩
  · next hc => exact ⟨fun hp => ⟨fun h => absurd h hc, fun _ => hp⟩, fun hp => hp.2 hc⟩

/-- **CONSEQUENCE RULE**. -/
theorem Safe.mono {post' : List (Call Op Ans) → α → Prop} {p : Prog Op Ans X α}
    (himp : ∀ h a, post h a → post' h a) :
    ∀ {h : List (Call Op Ans)}, Safe pre post ended h p → Safe pre post' ended h p := by
  induction p with
  | done a => exact fun {h} hp => himp h a hp
  | exit x => exact fun hp => hp
  | call op next ih => exact fun hp => ⟨hp.1, fun r => ih r (hp.2 r)⟩

/-- Only calls of one kind are made. -/
def Only (kind : Op → Prop) : Prog Op Ans X α → Prop
  | .done _ => True
  | .exit _ => True
  | .call op next => kind op ∧ ∀ r, Only kind (next r)

theorem only_bind {kind : Op → Prop} {p : Prog Op Ans X α} {f : α → Prog Op Ans X β}
    (hp : Only kind p) (hf : ∀ a, Only kind (f a)) : Only kind (p >>= f) := by
  induction p with
  | done a => exact hf a
  | exit x => trivial
  | call op next ih => exact ⟨hp.1, fun r => ih r (hp.2 r)⟩

theorem only_ask {kind : Op → Prop} {op : Op} (hop : kind op) :
    Only kind (ask op : Prog Op Ans X (Ans op)) :=
  ⟨hop, fun _ => trivial⟩

theorem only_guard {kind : Op → Prop} {x : X} {c : Prop} [Decidable c] :
    Only kind (guard x c : Prog Op Ans X Unit) := by
  unfold Prog.guard
  split <;> trivial

/-- **FRAME RULE**: what calls of one kind leave alone holds behind them. -/
theorem safe_of_only {kind : Op → Prop} {inv : List (Call Op Ans) → Prop}
    (hpre : ∀ h op, inv h → kind op → pre h op)
    (hinv : ∀ h op r, inv h → kind op → inv (⟨op, r⟩ :: h)) (hend : ∀ h x, inv h → ended h x)
    {p : Prog Op Ans X α} :
    ∀ {h : List (Call Op Ans)}, Only kind p → inv h → Safe pre (fun h _ => inv h) ended h p := by
  induction p with
  | done a => exact fun _ hi => hi
  | exit x => exact fun _ hi => hend _ x hi
  | call op next ih =>
      exact fun hp hi => ⟨hpre _ op hi hp.1, fun r => ih r (hp.2 r) (hinv _ op r hi hp.1)⟩

/-- **SOUNDNESS, CALLS**: every call of every execution is made under `pre`. -/
theorem safe_calls {p : Prog Op Ans X α} {calls : List (Call Op Ans)} {e : Status X α}
    (hexec : Exec p calls e) :
    ∀ {h : List (Call Op Ans)}, Safe pre post ended h p → ∀ before op r after,
      calls = before ++ ⟨op, r⟩ :: after → pre (before.reverse ++ h) op := by
  induction hexec with
  | stop p => exact fun _ before op r after hsplit => by simp at hsplit
  | done a => exact fun _ before op r after hsplit => by simp at hsplit
  | exit x => exact fun _ before op r after hsplit => by simp at hsplit
  | @call op₀ next calls e r₀ _ ih =>
      intro h hsafe before op r after hsplit
      cases before with
      | nil =>
          obtain ⟨hop, -⟩ := List.cons.inj hsplit
          obtain ⟨rfl, -⟩ := Sigma.mk.inj hop
          exact hsafe.1
      | cons c before =>
          obtain ⟨rfl, hrest⟩ := List.cons.inj hsplit
          have hlater := ih (hsafe.2 r₀) before op r after hrest
          rwa [List.reverse_cons, List.append_assoc, List.singleton_append]

/-- **SOUNDNESS, ENDS**: an execution that has ended has ended under `post` or `ended`. -/
theorem safe_ends {p : Prog Op Ans X α} {calls : List (Call Op Ans)} {e : Status X α}
    (hexec : Exec p calls e) :
    ∀ {h : List (Call Op Ans)}, Safe pre post ended h p →
      (∀ a, e = .done a → post (calls.reverse ++ h) a) ∧
        ∀ x, e = .exited x → ended (calls.reverse ++ h) x := by
  induction hexec with
  | stop p => exact fun _ => ⟨fun a ha => (nomatch ha), fun x hx => (nomatch hx)⟩
  | done a =>
      intro h hsafe
      refine ⟨fun a' ha => ?_, fun x hx => (nomatch hx)⟩
      cases ha
      exact hsafe
  | exit x =>
      intro h hsafe
      refine ⟨fun a ha => (nomatch ha), fun x' hx => ?_⟩
      cases hx
      exact hsafe
  | @call op next calls e r _ ih =>
      intro h hsafe
      rw [List.reverse_cons, List.append_assoc, List.singleton_append]
      exact ih (hsafe.2 r)

end Program
