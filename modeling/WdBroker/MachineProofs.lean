import Mathlib.Data.List.Induction

/-! # Runs of a deterministic machine

    A machine is a step function over an explicit state; everything the outside
    world decides is part of the input of a step.  A run folds the step over a
    list of inputs.  This file packages the inductions over runs once:

    * `run_invariant` — what every step keeps, every run keeps;
    * `run_invariant_mem` — the same for the steps of some inputs;
    * `run_invariant_env` — the same under an environment that constrains the
      inputs (a clock that only moves forward, say) and itself advances;
    * `run_invariant_iff` — an invariant that a step keeps only if it is well
      behaved, against runs all of whose steps are;
    * `tryRun_invariant` — for a step that may refuse its input and end the run. -/

namespace Machine

variable {S I E : Type*}

/-- Fold a step function over a list of inputs. -/
def run (step : S → I → S) (s : S) (is : List I) : S :=
  is.foldl step s

variable (step : S → I → S)

@[simp] theorem run_nil (s : S) : run step s [] = s := rfl

@[simp] theorem run_cons (s : S) (i : I) (is : List I) :
    run step s (i :: is) = run step (step s i) is := rfl

theorem run_append (s : S) (is js : List I) :
    run step s (is ++ js) = run step (run step s is) js :=
  List.foldl_append

theorem run_snoc (s : S) (is : List I) (i : I) :
    run step s (is ++ [i]) = step (run step s is) i := by
  rw [run_append]; rfl

/-- **INVARIANT RULE**: what every step keeps holds after every run. -/
theorem run_invariant {P : S → Prop} (hstep : ∀ s i, P s → P (step s i)) :
    ∀ (is : List I) (s : S), P s → P (run step s is) := by
  intro is
  induction is with
  | nil => intro s h; exact h
  | cons i is ih => intro s h; exact ih (step s i) (hstep s i h)

/-- **INVARIANT RULE, RESTRICTED INPUTS**: the same where the step is known only for some
    inputs, and these are all that occur. -/
theorem run_invariant_mem {P : S → Prop} {ok : I → Prop}
    (hstep : ∀ s i, ok i → P s → P (step s i)) :
    ∀ (is : List I) (s : S), (∀ i ∈ is, ok i) → P s → P (run step s is) := by
  intro is
  induction is with
  | nil => intro s _ h; exact h
  | cons i is ih =>
      intro s hok h
      exact ih (step s i) (fun j hj => hok j (List.mem_cons_of_mem i hj))
        (hstep s i (hok i List.mem_cons_self) h)

/-- The inputs are admissible from environment `e`: each one is allowed where
    the environment stands, and the environment then advances past it. -/
def Admissible (ok : E → I → Prop) (next : E → I → E) : E → List I → Prop
  | _, [] => True
  | e, i :: is => ok e i ∧ Admissible ok next (next e i) is

variable {ok : E → I → Prop} {next : E → I → E}

/-- A prefix of admissible inputs is admissible, and the rest is admissible
    from where the environment then stands. -/
theorem admissible_append {e : E} {is js : List I} :
    Admissible ok next e (is ++ js) ↔
      Admissible ok next e is ∧ Admissible ok next (run next e is) js := by
  induction is generalizing e with
  | nil => simp [Admissible]
  | cons i is ih =>
      simp only [List.cons_append, Admissible, run_cons, ih, and_assoc]

/-- Inputs are admissible exactly when each one is allowed where the environment
    stands after those before it. -/
theorem admissible_iff {e : E} {is : List I} :
    Admissible ok next e is ↔ ∀ js i ks, is = js ++ i :: ks → ok (run next e js) i := by
  constructor
  · rintro h js i ks rfl
    exact (admissible_append.mp h).2.1
  · intro h
    induction is generalizing e with
    | nil => exact trivial
    | cons i is ih =>
        exact ⟨h [] i is rfl, ih fun js j ks hsplit => h (i :: js) j ks (by rw [hsplit]; rfl)⟩

/-- Inputs that stand for others are admissible where these are. -/
theorem admissible_map {J : Type*} {f : J → I} {js : List J} :
    ∀ {e : E}, Admissible ok next e (js.map f) ↔
      Admissible (fun e j => ok e (f j)) (fun e j => next e (f j)) e js := by
  induction js with
  | nil => exact Iff.rfl
  | cons j js ih => exact and_congr_right fun _ => ih

/-- **PREFIX RULE**: a property of what has happened and what is still to come, kept by
    every input of the list on its way from one to the other, holds all along. -/
theorem split_induction {P : List I → List I → Prop} {is : List I} (hnil : P [] is)
    (hsnoc : ∀ js i ks, is = js ++ i :: ks → P js (i :: ks) → P (js ++ [i]) ks) (js : List I) :
    ∀ ks, is = js ++ ks → P js ks := by
  induction js using List.reverseRecOn with
  | nil =>
      rintro ks rfl
      exact hnil
  | append_singleton js i ih =>
      intro ks hsplit
      rw [List.append_assoc] at hsplit
      exact hsnoc js i ks hsplit (ih (i :: ks) hsplit)

/-- Two environments that constrain the same inputs are one. -/
theorem admissible_prod {E' : Type*} {ok' : E' → I → Prop} {next' : E' → I → E'} {is : List I} :
    ∀ {e : E} {e' : E'}, Admissible ok next e is → Admissible ok' next' e' is →
      Admissible (fun p i => ok p.1 i ∧ ok' p.2 i) (fun p i => (next p.1 i, next' p.2 i)) (e, e') is := by
  induction is with
  | nil => intro e e' _ _; exact trivial
  | cons i is ih => intro e e' h h'; exact ⟨⟨h.1, h'.1⟩, ih h.2 h'.2⟩

/-- **INVARIANT RULE, CONSTRAINED INPUTS**: an invariant that relates the state
    to the environment and is kept by every admissible step holds after every
    admissible run. -/
theorem run_invariant_env {P : E → S → Prop}
    (hstep : ∀ e s i, ok e i → P e s → P (next e i) (step s i)) :
    ∀ (is : List I) (e : E) (s : S), Admissible ok next e is → P e s →
      P (run next e is) (run step s is) := by
  intro is
  induction is with
  | nil => intro e s _ h; exact h
  | cons i is ih =>
      intro e s hadm h
      exact ih (next e i) (step s i) hadm.2 (hstep e s i hadm.1 h)

/-- **EXACT INVARIANT RULE**: if a step keeps `P` exactly when `ok`, then `P` holds
    all along a run exactly when it holds at the start and every step is `ok`. -/
theorem run_invariant_iff {P : S → Prop} {ok : S → I → Prop} {step : S → I → S}
    (hstep : ∀ s i, P s → (P (step s i) ↔ ok s i)) {is : List I} :
    ∀ {s : S}, (∀ js ks, is = js ++ ks → P (run step s js)) ↔
      P s ∧ ∀ js i ks, is = js ++ i :: ks → ok (run step s js) i := by
  induction is with
  | nil =>
      intro s
      constructor
      · exact fun h => ⟨h [] [] rfl, fun js i ks hsplit => by simp at hsplit⟩
      · rintro ⟨h, -⟩ js ks hsplit
        obtain rfl := (List.append_eq_nil_iff.mp hsplit.symm).1
        exact h
  | cons i is ih =>
      intro s
      constructor
      · intro h
        have hs : P s := h [] (i :: is) rfl
        have hnext : ∀ js ks, is = js ++ ks → P (run step (step s i) js) :=
          fun js ks hsplit => h (i :: js) ks (by rw [hsplit]; rfl)
        obtain ⟨hfirst, hrest⟩ := ih.mp hnext
        refine ⟨hs, fun js j ks hsplit => ?_⟩
        cases js with
        | nil =>
            obtain ⟨rfl, -⟩ := List.cons.inj hsplit
            exact (hstep s i hs).mp hfirst
        | cons j' js =>
            obtain ⟨rfl, htail⟩ := List.cons.inj hsplit
            exact hrest js j ks htail
      · rintro ⟨hs, hok⟩ js ks hsplit
        cases js with
        | nil => exact hs
        | cons j js =>
            obtain ⟨rfl, htail⟩ := List.cons.inj hsplit
            have hfirst : P (step s i) := (hstep s i hs).mpr (hok [] i is rfl)
            refine ih.mpr ⟨hfirst, fun js' j ks' hsplit' => ?_⟩ js ks htail
            exact hok (i :: js') j ks' (by rw [hsplit']; rfl)

/-- A run whose step may fail: the first failure ends it. -/
def tryRun {X : Type*} (step : S → I → Except X S) : S → List I → Except X S
  | s, [] => .ok s
  | s, i :: is =>
      match step s i with
      | .error e => .error e
      | .ok s' => tryRun step s' is

@[simp] theorem tryRun_singleton {X : Type*} (step : S → I → Except X S) (s : S) (i : I) :
    tryRun step s [i] = step s i := by
  rw [tryRun]
  cases step s i <;> rfl

/-- A run that succeeds has succeeded halfway. -/
theorem tryRun_append_ok {X : Type*} {step : S → I → Except X S} {is js : List I} :
    ∀ {s s'' : S}, tryRun step s (is ++ js) = .ok s'' ↔
      ∃ s', tryRun step s is = .ok s' ∧ tryRun step s' js = .ok s'' := by
  induction is with
  | nil =>
      intro s s''
      exact ⟨fun h => ⟨s, rfl, h⟩, fun ⟨s', hs, h⟩ => Except.ok.inj hs ▸ h⟩
  | cons i is ih =>
      intro s s''
      rw [List.cons_append, tryRun, tryRun]
      cases step s i with
      | error e =>
          constructor
          · exact fun h => nomatch h
          · rintro ⟨s', h, -⟩
            exact nomatch h
      | ok s₁ => exact ih

/-- **INVARIANT RULE, FAILING STEPS**: an invariant over the inputs consumed so
    far, kept by every step that succeeds, holds of a run that does. -/
theorem tryRun_invariant {X : Type*} {step : S → I → Except X S} {P : List I → S → Prop}
    (hstep : ∀ done s i s', P done s → step s i = .ok s' → P (done ++ [i]) s') :
    ∀ (is done : List I) (s s' : S), P done s → tryRun step s is = .ok s' →
      P (done ++ is) s' := by
  intro is
  induction is with
  | nil =>
      intro done s s' h hrun
      rw [List.append_nil, ← Except.ok.inj hrun]
      exact h
  | cons i is ih =>
      intro done s s' h hrun
      rw [tryRun] at hrun
      cases hi : step s i with
      | error e => rw [hi] at hrun; exact nomatch hrun
      | ok s₁ =>
          rw [hi] at hrun
          have := ih (done ++ [i]) s₁ s' (hstep done s i s₁ h hi) hrun
          rwa [List.append_assoc, List.singleton_append] at this

end Machine
