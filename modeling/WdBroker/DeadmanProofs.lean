import Mathlib.Algebra.Order.Group.Int
import WdBroker.MachineProofs

/-! # A dead man's switch, fed from a polling loop

    A switch goes off when it was not fed for some time.  A loop feeds it whenever it
    finds a periodic timer expired; it waits for the next expiration at most, and then
    works for a bounded time before it waits again.

    `alive_polling_iff`: such a loop is sure to keep the switch from going off exactly if
    the period and twice the work fit in its limit.  Once is not enough: the timer may
    expire right behind one look at it, and what the next turn does first may take as
    long again before it feeds. -/

namespace Deadman

-- ── the switch ────────────────────────────────────────────────────────────────

/-- Armed at `last` and fed at the times that follow, the switch has not gone off by
    `now`. -/
def Alive (limit : Int) : Int → List Int → Int → Prop
  | last, [], now => now < last + limit
  | last, t :: ts, now => t < last + limit ∧ Alive limit t ts now

variable {limit last now : Int} {ts : List Int}

/-- The first expiration behind `seen` of a timer started at `start`. -/
def expiry (start period seen : Int) : Int := start + ((seen - start) / period + 1) * period

theorem lt_expiry {start period seen : Int} (h : 0 < period) : seen < expiry start period seen := by
  have hdiv := Int.lt_ediv_add_one_mul_self (seen - start) h
  unfold expiry
  omega

theorem expiry_le {start period seen : Int} (h : 0 < period) :
    expiry start period seen ≤ seen + period := by
  have hdiv := Int.ediv_mul_le (seen - start) (Int.ne_of_gt h)
  unfold expiry
  rw [Int.add_mul, Int.one_mul]
  omega

-- ── the loop ──────────────────────────────────────────────────────────────────

/-- When the loop last saw the timer expired, and since when it has been waiting. -/
structure Poll where
  seen : Int
  idle : Int

/-- One turn: the wait ends at `ready`, with the timer expired or not; in that case the
    timer is read and the switch fed.  The work is done at `done`. -/
structure Turn where
  fires : Bool
  ready : Int
  read : Int
  fed : Int
  done : Int

def Poll.after (e : Poll) (u : Turn) : Poll := ⟨if u.fires then u.read else e.seen, u.done⟩

/-- The turn waits for the next expiration at most, finds the timer expired if it is, and
    works no longer than `work`. -/
structure Turn.Ok (start period work : Int) (e : Poll) (u : Turn) : Prop where
  waits : e.idle ≤ u.ready
  prompt : u.ready ≤ max e.idle (expiry start period e.seen)
  fires : u.fires = true ↔ expiry start period e.seen ≤ u.ready
  read : u.ready ≤ u.read
  fed : u.read ≤ u.fed
  done : u.fed ≤ u.done
  works : u.done ≤ u.ready + work

/-- The times at which the loop feeds. -/
def feeds (us : List Turn) : List Int := (us.filter Turn.fires).map Turn.fed

theorem feeds_cons (u : Turn) (us : List Turn) :
    feeds (u :: us) = (if u.fires then [u.fed] else []) ++ feeds us := by
  unfold feeds
  cases hfires : u.fires with
  | true => rw [List.filter_cons_of_pos hfires]; rfl
  | false => rw [List.filter_cons_of_neg (by rw [hfires]; exact Bool.false_ne_true)]; rfl

/-- The loop is less behind an expiration than its work takes. -/
structure Punctual (start period work : Int) (e : Poll) (last : Int) : Prop where
  seen : e.seen ≤ last
  idle : e.idle < expiry start period e.seen + work

variable {start period work : Int} {e : Poll} {u : Turn}

/-- A turn that does not fire. -/
theorem Punctual.waits (h : Punctual start period work e last) (hu : u.Ok start period work e)
    (hfires : u.fires = false) : Punctual start period work (e.after u) last := by
  have hbefore : ¬ expiry start period e.seen ≤ u.ready := by
    rw [← hu.fires, hfires]
    exact Bool.false_ne_true
  have hworks := hu.works
  unfold Poll.after
  rw [hfires]
  refine ⟨h.seen, ?_⟩
  show u.done < expiry start period e.seen + work
  omega

/-- A turn that does: it feeds in time. -/
theorem Punctual.feeds (hperiod : 0 < period) (hwork : 0 < work)
    (h : Punctual start period work e last) (hu : u.Ok start period work e)
    (hfires : u.fires = true) :
    Punctual start period work (e.after u) u.fed ∧ u.fed < last + period + 2 * work := by
  obtain ⟨hwaits, hprompt, hexpired, hread, hfed, hdone, hworks⟩ := hu
  have hnext := @lt_expiry start period u.read hperiod
  have hlast := @expiry_le start period e.seen hperiod
  have hseen := h.seen
  have hidle := h.idle
  have hready : u.ready < expiry start period e.seen + work := by
    have hnow := hexpired.mp hfires
    omega
  unfold Poll.after
  rw [hfires]
  refine ⟨⟨hfed, ?_⟩, by omega⟩
  show u.done < expiry start period u.read + work
  omega

/-- Polling keeps the switch from going off. -/
theorem alive_of_polling (hperiod : 0 < period) (hwork : 0 < work)
    (hlimit : period + 2 * work ≤ limit) (us : List Turn) :
    ∀ {e : Poll} {last : Int}, Punctual start period work e last →
      Machine.Admissible (fun e u => u.Ok start period work e) Poll.after e us →
      Alive limit last (feeds us) (Machine.run Poll.after e us).idle := by
  induction us with
  | nil =>
      intro e last h _
      have hlast := @expiry_le start period e.seen hperiod
      have hseen := h.seen
      have hidle := h.idle
      show e.idle < last + limit
      omega
  | cons u us ih =>
      intro e last h hadm
      cases hfires : u.fires with
      | false =>
          rw [feeds_cons, hfires]
          exact ih (h.waits hadm.1 hfires) hadm.2
      | true =>
          obtain ⟨hnext, hfed⟩ := h.feeds hperiod hwork hadm.1 hfires
          rw [feeds_cons, hfires]
          exact ⟨by omega, ih hnext hadm.2⟩

/-- The worst case: the first expiration is seen at once, and the second comes right
    behind a look at the timer; that turn and the next one take as long as they may. -/
def worst (start period work : Int) : List Turn :=
  [⟨true, start + period, start + period, start + period, start + period⟩,
    ⟨false, start + 2 * period - 1, start + 2 * period - 1, start + 2 * period - 1,
      start + 2 * period - 1 + work⟩,
    ⟨true, start + 2 * period - 1 + work, start + 2 * period - 1 + work,
      start + 2 * period - 1 + 2 * work, start + 2 * period - 1 + 2 * work⟩]

theorem expiry_multiple {start period : Int} (h : 0 < period) (k : Int) :
    expiry start period (start + k * period) = start + (k + 1) * period := by
  have hdiv : (start + k * period - start) / period = k := by
    rw [add_sub_cancel_left, Int.mul_ediv_cancel _ (Int.ne_of_gt h)]
  rw [expiry, hdiv]

theorem admissible_worst (hperiod : 0 < period) (hwork : 0 < work) :
    Machine.Admissible (fun e u => u.Ok start period work e) Poll.after ⟨start, start⟩
      (worst start period work) := by
  have hfirst : expiry start period start = start + period := by
    have h := @expiry_multiple start period hperiod 0
    rw [Int.zero_mul, Int.add_zero, Int.zero_add, Int.one_mul] at h
    exact h
  have hsecond : expiry start period (start + period) = start + 2 * period := by
    have h := @expiry_multiple start period hperiod 1
    rw [Int.one_mul] at h
    exact h
  refine ⟨⟨?_, ?_, ?_, ?_, ?_, ?_, ?_⟩, ⟨?_, ?_, ?_, ?_, ?_, ?_, ?_⟩, ⟨?_, ?_, ?_, ?_, ?_, ?_, ?_⟩,
    trivial⟩
  all_goals
    simp only [Poll.after, if_true, if_false, Bool.false_eq_true, hfirst, hsecond, true_iff,
      false_iff]
  all_goals omega

/-- **WHEN POLLING KEEPS THE SWITCH FROM GOING OFF**, in whatever way a loop that takes
    some time is timed. -/
theorem alive_polling_iff (hperiod : 0 < period) (hwork : 0 < work) :
    (∀ us, Machine.Admissible (fun e u => u.Ok start period work e) Poll.after ⟨start, start⟩ us →
      Alive limit start (feeds us) (Machine.run Poll.after ⟨start, start⟩ us).idle) ↔
        period + 2 * work ≤ limit := by
  constructor
  · intro h
    have hworst := h (worst start period work) (admissible_worst hperiod hwork)
    have hlast : start + 2 * period - 1 + 2 * work < start + period + limit := hworst.2.1
    omega
  · intro hlimit us hadm
    have hnext := @lt_expiry start period start hperiod
    exact alive_of_polling hperiod hwork hlimit us
      ⟨Int.le_refl start, show start < expiry start period start + work by omega⟩ hadm

end Deadman
