import Mathlib.Algebra.Order.Ring.Int
import Mathlib.Tactic.Linarith

/-! # Clock readings and the age of a heartbeat

    `ms_since` subtracts seconds and nanoseconds separately, divides the
    nanosecond difference with C's truncation toward zero and converts the sum to
    `unsigned int`.  The result is therefore rounded down when the nanoseconds
    grew and up when they shrank, and it is reduced modulo `2^32`.

    * `elapsedMs_lt` / `lt_elapsedMs_succ` — before the conversion the age is off
      by less than a millisecond, whichever way it was rounded;
    * `elapsedMs_mono` — it does not shrink as time passes, although the rounding
      changes its direction at a second boundary;
    * `lt_of_lt_msSince` — an age above a bound means more true time than the
      bound, with no assumption on how far the readings are apart: the conversion
      can only make the age smaller;
    * `lt_of_msSince_le` — an age within a bound means less than a millisecond
      more than the bound, as long as the age fits 32 bits;
    * `age_exact` — the age as the main loop sees it. -/

namespace WdClock

/-- A normalised `struct timespec`. -/
@[ext] structure Timespec where
  tvSec : Int
  tvNsec : Int
  nonneg : 0 ≤ tvNsec
  lt : tvNsec < 1000000000
deriving DecidableEq

namespace Timespec

/-- The reading in nanoseconds. -/
def ns (t : Timespec) : Int := t.tvSec * 1000000000 + t.tvNsec

instance : LE Timespec := ⟨fun a b => a.ns ≤ b.ns⟩

instance : DecidableRel (α := Timespec) (· ≤ ·) :=
  fun a b => inferInstanceAs (Decidable (a.ns ≤ b.ns))

theorem le_refl (a : Timespec) : a ≤ a := Int.le_refl _

theorem le_trans {a b c : Timespec} (h : a ≤ b) (h' : b ≤ c) : a ≤ c := Int.le_trans h h'

/-- The reading of a whole number of milliseconds. -/
def ofMs (n : Nat) : Timespec where
  tvSec := n / 1000
  tvNsec := (n % 1000 : Int) * 1000000
  nonneg := by omega
  lt := by omega

/-- All bits zero, as `memset` leaves it. -/
def zero : Timespec := ⟨0, 0, by decide, by decide⟩

end Timespec

/-- The sum that `ms_since` computes in `long`. -/
def elapsedMs (thn now : Timespec) : Int :=
  (now.tvSec - thn.tvSec) * 1000 + Int.tdiv (now.tvNsec - thn.tvNsec) 1000000

/-- `ms_since`: the sum converted to `unsigned int`. -/
def msSince (thn now : Timespec) : Nat := (elapsedMs thn now % 2 ^ 32).toNat

/-- Truncating division by a million: either rounding, by the sign. -/
theorem tdiv_million (x : Int) :
    (0 ≤ x ∧ Int.tdiv x 1000000 = x / 1000000) ∨
      (x < 0 ∧ Int.tdiv x 1000000 = -(-x / 1000000)) := by
  rcases Int.lt_or_le x 0 with hneg | hpos
  · refine Or.inr ⟨hneg, ?_⟩
    rw [← Int.tdiv_eq_ediv_of_nonneg (by omega : 0 ≤ -x), Int.neg_tdiv, Int.neg_neg]
  · exact Or.inl ⟨hpos, Int.tdiv_eq_ediv_of_nonneg hpos⟩

variable {thn now : Timespec}

/-- The age exceeds the true difference by less than a millisecond. -/
theorem elapsedMs_lt : elapsedMs thn now * 1000000 < now.ns - thn.ns + 1000000 := by
  unfold elapsedMs Timespec.ns
  rcases tdiv_million (now.tvNsec - thn.tvNsec) with ⟨_, h⟩ | ⟨_, h⟩ <;> rw [h] <;> omega

/-- The true difference exceeds the age by less than a millisecond. -/
theorem lt_elapsedMs_succ : now.ns - thn.ns < (elapsedMs thn now + 1) * 1000000 := by
  unfold elapsedMs Timespec.ns
  rcases tdiv_million (now.tvNsec - thn.tvNsec) with ⟨_, h⟩ | ⟨_, h⟩ <;> rw [h] <;> omega

/-- On a clock that does not run backwards the age is not negative. -/
theorem elapsedMs_nonneg (h : thn ≤ now) : 0 ≤ elapsedMs thn now := by
  have hns : thn.ns ≤ now.ns := h
  have h1 := thn.nonneg
  have h2 := thn.lt
  have h3 := now.nonneg
  have h4 := now.lt
  unfold elapsedMs
  unfold Timespec.ns at hns
  rcases tdiv_million (now.tvNsec - thn.tvNsec) with ⟨_, ht⟩ | ⟨_, ht⟩ <;> rw [ht] <;> omega

/-- **THE AGE DOES NOT SHRINK**: within a second the quotient is monotone, and across
    a second boundary the second gained outweighs the nanoseconds lost. -/
theorem elapsedMs_mono {now' : Timespec} (h : now ≤ now') :
    elapsedMs thn now ≤ elapsedMs thn now' := by
  have hns : now.ns ≤ now'.ns := h
  have h1 := now.nonneg
  have h2 := now.lt
  have h3 := now'.nonneg
  have h4 := now'.lt
  unfold elapsedMs
  unfold Timespec.ns at hns
  -- the nanoseconds may have grown or shrunk since `thn`, at either reading
  rcases tdiv_million (now.tvNsec - thn.tvNsec) with ⟨_, ht⟩ | ⟨_, ht⟩ <;>
    rcases tdiv_million (now'.tvNsec - thn.tvNsec) with ⟨_, ht'⟩ | ⟨_, ht'⟩ <;>
    rw [ht, ht'] <;> omega

/-- The conversion to 32 bits never makes the age larger. -/
theorem msSince_le (h : thn ≤ now) : (msSince thn now : Int) ≤ elapsedMs thn now := by
  have h0 := elapsedMs_nonneg h
  unfold msSince
  omega

/-- **AN AGE ABOVE THE BOUND IS TRUE TIME ABOVE THE BOUND**, however far the
    readings are apart. -/
theorem lt_of_lt_msSince {bound : Nat} (h : thn ≤ now) (hage : bound < msSince thn now) :
    (bound : Int) * 1000000 < now.ns - thn.ns := by
  have h1 := msSince_le h
  have h2 := @elapsedMs_lt thn now
  omega

/-- Up to `2^32 - 1` milliseconds the age survives the conversion. -/
theorem msSince_eq (h : thn ≤ now) (hfit : now.ns - thn.ns ≤ (2 ^ 32 - 1) * 1000000) :
    (msSince thn now : Int) = elapsedMs thn now := by
  have h0 := elapsedMs_nonneg h
  have h1 := @elapsedMs_lt thn now
  unfold msSince
  omega

/-- **AN AGE WITHIN THE BOUND IS LESS THAN A MILLISECOND MORE THAN THE BOUND**,
    as long as it fits 32 bits. -/
theorem lt_of_msSince_le {bound : Nat} (h : thn ≤ now)
    (hfit : now.ns - thn.ns ≤ (2 ^ 32 - 1) * 1000000) (hage : msSince thn now ≤ bound) :
    now.ns - thn.ns < ((bound : Int) + 1) * 1000000 := by
  have h1 := msSince_eq h hfit
  have h2 := @lt_elapsedMs_succ thn now
  omega

/-- **THE AGE OF A HEARTBEAT**, up to `2^32 - 1` milliseconds: it is off by less than a
    millisecond, does not shrink as time passes, is above a bound only after more true
    time than the bound, and surely a millisecond after it. -/
theorem age_exact (h : thn ≤ now) (hfit : now.ns - thn.ns ≤ (2 ^ 32 - 1) * 1000000) :
    |(msSince thn now : Int) * 1000000 - (now.ns - thn.ns)| < 1000000 ∧
      (∀ now', now ≤ now' → now'.ns - thn.ns ≤ (2 ^ 32 - 1) * 1000000 →
        msSince thn now ≤ msSince thn now') ∧
      ∀ timeoutMs : Nat,
        (timeoutMs < msSince thn now → (timeoutMs : Int) * 1000000 < now.ns - thn.ns) ∧
        (((timeoutMs : Int) + 1) * 1000000 ≤ now.ns - thn.ns → timeoutMs < msSince thn now) := by
  have hage := msSince_eq h hfit
  refine ⟨?_, fun now' hlater hfit' => ?_, fun timeoutMs => ⟨lt_of_lt_msSince h, fun hlate => ?_⟩⟩
  · have hover := @elapsedMs_lt thn now
    have hunder := @lt_elapsedMs_succ thn now
    rw [hage, abs_lt]
    constructor <;> omega
  · have hage' := msSince_eq (Timespec.le_trans h hlater) hfit'
    have hmono := @elapsedMs_mono thn now now' hlater
    omega
  · by_contra hwithin
    have hearly := lt_of_msSince_le h hfit (Nat.le_of_not_lt hwithin)
    omega

/-- Five seconds and a nanosecond that begin just before a second ends: rounded up. -/
theorem age_exact_rounded_up :
    msSince ⟨0, 999999999, by decide, by decide⟩ ⟨6, 0, by decide, by decide⟩ = 5001 ∧
      |(msSince ⟨0, 999999999, by decide, by decide⟩ ⟨6, 0, by decide, by decide⟩ : Int) * 1000000
        - 5000000001| < 1000000 :=
  ⟨by decide, (@age_exact ⟨0, 999999999, by decide, by decide⟩ ⟨6, 0, by decide, by decide⟩
    (by decide) (by decide)).1⟩

end WdClock
