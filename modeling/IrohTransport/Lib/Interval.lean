import Mathlib.Data.Nat.Basic

/-!
# Periodic timers

A timer that ticks at once and then every period.  A tick that is taken late skips those
that it has missed, so that the timer stays aligned with its start and never ticks faster
than its period.  The timer of tokio lets a tick that is at most five milliseconds late count
as taken on time; with a period longer than that the two agree.

Main results:

- Theorem {lit}`Interval.tick_eq_some`: the next tick is in the future and aligned with the
  last.
- Theorem {lit}`Interval.tick_deadline`: a timer that is taken on time ticks every period.
-/

namespace IrohTransport

/-- A timer with the time of its next tick. -/
structure Interval where
  period : Nat
  positive : 0 < period
  deadline : Nat

namespace Interval

/-- A timer that is started now ticks at once. -/
def new (period : Nat) (positive : 0 < period) (now : Nat) : Interval where
  period := period
  positive := positive
  deadline := now

/-- Take a tick that is due, and skip those that have been missed. -/
def tick (self : Interval) (now : Nat) : Option Interval :=
  if self.deadline ≤ now then
    some { self with deadline := now + self.period - (now - self.deadline) % self.period }
  else none

/-- A tick is taken when it is due, and the next one is aligned with it and in the future, by
a period at most. -/
theorem tick_eq_some {timer timer' : Interval} {now : Nat} (h : timer.tick now = some timer') :
    timer.deadline ≤ now ∧ timer'.period = timer.period ∧ now < timer'.deadline ∧
      timer'.deadline ≤ now + timer.period ∧
      ∃ skipped, timer'.deadline = timer.deadline + (skipped + 1) * timer.period := by
  unfold tick at h
  split at h <;> rename_i hdue
  · obtain rfl := Option.some.inj h
    have hmod := Nat.mod_lt (now - timer.deadline) timer.positive
    have hdiv := Nat.mod_add_div (now - timer.deadline) timer.period
    refine ⟨hdue, rfl, ?_, ?_, (now - timer.deadline) / timer.period, ?_⟩
    · simp only
      omega
    · simp only
      omega
    · rw [Nat.succ_mul, Nat.mul_comm _ timer.period]
      simp only
      omega
  · contradiction

/-- A tick that is taken on time skips none. -/
theorem tick_deadline (timer : Interval) :
    timer.tick timer.deadline = some { timer with deadline := timer.deadline + timer.period } := by
  simp [tick]

end Interval

end IrohTransport
