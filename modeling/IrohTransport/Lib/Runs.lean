import Mathlib.Logic.Relation

/-!
# Labelled transition systems and conditional runs

A system is an initial state and a partial step function: a label that is not
enabled in a state has no successor.  Besides plain reachability the module
fixes reachability along runs whose steps all meet a condition on the state
before the step and the label, which is what a conditional safety result
speaks about.

Main results:

- Theorem {lit}`System.ReachableWhen.invariant`: a predicate that holds
  initially and survives every admitted step holds in every admitted state.
- Theorem {lit}`System.Reaches.invariant`: the same rule for runs that start in a
  reachable state.
- Theorem {lit}`System.reachableWhen_of_runWhen`: an executable run whose
  conditions are decided on the way ends in an admitted state.
-/

namespace IrohTransport

universe u v

/-- A transition system with one partial successor per label. -/
structure System (σ : Type u) (α : Type v) where
  init : σ
  step : σ → α → Option σ

namespace System

variable {σ : Type u} {α : Type v}

/-- States reached by runs whose steps all meet the condition {lit}`C` on the
state before the step and the label taken. -/
inductive ReachableWhen (S : System σ α) (C : σ → α → Prop) : σ → Prop
  | init : ReachableWhen S C S.init
  | step {s s' : σ} {a : α} :
      ReachableWhen S C s → C s a → S.step s a = some s' → ReachableWhen S C s'

/-- States reached by any run at all. -/
abbrev Reachable (S : System σ α) : σ → Prop :=
  S.ReachableWhen fun _ _ => True

/-- The induction rule for conditional runs.  The step case may also use that
the state before the step is reached. -/
theorem ReachableWhen.invariant {S : System σ α} {C : σ → α → Prop} {I : σ → Prop}
    (hinit : I S.init)
    (hstep : ∀ s s' a, S.ReachableWhen C s → I s → C s a → S.step s a = some s' → I s')
    {s : σ} (hs : S.ReachableWhen C s) : I s := by
  induction hs with
  | init => exact hinit
  | step hreach hcond hnext ih => exact hstep _ _ _ hreach ih hcond hnext

/-- Weakening the condition admits at least the same states. -/
theorem ReachableWhen.mono {S : System σ α} {C D : σ → α → Prop}
    (hCD : ∀ s a, C s a → D s a) {s : σ} (hs : S.ReachableWhen C s) :
    S.ReachableWhen D s := by
  induction hs with
  | init => exact .init
  | step _ hcond hnext ih => exact .step ih (hCD _ _ hcond) hnext

/-- Conditional runs are runs. -/
theorem ReachableWhen.reachable {S : System σ α} {C : σ → α → Prop} {s : σ}
    (hs : S.ReachableWhen C s) : S.Reachable s :=
  hs.mono fun _ _ _ => trivial

/-! ## Runs from a state on -/

/-- States reached from a given state by any steps at all. -/
abbrev Reaches (S : System σ α) : σ → σ → Prop :=
  Relation.ReflTransGen fun s s' => ∃ a, S.step s a = some s'

/-- A run from a reachable state on ends in a reachable state. -/
theorem Reaches.reachable {S : System σ α} {s s' : σ} (h : S.Reaches s s')
    (hs : S.Reachable s) : S.Reachable s' := by
  induction h with
  | refl => exact hs
  | tail _ hnext ih =>
      rcases hnext with ⟨a, ha⟩
      exact .step ih trivial ha

/-- The induction rule for a run from a reachable state on. -/
theorem Reaches.invariant {S : System σ α} {I : σ → Prop} {s s' : σ} (h : S.Reaches s s')
    (hs : S.Reachable s) (hI : I s)
    (hstep : ∀ s s' a, S.Reachable s → I s → S.step s a = some s' → I s') : I s' := by
  induction h with
  | refl => exact hI
  | tail hrun hnext ih =>
      rcases hnext with ⟨a, ha⟩
      exact hstep _ _ a (Reaches.reachable hrun hs) ih ha

/-- States reached from a given state by steps that all meet a condition. -/
abbrev ReachesWhen (S : System σ α) (C : σ → α → Prop) : σ → σ → Prop :=
  Relation.ReflTransGen fun s s' => ∃ a, C s a ∧ S.step s a = some s'

/-- What survives every step that meets the condition survives such a run. -/
theorem ReachesWhen.invariant {S : System σ α} {C : σ → α → Prop} {I : σ → Prop} {s s' : σ}
    (h : S.ReachesWhen C s s') (hI : I s)
    (hstep : ∀ s s' a, I s → C s a → S.step s a = some s' → I s') : I s' := by
  induction h with
  | refl => exact hI
  | tail _ hnext ih =>
      rcases hnext with ⟨a, hcond, ha⟩
      exact hstep _ _ a ih hcond ha

/-! ## Executable runs -/

/-- Follow a list of labels, checking the condition before every step. -/
def runWhen (S : System σ α) (C : σ → α → Prop) [∀ s a, Decidable (C s a)] :
    σ → List α → Option σ
  | s, [] => some s
  | s, a :: as =>
      if C s a then
        match S.step s a with
        | some s' => runWhen S C s' as
        | none => none
      else none

/-- Follow a list of labels. -/
abbrev run (S : System σ α) : σ → List α → Option σ :=
  S.runWhen fun _ _ => True

theorem run_cons {S : System σ α} {s s' : σ} {a : α} {l : List α} (h : S.step s a = some s') :
    S.run s (a :: l) = S.run s' l := by
  simp only [runWhen, if_true, h]

theorem run_concat {S : System σ α} {s s' : σ} {a : α} {l : List α} :
    S.run s (l ++ [a]) = some s' ↔ ∃ m, S.run s l = some m ∧ S.step m a = some s' := by
  induction l generalizing s with
  | nil => cases hnext : S.step s a <;> simp [runWhen, hnext]
  | cons b l ih =>
      cases hnext : S.step s b with
      | none => simp [runWhen, hnext]
      | some t => rw [List.cons_append, run_cons hnext, run_cons hnext, ih]

private theorem reachableWhen_of_runWhen_from {S : System σ α} {C : σ → α → Prop}
    [∀ s a, Decidable (C s a)] {s s' : σ} {as : List α}
    (hs : S.ReachableWhen C s) (hrun : S.runWhen C s as = some s') :
    S.ReachableWhen C s' := by
  induction as generalizing s with
  | nil =>
      simp only [runWhen, Option.some.injEq] at hrun
      exact hrun ▸ hs
  | cons a as ih =>
      simp only [runWhen] at hrun
      split at hrun <;> rename_i hcond
      · split at hrun <;> rename_i hnext
        · exact ih (.step hs hcond hnext) hrun
        · contradiction
      · contradiction

/-- An executable conditional run from the initial state ends in an admitted
state. -/
theorem reachableWhen_of_runWhen {S : System σ α} {C : σ → α → Prop}
    [∀ s a, Decidable (C s a)] {s : σ} {l : List α}
    (hrun : S.runWhen C S.init l = some s) : S.ReachableWhen C s :=
  reachableWhen_of_runWhen_from .init hrun

/-- An executable run is a run. -/
theorem reaches_of_run {S : System σ α} {s s' : σ} {l : List α} (hrun : S.run s l = some s') :
    S.Reaches s s' := by
  induction l generalizing s with
  | nil =>
      simp only [runWhen, Option.some.injEq] at hrun
      exact hrun ▸ .refl
  | cons a as ih =>
      simp only [runWhen, if_true] at hrun
      split at hrun <;> rename_i hnext
      · exact .head ⟨a, hnext⟩ (ih hrun)
      · contradiction

/-- Read a decided property off the end of an executable conditional run. -/
theorem exists_of_runWhen_any {S : System σ α} {C : σ → α → Prop}
    [∀ s a, Decidable (C s a)] {l : List α} {P : σ → Bool}
    (hrun : (S.runWhen C S.init l).any P = true) :
    ∃ s, S.ReachableWhen C s ∧ P s = true := by
  rw [Option.any_eq_true] at hrun
  rcases hrun with ⟨s, hs, hP⟩
  exact ⟨s, reachableWhen_of_runWhen hs, hP⟩

end System

end IrohTransport
