import IrohTransport.Lib.Runs
import Mathlib.Data.Finset.Card

/-!
# Handles of a pool

A pool is shared by its clones, and the drop of a clone shuts the pool down if it is the
last one.  A drop looks at the reference count first and gives its own reference up
afterwards, so drops of different clones can overlap: each then counts the other.

Main results:

- Theorem {lit}`Handles.held_eq_empty_of_closed`: the pool is never shut down under a
  handle that is still held.
- Theorem {lit}`last_handle_shuts_down`: the pool is shut down with its last handle if
  the last drop to start overlaps no other, and only then.
-/

namespace IrohTransport.Pool

/-- The clones of a pool that are held and those that have looked at the reference count
but not given up their reference yet. -/
structure Handles where
  held : Finset Nat
  dropping : Finset Nat
  /-- The name of the next clone. -/
  next : Nat
  /-- The shutdown flag. -/
  closed : Bool
deriving DecidableEq

/-- A step of one task. -/
inductive HandleAction where
  | clone (h : Nat)
  /-- Read the reference count, and shut down if it is one. -/
  | check (h : Nat)
  /-- Give the reference up. -/
  | release (h : Nat)

namespace Handles

/-- The reference count of the shared state. -/
def strongCount (s : Handles) : Nat := s.held.card + s.dropping.card

/-- The first half of a drop. -/
def check (s : Handles) (h : Nat) : Handles :=
  { s with
    held := s.held.erase h
    dropping := insert h s.dropping
    closed := s.closed || decide (s.strongCount = 1) }

def step (s : Handles) : HandleAction → Option Handles
  | .clone h =>
      if h ∈ s.held then some { s with held := insert s.next s.held, next := s.next + 1 } else none
  | .check h => if h ∈ s.held then some (s.check h) else none
  | .release h => if h ∈ s.dropping then some { s with dropping := s.dropping.erase h } else none

/-- A new pool with its first handle, cloned and dropped in any order. -/
def system : System Handles HandleAction where
  init :=
    { held := {0}
      dropping := ∅
      next := 1
      closed := false }
  step := step

/-- The last handle to be dropped starts its drop after all others have ended theirs. -/
def LastDropAlone (s : Handles) : HandleAction → Prop
  | .check h => s.held = {h} → s.dropping = ∅
  | _ => True

instance (s : Handles) (a : HandleAction) : Decidable (s.LastDropAlone a) :=
  match a with
  | .check h => inferInstanceAs (Decidable (s.held = {h} → s.dropping = ∅))
  | .clone _ | .release _ => inferInstanceAs (Decidable True)

/-- Shut down without handles, and not while one is held. -/
def ShutDownAtLast (s : Handles) : Prop :=
  (s.held = ∅ → s.dropping = ∅ → s.closed = true) ∧ (s.held.Nonempty → s.closed = false)

variable {s s' : Handles} {a : HandleAction}

/-- What a step can do. -/
theorem step_cases (h : s.step a = some s') :
    (∃ i ∈ s.held, a = .clone i ∧
      s' = { s with held := insert s.next s.held, next := s.next + 1 }) ∨
    (∃ i ∈ s.held, a = .check i ∧ s' = s.check i) ∨
    (∃ i ∈ s.dropping, a = .release i ∧ s' = { s with dropping := s.dropping.erase i }) := by
  cases a with
  | clone i =>
      simp only [step] at h
      split at h <;> rename_i hmem
      · exact Or.inl ⟨i, hmem, rfl, (Option.some.inj h).symm⟩
      · contradiction
  | check i =>
      simp only [step] at h
      split at h <;> rename_i hmem
      · exact Or.inr (Or.inl ⟨i, hmem, rfl, (Option.some.inj h).symm⟩)
      · contradiction
  | release i =>
      simp only [step] at h
      split at h <;> rename_i hmem
      · exact Or.inr (Or.inr ⟨i, hmem, rfl, (Option.some.inj h).symm⟩)
      · contradiction

/-- A count of one is that of the handle that reads it. -/
theorem eq_singleton_of_strongCount {i : Nat} (hmem : i ∈ s.held) (hcount : s.strongCount = 1) :
    s.held = {i} ∧ s.dropping = ∅ := by
  have hpos : 0 < s.held.card := Finset.card_pos.mpr ⟨i, hmem⟩
  unfold strongCount at hcount
  refine ⟨?_, Finset.card_eq_zero.mp (by omega)⟩
  rcases Finset.card_eq_one.mp (show s.held.card = 1 by omega) with ⟨j, hj⟩
  rw [hj] at hmem ⊢
  rw [Finset.mem_singleton.mp hmem]

/-- The pool is only shut down when no handle is held. -/
theorem held_eq_empty_of_closed (hs : system.Reachable s) (hclosed : s.closed = true) :
    s.held = ∅ := by
  induction hs with
  | init => exact absurd hclosed Bool.false_ne_true
  | step _ _ hstep ih =>
      rcases step_cases hstep with ⟨i, hmem, -, rfl⟩ | ⟨i, hmem, -, rfl⟩ | ⟨i, -, -, rfl⟩
      · -- a clone is made from a handle that is held
        rw [ih hclosed] at hmem
        simp at hmem
      · simp only [check, Bool.or_eq_true, decide_eq_true_eq] at hclosed
        rcases hclosed with hclosed | hcount
        · rw [ih hclosed] at hmem
          simp at hmem
        · simp [check, (eq_singleton_of_strongCount hmem hcount).1]
      · exact ih hclosed

/-- If the last drop overlaps no other, the pool is shut down once no handle is held. -/
theorem closed_of_held_eq_empty (hs : system.ReachableWhen LastDropAlone s) (hnone : s.held = ∅) :
    s.closed = true := by
  induction hs with
  | init => simp [system] at hnone
  | @step s _ _ _ hcond hstep ih =>
      rcases step_cases hstep with ⟨i, hmem, -, rfl⟩ | ⟨i, hmem, rfl, rfl⟩ | ⟨i, -, -, rfl⟩
      · simp at hnone
      · have hlast : s.held = {i} := by
          apply Finset.eq_singleton_iff_unique_mem.mpr
          refine ⟨hmem, ?_⟩
          intro j hj
          by_contra hne
          have hstill : j ∈ s.held.erase i := Finset.mem_erase.mpr ⟨hne, hj⟩
          have hempty : s.held.erase i = ∅ := hnone
          simp [hempty] at hstill
        have hcount : s.strongCount = 1 := by
          rw [strongCount, hlast, hcond hlast]
          rfl
        simp [check, hcount]
      · exact ih hnone

/-- Handles that are being dropped can all be released. -/
theorem exists_released (hnone : s.held = ∅) :
    ∃ s', system.Reaches s s' ∧ s'.held = ∅ ∧ s'.dropping = ∅ ∧ s'.closed = s.closed := by
  induction hcard : s.dropping.card generalizing s with
  | zero => exact ⟨s, .refl, hnone, Finset.card_eq_zero.mp hcard, rfl⟩
  | succ n ih =>
      rcases Finset.card_pos.mp (show 0 < s.dropping.card by omega) with ⟨i, hi⟩
      have hstep : system.step s (.release i) = some { s with dropping := s.dropping.erase i } :=
        if_pos hi
      have hrest : (s.dropping.erase i).card = n := by
        rw [Finset.card_erase_of_mem hi]
        omega
      obtain ⟨s', hs', hend⟩ := ih (s := { s with dropping := s.dropping.erase i }) hnone hrest
      exact ⟨s', .head ⟨_, hstep⟩ hs', hend⟩

end Handles

open Handles

/-- If in a run the last handle always starts its drop alone, the pool is shut down when
no handle remains and not while one is held.  If the last handle can start its drop beside
another, the run can go on until no handle remains and the pool is still up. -/
theorem last_handle_shuts_down (s : Handles) :
    (system.ReachableWhen LastDropAlone s → s.ShutDownAtLast) ∧
    ∀ h, system.Reachable s → s.held = {h} → s.dropping ≠ ∅ →
      ∃ s', system.Reaches s s' ∧ s'.held = ∅ ∧ s'.dropping = ∅ ∧ s'.closed = false := by
  constructor
  · intro hs
    refine ⟨fun hheld _ => closed_of_held_eq_empty hs hheld, ?_⟩
    intro hheld
    rw [Bool.eq_false_iff]
    intro hclosed
    exact hheld.ne_empty (held_eq_empty_of_closed hs.reachable hclosed)
  · intro h hs hheld hdropping
    have hmem : h ∈ s.held := hheld ▸ Finset.mem_singleton_self h
    have hstep : system.step s (.check h) = some (s.check h) := if_pos hmem
    have hopen : (s.check h).closed = false := by
      rw [Bool.eq_false_iff]
      intro hclosed
      simp only [check, Bool.or_eq_true, decide_eq_true_eq] at hclosed
      rcases hclosed with hclosed | hcount
      · rw [held_eq_empty_of_closed hs hclosed] at hmem
        simp at hmem
      · exact hdropping (eq_singleton_of_strongCount hmem hcount).2
    have hnone : (s.check h).held = ∅ := by simp [check, hheld]
    rcases exists_released hnone with ⟨s', hs', hheld', hdropping', hsame⟩
    exact ⟨s', .head ⟨_, hstep⟩ hs', hheld', hdropping', hsame.trans hopen⟩

/-- Two clones dropped one after the other, and side by side. -/
theorem last_handle_shuts_down_twice :
    (∃ s, system.ReachableWhen LastDropAlone s ∧ s.held = ∅ ∧ s.dropping = ∅ ∧
      s.closed = true) ∧
    ∃ s, system.Reachable s ∧ s.held = {1} ∧ s.dropping = {0} ∧
      ∃ s', system.Reaches s s' ∧ s'.held = ∅ ∧ s'.dropping = ∅ ∧ s'.closed = false := by
  constructor
  · obtain ⟨s, hs, hend⟩ := System.exists_of_runWhen_any (S := system) (C := LastDropAlone)
      (l := [.clone 0, .check 0, .release 0, .check 1, .release 1])
      (P := fun s => decide (s.held = ∅ ∧ s.dropping = ∅)) (by decide +kernel)
    rcases of_decide_eq_true hend with ⟨hheld, hdropping⟩
    exact ⟨s, hs, hheld, hdropping, ((last_handle_shuts_down s).1 hs).1 hheld hdropping⟩
  · obtain ⟨s, hs, hend⟩ := System.exists_of_runWhen_any (S := system) (C := fun _ _ => True)
      (l := [.clone 0, .check 0]) (P := fun s => decide (s.held = {1} ∧ s.dropping = {0}))
      (by decide +kernel)
    rcases of_decide_eq_true hend with ⟨hheld, hdropping⟩
    exact ⟨s, hs, hheld, hdropping,
      (last_handle_shuts_down s).2 1 hs hheld (by rw [hdropping]; decide)⟩

/-- Two clones dropped side by side: each counts the other, and nobody shuts the pool
down. -/
theorem overlapping_drops_leave_pool_running :
    ¬∀ s, system.Reachable s → s.ShutDownAtLast := by
  intro h
  rcases System.exists_of_runWhen_any (S := system) (C := fun _ _ => True)
    (l := [.clone 0, .check 0, .check 1, .release 0, .release 1])
    (P := fun s => decide (s.held = ∅ ∧ s.dropping = ∅ ∧ s.closed = false)) (by decide +kernel) with
    ⟨s, hs, hend⟩
  rw [decide_eq_true_eq] at hend
  have hclosed := (h s hs).1 hend.1 hend.2.1
  rw [hend.2.2] at hclosed
  contradiction

end IrohTransport.Pool
