import IrohTransport.Pool.PoolActor
import IrohTransport.Lib.Runs

/-!
# Starting the pool actor

The handles of a pool share one {lit}`Shared`, whose {lit}`tx` starts the pool actor when it
is first needed.  It looks at the runtime without a lock, takes the lock if there is none,
and looks again; in between other tasks do the same, and the flag may be closed.  What looks
like one step of a call in the pool protocol is taken apart here.

Main results:

- Theorem {lit}`Startup.Inv.step`: the holder of the lock alone starts an actor.
- Theorem {lit}`pool_actor_starts_once`: at most one actor is started, all calls get its
  sender, and none panics.
-/

namespace IrohTransport.Pool

/-- Program points of {lit}`Shared::tx`, in the order of its source. -/
inductive TxPc
  | notCalled
  | readFlag
  | getRuntime
  | lock
  | readFlagLocked
  | getRuntimeLocked
  | newActor
  | setRuntime (actor : Nat)
  | unlock (result : Except PoolError Nat)
  | returned (result : Except PoolError Nat)
  | panicked
deriving DecidableEq

/-- The call holds the lock. -/
def TxPc.locked : TxPc → Bool
  | .readFlagLocked | .getRuntimeLocked | .newActor | .setRuntime _ | .unlock _ => true
  | _ => false

/-- The part of {lit}`Shared` that {lit}`tx` works on, and the calls.  A sender is known by
the actor it sends to, and actors are numbered as they are spawned. -/
structure Startup where
  runtime : Option Nat
  /-- The call that holds {lit}`runtime_init`. -/
  guard : Option Nat
  poisoned : Bool
  closed : Bool
  actors : Nat
  calls : Nat → TxPc

/-- A call begins or goes on, or the flag is closed. -/
inductive StartupAction
  | call (c : Nat)
  | turn (c : Nat)
  | close
deriving DecidableEq

namespace Startup

/-- A shared state that nobody has used. -/
def new : Startup where
  runtime := none
  guard := none
  poisoned := false
  closed := false
  actors := 0
  calls := fun _ => .notCalled

def goto (s : Startup) (c : Nat) (pc : TxPc) : Startup :=
  { s with calls := Function.update s.calls c pc }

/-- The next move of a call. -/
def turn (s : Startup) (c : Nat) : Option Startup :=
  match s.calls c with
  | .notCalled | .returned _ | .panicked => none
  | .readFlag =>
      some (s.goto c (if s.closed then .returned (.error .shutdown) else .getRuntime))
  | .getRuntime =>
      match s.runtime with
      | some actor => some (s.goto c (.returned (.ok actor)))
      | none => some (s.goto c .lock)
  | .lock =>
      if s.guard.isSome then none
      -- `expect` on a poisoned lock
      else if s.poisoned then some (s.goto c .panicked)
      else some { s.goto c .readFlagLocked with guard := some c }
  | .readFlagLocked =>
      some (s.goto c (if s.closed then .unlock (.error .shutdown) else .getRuntimeLocked))
  | .getRuntimeLocked =>
      match s.runtime with
      | some actor => some (s.goto c (.unlock (.ok actor)))
      | none => some (s.goto c .newActor)
  | .newActor => some { s.goto c (.setRuntime s.actors) with actors := s.actors + 1 }
  | .setRuntime actor =>
      match s.runtime with
      | none => some { s.goto c (.unlock (.ok actor)) with runtime := some actor }
      -- `expect` on a cell that is set, with the lock held
      | some _ => some { s.goto c .panicked with guard := none, poisoned := true }
  | .unlock result => some { s.goto c (.returned result) with guard := none }

def step (s : Startup) : StartupAction → Option Startup
  | .call c => if s.calls c = .notCalled then some (s.goto c .readFlag) else none
  | .turn c => s.turn c
  | .close => if s.closed then none else some { s with closed := true }

def system : System Startup StartupAction where
  init := new
  step := step

/-! ## The holder of the lock -/

variable {s s' : Startup}

/-- What a call knows at its program point. -/
def Known (s : Startup) : TxPc → Prop
  | .newActor => s.runtime = none ∧ s.actors = 0
  | .setRuntime actor => s.runtime = none ∧ actor = 0 ∧ s.actors = 1
  | .unlock result | .returned result =>
      match result with
      | .ok actor => s.runtime = some actor
      | .error error => error = .shutdown ∧ s.closed = true
  | .panicked => False
  | _ => True

/-- The lock is held by the call inside it, an actor is started by the holder of the lock
only, and the runtime is that actor's. -/
structure Inv (s : Startup) : Prop where
  guarded : ∀ c, (s.calls c).locked = true ↔ s.guard = some c
  sound : s.poisoned = false
  known : ∀ c, s.Known (s.calls c)
  running : ∀ actor, s.runtime = some actor → actor = 0 ∧ s.actors = 1
  unset : s.runtime = none → (∀ c, s.calls c ≠ .setRuntime 0) → s.actors = 0

/-- What a call knows outlives whatever leaves the runtime and the closed flag set, and the
rest alone while the call holds the lock. -/
theorem Known.mono {pc : TxPc} (h : s.Known pc)
    (hruntime : ∀ actor, s.runtime = some actor → s'.runtime = some actor)
    (hclosed : s.closed = true → s'.closed = true)
    (hlocked : pc.locked = true → s'.runtime = s.runtime ∧ s'.actors = s.actors) :
    s'.Known pc := by
  cases pc with
  | newActor =>
      rcases hlocked rfl with ⟨hsame, hactors⟩
      exact ⟨hsame.trans h.1, hactors.trans h.2⟩
  | setRuntime actor =>
      rcases hlocked rfl with ⟨hsame, hactors⟩
      exact ⟨hsame.trans h.1, h.2.1, hactors.trans h.2.2⟩
  | unlock result | returned result =>
      cases result with
      | ok actor => exact hruntime actor h
      | error error => exact h.imp_right hclosed
  | panicked => exact h
  | notCalled | readFlag | getRuntime | lock | readFlagLocked | getRuntimeLocked => trivial

namespace Inv

/-- Another call than the holder does not hold the lock. -/
theorem eq_of_locked (h : Inv s) {c d : Nat} (hc : (s.calls c).locked = true)
    (hd : (s.calls d).locked = true) : d = c :=
  Option.some.inj (((h.guarded d).mp hd).symm.trans ((h.guarded c).mp hc))

/-- A call moves, and nothing else but the lock, which it takes or gives back. -/
theorem goto (h : Inv s) {c : Nat} {pc : TxPc} {guard : Option Nat}
    (hself : pc.locked = true ↔ guard = some c)
    (hothers : ∀ d, d ≠ c → (guard = some d ↔ s.guard = some d)) (hknown : s.Known pc)
    (hset : ∀ actor, s.calls c ≠ .setRuntime actor) :
    Inv { s.goto c pc with guard := guard } where
  guarded d := by
    by_cases hd : d = c
    · subst hd
      simpa [Startup.goto] using hself
    · simpa [Startup.goto, Function.update_of_ne hd, hothers d hd] using h.guarded d
  sound := h.sound
  known d := by
    have hsame : ∀ pc', s.Known pc' → Known { s.goto c pc with guard := guard } pc' :=
      fun pc' hwas => hwas.mono (fun _ => id) id fun _ => ⟨rfl, rfl⟩
    by_cases hd : d = c
    · subst hd
      simpa only [Startup.goto, Function.update_self] using hsame _ hknown
    · simpa only [Startup.goto, Function.update_of_ne hd] using hsame _ (h.known d)
  running := h.running
  unset hnone hcalls := by
    refine h.unset hnone fun d => ?_
    by_cases hd : d = c
    · subst hd
      exact hset 0
    · simpa [Startup.goto, Function.update_of_ne hd] using hcalls d

/-- A call moves inside the lock or outside. -/
theorem stay (h : Inv s) {c : Nat} {pc : TxPc} (hlocked : pc.locked = (s.calls c).locked)
    (hknown : s.Known pc) (hset : ∀ actor, s.calls c ≠ .setRuntime actor) : Inv (s.goto c pc) :=
  h.goto (hlocked ▸ h.guarded c) (fun _ _ => Iff.rfl) hknown hset

/-- The holder of the lock starts an actor. -/
theorem start (h : Inv s) {c : Nat} (hpc : s.calls c = .newActor) :
    Inv { s.goto c (.setRuntime s.actors) with actors := s.actors + 1 } := by
  have hlocked : (s.calls c).locked = true := by rw [hpc]; rfl
  have hknown := h.known c
  rw [hpc] at hknown
  rcases hknown with ⟨hnone, hactors⟩
  constructor
  case guarded =>
    intro d
    by_cases hd : d = c
    · subst hd
      simpa [Startup.goto, TxPc.locked] using (h.guarded d).mp hlocked
    · simpa [Startup.goto, Function.update_of_ne hd] using h.guarded d
  case sound => exact h.sound
  case known =>
    intro d
    by_cases hd : d = c
    · subst hd
      simp [Startup.goto, Known, hnone, hactors]
    · simp only [Startup.goto, Function.update_of_ne hd]
      refine (h.known d).mono (fun _ => id) id fun hother => ?_
      exact (hd (h.eq_of_locked hlocked hother)).elim
  case running =>
    intro actor hactor
    exact nomatch hnone.symm.trans hactor
  case unset =>
    intro _ hcalls
    exact (hcalls c (by simp [Startup.goto, hactors])).elim

/-- The holder of the lock publishes the sender of the actor it has started. -/
theorem publish (h : Inv s) {c actor : Nat} (hpc : s.calls c = .setRuntime actor) :
    Inv { s.goto c (.unlock (.ok actor)) with runtime := some actor } := by
  have hlocked : (s.calls c).locked = true := by rw [hpc]; rfl
  have hknown := h.known c
  rw [hpc] at hknown
  rcases hknown with ⟨hnone, rfl, hactors⟩
  constructor
  case guarded =>
    intro d
    by_cases hd : d = c
    · subst hd
      simpa [Startup.goto, TxPc.locked] using (h.guarded d).mp hlocked
    · simpa [Startup.goto, Function.update_of_ne hd] using h.guarded d
  case sound => exact h.sound
  case known =>
    intro d
    by_cases hd : d = c
    · subst hd
      simp [Startup.goto, Known]
    · simp only [Startup.goto, Function.update_of_ne hd]
      refine (h.known d).mono (fun actor hset => ?_) id fun hother => ?_
      · rw [hnone] at hset
        contradiction
      · exact (hd (h.eq_of_locked hlocked hother)).elim
  case running =>
    intro actor hactor
    obtain rfl := Option.some.inj hactor
    exact ⟨rfl, hactors⟩
  case unset => exact fun hset => nomatch hset

/-- The holder of the lock alone starts an actor, and no call panics. -/
theorem turn (h : Inv s) {c : Nat} (hturn : s.turn c = some s') : Inv s' := by
  have hknown := h.known c
  unfold Startup.turn at hturn
  cases hpc : s.calls c with
  | notCalled | returned result | panicked =>
      rw [hpc] at hturn
      contradiction
  | readFlag =>
      rw [hpc] at hturn
      obtain rfl := Option.some.inj hturn
      cases hclosed : s.closed with
      | true => exact h.stay (by rw [hpc]; rfl) ⟨rfl, hclosed⟩ (by simp [hpc])
      | false => exact h.stay (by rw [hpc]; rfl) trivial (by simp [hpc])
  | getRuntime =>
      rw [hpc] at hturn
      cases hruntime : s.runtime with
      | some actor =>
          rw [hruntime] at hturn
          exact Option.some.inj hturn ▸ h.stay (by rw [hpc]; rfl) hruntime (by simp [hpc])
      | none =>
          rw [hruntime] at hturn
          exact Option.some.inj hturn ▸ h.stay (by rw [hpc]; rfl) trivial (by simp [hpc])
  | lock =>
      simp only [hpc, h.sound, Bool.false_eq_true, if_false] at hturn
      split at hturn <;> rename_i hfree
      · contradiction
      · obtain rfl := Option.some.inj hturn
        have hnone : s.guard = none := by simpa using hfree
        refine h.goto (by simp [TxPc.locked]) (fun d hd => ?_) trivial (by simp [hpc])
        simp [hnone, Ne.symm hd]
  | readFlagLocked =>
      rw [hpc] at hturn
      obtain rfl := Option.some.inj hturn
      cases hclosed : s.closed with
      | true => exact h.stay (by rw [hpc]; rfl) ⟨rfl, hclosed⟩ (by simp [hpc])
      | false => exact h.stay (by rw [hpc]; rfl) trivial (by simp [hpc])
  | getRuntimeLocked =>
      rw [hpc] at hturn
      cases hruntime : s.runtime with
      | some actor =>
          rw [hruntime] at hturn
          exact Option.some.inj hturn ▸ h.stay (by rw [hpc]; rfl) hruntime (by simp [hpc])
      | none =>
          rw [hruntime] at hturn
          have hlocked : (s.calls c).locked = true := by rw [hpc]; rfl
          have hactors : s.actors = 0 := by
            refine h.unset hruntime fun d hset => ?_
            have hd : d = c := h.eq_of_locked hlocked (by rw [hset]; rfl)
            rw [hd, hpc] at hset
            contradiction
          exact Option.some.inj hturn ▸
            h.stay (by rw [hpc]; rfl) ⟨hruntime, hactors⟩ (by simp [hpc])
  | newActor =>
      rw [hpc] at hturn
      exact Option.some.inj hturn ▸ h.start hpc
  | setRuntime actor =>
      rw [hpc] at hturn hknown
      rw [hknown.1] at hturn
      exact Option.some.inj hturn ▸ h.publish hpc
  | unlock result =>
      rw [hpc] at hturn hknown
      obtain rfl := Option.some.inj hturn
      have hheld : s.guard = some c := (h.guarded c).mp (by rw [hpc]; rfl)
      refine h.goto (by simp [TxPc.locked]) (fun d hd => ?_) hknown (by simp [hpc])
      simp [hheld, Ne.symm hd]

/-- Every step keeps the invariant. -/
theorem step (h : Inv s) {action : StartupAction} (hstep : s.step action = some s') : Inv s' := by
  cases action with
  | call c =>
      simp only [Startup.step] at hstep
      split at hstep <;> rename_i hpc
      · exact Option.some.inj hstep ▸ h.stay (by rw [hpc]; rfl) trivial (by simp [hpc])
      · contradiction
  | turn c => exact h.turn hstep
  | close =>
      simp only [Startup.step] at hstep
      split at hstep
      · contradiction
      · obtain rfl := Option.some.inj hstep
        exact
          { guarded := h.guarded
            sound := h.sound
            known := fun c => (h.known c).mono (fun _ => id) (fun _ => rfl) fun _ => ⟨rfl, rfl⟩
            running := h.running
            unset := h.unset }

end Inv

theorem inv_of_reachable (hs : system.Reachable s) : Inv s := by
  refine hs.invariant ?_ fun _ _ _ _ hinv _ hstep => hinv.step hstep
  exact
    { guarded := fun c => by simp [system, new, TxPc.locked]
      sound := rfl
      known := fun _ => trivial
      running := fun _ hset => nomatch hset
      unset := fun _ _ => rfl }

/-- A call inside its body can move, or waits for a lock whose holder can. -/
theorem exists_turn (h : Inv s) {c : Nat} (hcalled : s.calls c ≠ .notCalled)
    (hopen : ∀ result, s.calls c ≠ .returned result) :
    (s.turn c).isSome = true ∨ ∃ d, s.guard = some d ∧ (s.turn d).isSome = true := by
  have hmoves : ∀ d, (s.calls d).locked = true → (s.turn d).isSome = true := by
    intro d hlocked
    unfold turn
    cases hpc : s.calls d with
    | getRuntimeLocked | setRuntime actor => cases hruntime : s.runtime <;> rfl
    | readFlagLocked | newActor | unlock result => rfl
    | notCalled | readFlag | getRuntime | lock | returned result | panicked =>
        rw [hpc] at hlocked
        contradiction
  cases hpc : s.calls c with
  | notCalled => exact (hcalled hpc).elim
  | returned result => exact (hopen result hpc).elim
  | panicked =>
      have hknown := h.known c
      rw [hpc] at hknown
      exact hknown.elim
  | lock =>
      cases hguard : s.guard with
      | some d => exact .inr ⟨d, rfl, hmoves d ((h.guarded d).mpr hguard)⟩
      | none => simp [turn, hpc, hguard, h.sound]
  | readFlag => exact .inl (by simp [turn, hpc])
  | getRuntime =>
      left
      cases hruntime : s.runtime <;> simp [turn, hpc, hruntime]
  | readFlagLocked | getRuntimeLocked | newActor | setRuntime actor | unlock result =>
      exact .inl (hmoves c (by rw [hpc]; rfl))

end Startup

open Startup

/-- However any number of calls of {lit}`tx` and the closing of the flag interleave: at most
one pool actor is started; no call panics, neither on the poisoned lock nor on a runtime
that is set already; every call that gets a sender gets that of this one actor, and every
other call has found the flag closed; no two calls are inside the lock; and no call is ever
blocked for good. -/
theorem pool_actor_starts_once {s : Startup} (hs : system.Reachable s) :
    s.actors ≤ 1 ∧
      (∀ c, s.calls c ≠ .panicked) ∧
      (∀ c actor, s.calls c = .returned (.ok actor) →
        actor = 0 ∧ s.actors = 1 ∧ s.runtime = some actor) ∧
      (∀ c error, s.calls c = .returned (.error error) → error = .shutdown ∧ s.closed = true) ∧
      (∀ c d, (s.calls c).locked = true → (s.calls d).locked = true → d = c) ∧
      ∀ c, s.calls c ≠ .notCalled → (∀ result, s.calls c ≠ .returned result) →
        (s.turn c).isSome = true ∨ ∃ d, s.guard = some d ∧ (s.turn d).isSome = true := by
  have hinv := inv_of_reachable hs
  refine ⟨?_, ?_, ?_, ?_, fun c d => hinv.eq_of_locked, fun c => exists_turn hinv⟩
  · cases hruntime : s.runtime with
    | some actor => exact Nat.le_of_eq (hinv.running actor hruntime).2
    | none =>
        by_cases hset : ∀ c, s.calls c ≠ .setRuntime 0
        · rw [hinv.unset hruntime hset]
          exact Nat.zero_le 1
        · rcases not_forall_not.mp hset with ⟨c, hpc⟩
          have hknown := hinv.known c
          rw [hpc] at hknown
          exact Nat.le_of_eq hknown.2.2
  · intro c hpc
    have hknown := hinv.known c
    rwa [hpc] at hknown
  · intro c actor hpc
    have hknown := hinv.known c
    rw [hpc] at hknown
    exact ⟨(hinv.running actor hknown).1, (hinv.running actor hknown).2, hknown⟩
  · intro c error hpc
    have hknown := hinv.known c
    rwa [hpc] at hknown

/-- Two first calls meet at the lock. -/
def twoFirstCalls : List StartupAction :=
  [.call 0, .call 1, .turn 0, .turn 1, .turn 0, .turn 1, .turn 1, .turn 1, .turn 1, .turn 1,
    .turn 1, .turn 1, .turn 0, .turn 0, .turn 0, .turn 0]

/-- The second starts the actor and both get its sender. -/
theorem pool_actor_starts_once_contended :
    ∃ s : Startup, system.Reachable s ∧ s.calls 0 = .returned (.ok 0) ∧
      s.calls 1 = .returned (.ok 0) ∧ s.actors ≤ 1 := by
  obtain ⟨s, hs, hboth⟩ := System.exists_of_runWhen_any (S := system) (C := fun _ _ => True)
    (l := twoFirstCalls)
    (P := fun s => decide (s.calls 0 = .returned (.ok 0)) && decide (s.calls 1 = .returned (.ok 0)))
    (by decide)
  simp only [Bool.and_eq_true, decide_eq_true_eq] at hboth
  exact ⟨s, hs, hboth.1, hboth.2, (pool_actor_starts_once hs).1⟩

end IrohTransport.Pool
