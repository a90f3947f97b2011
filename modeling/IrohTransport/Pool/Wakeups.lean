import IrohTransport.Pool.Steps

/-!
# Waking the tasks of a closed pool

{lit}`Shutdown::close` sets the flag and then calls {lit}`notify_waiters`, which
stores nothing: it reaches the futures that exist at that moment.  The pool actor
reads the flag before it creates its future, and a connection actor reads it once
and then creates a new future in every turn of its loop.  A task that is between
two futures while the waiters are woken hears of the shutdown from neither.

Main results:

- Theorem {lit}`ConnActor.Told.step`: a connection actor that has learnt of the
  shutdown, or waits for it with a notified future, stays so.
- Theorem {lit}`shutdown_reaches_every_task`: as long as the waiters are woken while
  no task is between its last look at the flag and its next future, no task is left
  parked.
- Theorem {lit}`both_tasks_miss_shutdown`: the pool actor and an unleased connection
  actor both park for good.
-/

namespace IrohTransport.Pool

namespace ConnActor

variable {Id : Type}

/-- The task does not know of the shutdown and goes back to its {lit}`select!`
without looking at the flag: it has no future that could be woken. -/
def returning (self : ConnActor Id) : Bool :=
  !self.shutdownPending &&
    match self.pc with
    | .loopHead | .onNotified | .sendIdle => true
    | .onRequest _ => !self.isClosed
    | _ => false

/-- The shutdown has reached the task, or will before the task parks again. -/
structure Told (a : ConnActor Id) : Prop where
  returning : a.returning = false
  parked : ∀ notified, a.pc = .select notified → a.shutdownPending = false → notified = true

/-- A task that has recorded the shutdown has been told. -/
theorem told_of_pending {a : ConnActor Id} (h : a.shutdownPending = true) : a.Told := by
  refine ⟨by simp [returning, h], fun notified _ hpending => ?_⟩
  rw [h] at hpending
  contradiction

/-- A task that neither waits nor goes back to its {lit}`select!` has been told. -/
theorem told_of_leaving {a : ConnActor Id} (hreturning : a.returning = false)
    (hpc : ∀ notified, a.pc ≠ .select notified) : a.Told :=
  ⟨hreturning, fun notified hselect => (hpc notified hselect).elim⟩

/-- A task whose future has been notified has been told. -/
theorem told_woken (a : ConnActor Id) : (a.goto (.select true)).Told := by
  refine ⟨by simp [returning, goto], fun notified hselect _ => ?_⟩
  simpa [goto] using hselect.symm

/-- The {lit}`select!` is biased towards the shutdown: a notified task takes no other
branch. -/
theorem poll_notified {env : Env} {a a' : ConnActor Id} {branch : Branch}
    {effect : Effect Id} (h : a.poll env branch = some (a', effect))
    (hpc : a.pc = .select true) (hpending : a.shutdownPending = false) :
    branch = .shutdown := by
  unfold poll at h
  rw [hpc] at h
  cases branch with
  | shutdown => rfl
  | closed | request | mailboxClosed | notified | idleTimeout =>
      simp [ready, earlier, hpending] at h

/-- Once the flag is set, no move of the task takes it back to sleep untold. -/
theorem Told.step {env : Env} {a a' : ConnActor Id} {event : ConnEvent} {effect : Effect Id}
    (htold : a.Told) (hclosed : env.closed = true)
    (h : a.step env event = some (a', effect)) : a'.Told := by
  cases hpending : a.shutdownPending with
  | true =>
      apply told_of_pending
      cases step_moves h <;> first | exact hpending | exact hclosed | rfl
  | false =>
      have hreturning := htold.returning
      cases step_moves h with
      | readShutdown => exact told_of_pending hclosed
      | shutdownIdle | shutdownLeased => exact told_of_pending rfl
      -- on the way back to the `select!`: excluded by the hypothesis
      | subscribe hpc | notifiedLeased hpc | notifiedIdle hpc | sendIdle hpc =>
          simp [ConnActor.returning, hpending, hpc] at hreturning
      | serveGone tx hpc hopen | serveLease tx hpc hopen =>
          have hnot : a.isClosed = false := by
            by_contra hcl
            rw [isOpen_eq_false_of_isClosed (by simpa using hcl)] at hopen
            contradiction
          simp [ConnActor.returning, hpending, hpc, hnot] at hreturning
      | serveError tx hpc hnone =>
          simp [ConnActor.returning, hpending, hpc, isClosed, hnone] at hreturning
      -- a notified task takes the branch of the shutdown
      | pollRequest notified req rest hpc =>
          obtain rfl := htold.parked notified hpc hpending
          cases poll_notified h hpc hpending
      | pollNotified notified hpc =>
          obtain rfl := htold.parked notified hpc hpending
          cases poll_notified h hpc hpending
      | _ => exact told_of_leaving (by simp [ConnActor.returning, goto, exit]) (by simp [goto, exit])

/-- Nothing but its own moves puts a task to sleep: the others leave its program point
alone, and close its connection at most. -/
theorem Told.congr {a a' : ConnActor Id} (htold : a.Told) (hpc : a'.pc = a.pc)
    (hpending : a'.shutdownPending = a.shutdownPending)
    (hclosed : a.isClosed = true → a'.isClosed = true) : a'.Told := by
  refine ⟨?_, fun notified hselect hfalse => ?_⟩
  · have hreturning := htold.returning
    unfold ConnActor.returning at hreturning ⊢
    rw [hpc, hpending]
    cases hwas : a.isClosed with
    | true =>
        rw [hclosed hwas]
        rw [hwas] at hreturning
        exact hreturning
    | false =>
        cases hnow : a'.isClosed with
        | false =>
            rw [hwas] at hreturning
            exact hreturning
        | true => cases hpca : a.pc <;> simp_all
  · exact htold.parked notified (hpc ▸ hselect) (hpending ▸ hfalse)

end ConnActor

namespace State

variable {Id : Type}

/-- Both halves of {lit}`Shutdown::close` have been carried out. -/
def CloseFinished (s : State Id) : Prop :=
  s.closed = true ∧ s.notifying = false

/-- No task is parked that has not been reached: neither the pool actor nor an unleased
connection actor that does not know of the shutdown. -/
structure NoneLeftParked (s : State Id) : Prop where
  pool : ∀ notified, s.poolPc = .select notified → notified = true
  conns : ∀ (p : Nat) (a : ConnActor Id) (notified : Bool), s.conns[p]? = some a →
    a.pc = .select notified → a.counter.count = 0 → a.shutdownPending = false →
    notified = true

variable [DecidableEq Id]

/-- The step wakes the waiters while the pool actor has read the flag and not created
its future, or while a connection actor that knows of no shutdown is on its way back
to its {lit}`select!`. -/
def wakesBetweenFutures (s : State Id) : Action Id → Bool
  | .notifyWaiters => decide (s.poolPc = .subscribe) || s.conns.any ConnActor.returning
  | _ => false

/-- Every task has been told. -/
structure AllTold (s : State Id) : Prop where
  subscribed : s.poolPc ≠ .subscribe
  parked : ∀ notified, s.poolPc = .select notified → notified = true
  conns : ∀ (p : Nat) (a : ConnActor Id), s.conns[p]? = some a → a.Told

omit [DecidableEq Id] in
theorem AllTold.noneLeftParked {s : State Id} (h : s.AllTold) : s.NoneLeftParked where
  pool := h.parked
  conns := fun p a notified ha hpc _ hpending => (h.conns p a ha).parked notified hpc hpending

/-- Waking the waiters while no task is between two futures tells every task. -/
theorem allTold_of_woken {s s' : State Id} (h : Step s .notifyWaiters s')
    (hwake : s.wakesBetweenFutures .notifyWaiters = false) : s'.AllTold := by
  simp only [wakesBetweenFutures, Bool.or_eq_false_iff, decide_eq_false_iff_not,
    List.any_eq_false] at hwake
  rcases hwake with ⟨hsubscribe, hreturning⟩
  refine ⟨?_, ?_, fun p a' ha' => ?_⟩
  · cases h with
    | notifiedWaiters =>
        cases hpc : s.poolPc <;> simp_all
  · cases h with
    | notifiedWaiters =>
        intro notified hselect
        cases hpc : s.poolPc <;> simp_all
  · have hold : ∀ a, s.conns[p]? = some a → a.returning = false := by
      intro a ha
      simpa using hreturning a (List.mem_of_getElem? ha)
    cases h with
    | notifiedWaiters =>
        simp only [List.getElem?_map, Option.map_eq_some_iff] at ha'
        rcases ha' with ⟨a, ha, rfl⟩
        unfold wake
        split <;> rename_i hpc
        · exact a.told_woken
        · exact ConnActor.told_of_leaving (hold a ha) hpc

/-- Told of the shutdown, the pool actor never waits for it again. -/
theorem AllTold.poolPc_step {s s' : State Id} {action : Action Id} (htold : s.AllTold)
    (hclosed : s.closed = true) (h : Step s action s') :
    s'.poolPc ≠ .subscribe ∧ ∀ notified, s'.poolPc = .select notified → notified = true := by
  have hchange := step_poolPc h
  generalize s'.poolPc = pc at hchange ⊢
  cases hchange with
  | same => exact ⟨htold.subscribed, htold.parked⟩
  | started _ _ _ hopen =>
      rw [hclosed] at hopen
      contradiction
  | checked => simp [hclosed]
  | subscribed hpc => exact (htold.subscribed hpc).elim
  | shutdown | received | joined | handled | spawned | sentFirst | toreDown | finished
  | woken => simp

/-- Told of the shutdown, no connection actor goes back to sleep. -/
theorem AllTold.conns_step {s s' : State Id} {action : Action Id} (htold : s.AllTold)
    (hclosed : s.closed = true) (h : Step s action s') {p : Nat} {a' : ConnActor Id}
    (ha' : s'.conns[p]? = some a') : a'.Told := by
  rcases step_conn h ha' with ⟨a, ha, hchange⟩ | hspawn
  · have hold := htold.conns p a ha
    cases hchange with
    | same => exact hold
    | moved event _ effect hmove => exact hold.step hclosed hmove
    | remoteClosed => exact hold.congr rfl rfl fun _ => rfl
    | woken => exact a.told_woken
    | dropped | notified | forwarded | first => exact hold.congr rfl rfl id
  · cases hspawn with
    | spawned => exact ConnActor.told_of_leaving rfl (by simp [ConnActor.spawn])

/-- Only waking the waiters finishes the close. -/
theorem step_closeFinished {s s' : State Id} {action : Action Id} (h : Step s action s')
    (hwake : action ≠ .notifyWaiters) (hfinished : s'.CloseFinished) : s.CloseFinished := by
  by_cases hclose : action = .close
  · subst hclose
    cases h
    exact absurd hfinished.2 (by simp)
  by_cases htear : action = .pool .teardown
  · subst htear
    cases h
    exact hfinished
  · have hflags := step_flags h hclose hwake htear
    simp only [flags, Prod.mk.injEq] at hflags
    exact ⟨hflags.1.symm.trans hfinished.1, hflags.2.1.symm.trans hfinished.2⟩

/-- Once every task has been told, every step keeps it so. -/
theorem allTold_step {s s' : State Id} {action : Action Id}
    (hinv : s.CloseFinished → s.AllTold) (hwake : s.wakesBetweenFutures action = false)
    (h : Step s action s') (hfinished : s'.CloseFinished) : s'.AllTold := by
  by_cases hnotify : action = .notifyWaiters
  · subst hnotify
    exact allTold_of_woken h hwake
  · have hwas := step_closeFinished h hnotify hfinished
    have hpool := (hinv hwas).poolPc_step hwas.1 h
    exact ⟨hpool.1, hpool.2, fun p a' => (hinv hwas).conns_step hwas.1 h⟩

end State

open State

/-- As long as the waiters are woken while no task is between its last look at the flag
and its next future, no task is left parked once the close has finished. -/
theorem shutdown_reaches_every_task {Id : Type} [DecidableEq Id] (options : PoolOptions)
    {s : State Id}
    (hs : (protocol options).ReachableWhen
      (fun s action => s.wakesBetweenFutures action = false) s)
    (hfinished : s.CloseFinished) : s.NoneLeftParked := by
  have hinv : s.CloseFinished → s.AllTold := by
    apply hs.invariant
    · rintro ⟨hclosed, -⟩
      simp [protocol, initial] at hclosed
    · intro s s' action _ hinv hwake hstep
      exact allTold_step hinv hwake (step_sound hstep)
  exact (hinv hfinished).noneLeftParked

/-! ## Runs -/

/-- Close the pool while the pool actor and the first connection actor wait in their
{lit}`select!`s. -/
def closedWhileParked : List (Action Nat) :=
  [.call 0 7, .send 0, .pool .check, .pool .subscribe, .pool .pollRecv, .pool .handle,
    .pool .sendFirst, .pool .check, .pool .subscribe, .cancel 0, .conn 0 (.connect .ok),
    .conn 0 .resume, .conn 0 .resume, .close, .notifyWaiters]

/-- Both are parked when the waiters are woken, and both have been reached. -/
theorem shutdown_reaches_every_task_parked :
    ∃ s : State Nat,
      (protocol ⟨1⟩).ReachableWhen (fun s action => s.wakesBetweenFutures action = false) s ∧
      s.CloseFinished ∧ s.poolPc = .select true ∧ s.NoneLeftParked := by
  obtain ⟨s, hs, hend⟩ := System.exists_of_runWhen_any (S := protocol ⟨1⟩)
    (C := fun s action => s.wakesBetweenFutures action = false) (l := closedWhileParked)
    (P := fun s => s.closed && !s.notifying && decide (s.poolPc = .select true)) (by decide)
  simp only [Bool.and_eq_true, Bool.not_eq_true', decide_eq_true_eq] at hend
  rcases hend with ⟨⟨hclosed, hnotifying⟩, hpc⟩
  exact ⟨s, hs, ⟨hclosed, hnotifying⟩, hpc,
    shutdown_reaches_every_task ⟨1⟩ hs ⟨hclosed, hnotifying⟩⟩

/-- The first connection fails and its only request is answered.  The pool is closed after
the pool actor has read the flag and before it has created its future, while the
connection actor is at the top of its loop. -/
def closedBetweenFutures : List (Action Nat) :=
  [.call 0 7, .send 0, .pool .check, .pool .subscribe, .pool .pollRecv, .pool .handle,
    .pool .sendFirst, .pool .check, .pool .subscribe, .conn 0 (.connect .failed),
    .conn 0 .resume, .pool .pollRecv, .pool .handle, .conn 0 .resume, .conn 0 .resume,
    .conn 0 (.poll .request), .conn 0 .resume, .recv 0, .pool .check, .close,
    .notifyWaiters, .pool .subscribe, .conn 0 .resume]

/-- The close has finished, and both the pool actor and an unleased connection actor are
parked with neither the flag nor the notification, and with nothing else to do. -/
theorem both_tasks_miss_shutdown :
    ∃ s : State Nat, (protocol ⟨1⟩).Reachable s ∧ s.CloseFinished ∧
      (s.poolPc = .select false ∧ s.queue = []) ∧
      ∃ a, s.conns[0]? = some a ∧ a.pc = .select false ∧ a.counter.count = 0 ∧
        a.shutdownPending = false ∧ a.mailbox = [] := by
  obtain ⟨s, hs, hend⟩ := System.exists_of_runWhen_any (S := protocol ⟨1⟩)
    (C := fun _ _ => True) (l := closedBetweenFutures)
    (P := fun s => (s.closed && !s.notifying) &&
      (decide (s.poolPc = .select false) && s.queue.isEmpty) &&
      (s.conns[0]?).any fun a =>
        a.pc = .select false && (a.counter.count = 0 && (!a.shutdownPending &&
          a.mailbox.isEmpty))) (by decide)
  simp only [Bool.and_eq_true, Bool.not_eq_true', decide_eq_true_eq, List.isEmpty_iff,
    Option.any_eq_true] at hend
  rcases hend with ⟨⟨hfinished, hpool⟩, a, ha, hparked⟩
  exact ⟨s, hs, hfinished, hpool, a, ha, hparked⟩

end IrohTransport.Pool
