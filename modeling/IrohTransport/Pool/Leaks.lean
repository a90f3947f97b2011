import IrohTransport.Pool.Leases
import IrohTransport.Pool.Slots

/-!
# Actors that never stop

An actor that nobody needs any more should end.  What wakes it is a stored permit,
its idle timer, a shutdown notification or the end of its connection; its mailbox
never closes, because the actor holds a sender of it.  An actor whose connect failed
has none of the first two and no connection, so that only a shutdown notification
ends it, and one that found the flag closed already does not even wait for that.

Main results:

- Theorem {lit}`ConnActor.Stuck.not_canStop`: the states an actor cannot leave by its
  own moves.
- Theorem {lit}`restInv_of_reachable`: a connected actor at rest has a permit, a timer,
  a notification or a request coming.
- Theorem {lit}`quiescent_actor_stops_iff`: exactly which quiescent actors can stop.
- Theorem {lit}`failed_connect_leaks`: a failed connect leaves an actor that cannot.
-/

namespace IrohTransport.Pool

namespace ConnActor

variable {Id : Type}

/-! ## What an actor can do by itself -/

/-- The actor can stop by its own moves, in a fixed environment that takes its
messages. -/
inductive CanStop (env : Env) : ConnActor Id → Prop
  | stopped {a : ConnActor Id} : a.pc = .stopped → CanStop env a
  | move {a : ConnActor Id} (event : ConnEvent) (a' : ConnActor Id) (effect : Effect Id) :
      a.step env event = some (a', effect) → CanStop env a' → CanStop env a

/-- Nothing wakes an actor that waits in its {lit}`select!`, except from outside. -/
def Asleep (a : ConnActor Id) : Prop :=
  a.idleActive = false ∧
    (a.connection = none ∨ a.counter.permit = false ∨ a.counter.count ≠ 0)

/-- The actor stays in its loop for good unless something comes from outside. -/
def Stuck (env : Env) (a : ConnActor Id) : Prop :=
  a.isClosed = false ∧ a.mailbox = [] ∧
    match a.pc with
    | .reportFailure | .readShutdown | .loopHead | .select false => a.Asleep
    | .select true => a.shutdownPending = true ∧ a.Asleep
    | .onRequest tx =>
        (a.connection = none ∧ a.idleActive = false) ∨
          (a.isOpen = true ∧ env.gone tx = false)
    | .onNotified => a.idleActive = false ∧ a.counter.count ≠ 0
    | _ => False

/-- A stuck actor stays stuck. -/
theorem Stuck.step {env : Env} {a a' : ConnActor Id} {ev : ConnEvent} {eff : Effect Id}
    (hstuck : Stuck env a) (h : a.step env ev = some (a', eff)) : Stuck env a' := by
  rcases hstuck with ⟨hclosed, hmail, hpoint⟩
  cases step_moves h with
  | reportFailure hpc | readShutdown hpc | subscribe hpc =>
      rw [hpc] at hpoint
      exact ⟨hclosed, hmail, hpoint⟩
  | serveClosed tx hpc hwas | pollClosed notified hpc hwas =>
      rw [hwas] at hclosed
      contradiction
  | serveGone tx hpc hopen hcount hgone =>
      rw [hpc] at hpoint
      rcases hpoint with ⟨hnone, _⟩ | ⟨_, hwaits⟩
      · simp [isOpen, hnone] at hopen
      · rw [hgone] at hwaits
        contradiction
  | serveLease tx hpc hopen hcount =>
      have hone := ConnectionCounter.getOne_count hcount
      exact ⟨hclosed, hmail, rfl, .inr (.inr (by simp [hone]))⟩
  | serveError tx hpc hnone =>
      rw [hpc] at hpoint
      rcases hpoint with ⟨_, hidle⟩ | ⟨hopen, _⟩
      · exact ⟨hclosed, hmail, hidle, .inl hnone⟩
      · simp [isOpen, hnone] at hopen
  | notifiedLeased hpc hleased =>
      rw [hpc] at hpoint
      exact ⟨hclosed, hmail, hpoint.1, .inr (.inr hleased)⟩
  | notifiedPending hpc hzero | notifiedIdle hpc hzero =>
      rw [hpc] at hpoint
      exact (hpoint.2 hzero).elim
  | pollShutdown hpc hpending =>
      rw [hpc] at hpoint
      rw [hpoint.1] at hpending
      contradiction
  | pollRequest notified req rest hpc hcons =>
      rw [hmail] at hcons
      contradiction
  | pollNotified notified hpc _ _ hsome hpermit =>
      have hasleep : a.Asleep := by
        rw [hpc] at hpoint
        cases notified with
        | false => exact hpoint
        | true => exact hpoint.2
      rcases hasleep with ⟨hidle, hnone | hquiet | hleased⟩
      · simp [hnone] at hsome
      · rw [hquiet] at hpermit
        contradiction
      · exact ⟨hclosed, hmail, hidle, hleased⟩
  | pollIdleTimeout notified hpc _ _ hactive =>
      have hasleep : a.Asleep := by
        rw [hpc] at hpoint
        cases notified with
        | false => exact hpoint
        | true => exact hpoint.2
      rw [hasleep.1] at hactive
      contradiction
  | connectFailed _ _ hpc | sendClosed _ hpc | replyClosed _ hpc =>
      rw [hpc] at hpoint
      exact hpoint.elim
  | _ hpc =>
      rw [hpc] at hpoint
      exact hpoint.elim

/-- A stuck actor cannot stop. -/
theorem Stuck.not_canStop {env : Env} {a : ConnActor Id} (hstuck : Stuck env a) :
    ¬CanStop env a := by
  intro hstop
  induction hstop with
  | stopped hpc =>
      rcases hstuck with ⟨-, -, hpoint⟩
      rw [hpc] at hpoint
      exact hpoint
  | move event a' effect hmove _ ih => exact ih (hstuck.step hmove)

/-! ## Ways out -/

section WaysOut

variable {env : Env} {a : ConnActor Id}

theorem canStop_exiting (hpc : a.pc = .exiting) : CanStop env a := by
  have hmove : a.step env .resume = some a.exit := by simp only [step, resume, hpc]
  exact .move .resume _ _ hmove (.stopped rfl)

/-- The branches that leave the loop announce it and then end. -/
theorem canStop_leaving (hpc : a.pc = .onClosed ∨ a.pc = .onIdleTimeout) : CanStop env a := by
  refine .move .resume (a.goto .exiting) (.send a.shutdownMsg) ?_ (canStop_exiting rfl)
  rcases hpc with hpc | hpc <;> simp only [step, resume, hpc]

theorem canStop_replyClosed {tx : Nat} (hpc : a.pc = .replyClosed tx) : CanStop env a := by
  refine .move .resume (a.goto .exiting) (.reply tx .closed) ?_ (canStop_exiting rfl)
  simp only [step, resume, hpc]

theorem canStop_sendClosed {tx : Nat} (hpc : a.pc = .sendClosed tx) : CanStop env a := by
  refine .move .resume (a.goto (.replyClosed tx)) (.send a.shutdownMsg) ?_
    (canStop_replyClosed rfl)
  simp only [step, resume, hpc]

theorem canStop_onShutdown (hpc : a.pc = .onShutdown) (hzero : a.counter.count = 0) :
    CanStop env a := by
  refine .move .resume { a with pc := .exiting, shutdownPending := true } .quiet ?_
    (canStop_exiting rfl)
  simp [step, resume, hpc, hzero]

/-- A shutdown notification that is not ignored ends an unleased actor. -/
theorem canStop_notified (hpc : a.pc = .select true) (hpending : a.shutdownPending = false)
    (hzero : a.counter.count = 0) : CanStop env a := by
  refine .move (.poll .shutdown) (a.goto .onShutdown) .quiet ?_
    (canStop_onShutdown rfl hzero)
  simp [step, poll, hpc, ready, earlier, hpending, take]

/-- The first two branches of the {lit}`select!` end an unleased actor. -/
private theorem canStop_early (notified : Bool) (hpc : a.pc = .select notified)
    (hzero : a.counter.count = 0)
    (hearly : (notified && !a.shutdownPending) = true ∨ a.isClosed = true) : CanStop env a := by
  cases hshut : notified && !a.shutdownPending with
  | true =>
      simp only [Bool.and_eq_true, Bool.not_eq_true'] at hshut
      rcases hshut with ⟨rfl, hpending⟩
      exact canStop_notified hpc hpending hzero
  | false =>
      have hclosed : a.isClosed = true := by simpa [hshut] using hearly
      refine .move (.poll .closed) (a.goto .onClosed) .quiet ?_ (canStop_leaving (.inl rfl))
      simp [step, poll, hpc, ready, earlier, hclosed, hshut, take]

/-- Without a permit to take, an armed timer ends the actor. -/
private theorem canStop_timer (notified : Bool) (hpc : a.pc = .select notified)
    (hmail : a.mailbox = []) (hzero : a.counter.count = 0)
    (hquiet : (a.connection.isSome && a.counter.permit) = false)
    (hidle : a.idleActive = true) : CanStop env a := by
  by_cases hearly : (notified && !a.shutdownPending) = true ∨ a.isClosed = true
  · exact canStop_early notified hpc hzero hearly
  · simp only [not_or, Bool.not_eq_true] at hearly
    refine .move (.poll .idleTimeout) (a.goto .onIdleTimeout) .quiet ?_
      (canStop_leaving (.inr rfl))
    simp [step, poll, hpc, ready, earlier, hmail, hearly, hquiet, hidle, take]

private theorem canStop_loopHead_of_select (hpc : a.pc = .loopHead)
    (h : CanStop env (a.goto (.select false))) : CanStop env a := by
  refine .move .resume (a.goto (.select false)) .quiet ?_ h
  simp only [step, resume, hpc]

private theorem canStop_sendIdle_of_loop (hpc : a.pc = .sendIdle)
    (h : CanStop env { a with pc := .loopHead, idleActive := true }) : CanStop env a := by
  refine .move .resume { a with pc := .loopHead, idleActive := true } (.send a.idleMsg) ?_ h
  simp only [step, resume, hpc]

/-- An unleased actor that takes a permit ends at once if a shutdown is pending, and
arms its timer otherwise. -/
private theorem canStop_onNotified_of_loop (hpc : a.pc = .onNotified)
    (hzero : a.counter.count = 0)
    (h : CanStop env { a with pc := .loopHead, idleActive := true }) : CanStop env a := by
  cases hpending : a.shutdownPending with
  | true =>
      refine .move .resume (a.goto .exiting) .quiet ?_ (canStop_exiting rfl)
      simp [step, resume, hpc, hzero, hpending]
  | false =>
      refine .move .resume (a.goto .sendIdle) .quiet ?_ (canStop_sendIdle_of_loop rfl h)
      simp [step, resume, hpc, hzero, hpending]

/-- The actor is woken in its {lit}`select!` without anything from outside. -/
def Awake (a : ConnActor Id) : Prop :=
  a.isClosed = true ∨ a.idleActive = true ∨
    (a.connection.isSome && a.counter.permit) = true

theorem canStop_select (notified : Bool) (hpc : a.pc = .select notified)
    (hmail : a.mailbox = []) (hzero : a.counter.count = 0) (hawake : a.Awake) :
    CanStop env a := by
  by_cases hearly : (notified && !a.shutdownPending) = true ∨ a.isClosed = true
  · exact canStop_early notified hpc hzero hearly
  cases hpermit : a.connection.isSome && a.counter.permit with
  | true =>
      -- the permit is taken first, and the timer it arms ends the actor
      simp only [not_or, Bool.not_eq_true] at hearly
      refine .move (.poll .notified)
        { a with pc := .onNotified, counter := { a.counter with permit := false } } .quiet ?_ ?_
      · simp [step, poll, hpc, ready, earlier, hmail, hearly, hpermit, take]
      · refine canStop_onNotified_of_loop rfl hzero (canStop_loopHead_of_select rfl ?_)
        exact canStop_timer false rfl hmail hzero (by simp [goto]) rfl
  | false =>
      have hidle : a.idleActive = true := by
        simp only [not_or] at hearly
        simpa [Awake, hearly.2, hpermit] using hawake
      exact canStop_timer notified hpc hmail hzero hpermit hidle

theorem canStop_loopHead (hpc : a.pc = .loopHead) (hmail : a.mailbox = [])
    (hzero : a.counter.count = 0) (hawake : a.Awake) : CanStop env a :=
  canStop_loopHead_of_select hpc (canStop_select false rfl hmail hzero hawake)

theorem canStop_readShutdown (hpc : a.pc = .readShutdown) (hmail : a.mailbox = [])
    (hzero : a.counter.count = 0) (hawake : a.Awake) : CanStop env a := by
  refine .move .resume { a with pc := .loopHead, shutdownPending := env.closed } .quiet ?_
    (canStop_loopHead rfl hmail hzero hawake)
  simp only [step, resume, hpc]

theorem canStop_sendIdle (hpc : a.pc = .sendIdle) (hmail : a.mailbox = [])
    (hzero : a.counter.count = 0) : CanStop env a :=
  canStop_sendIdle_of_loop hpc (canStop_loopHead rfl hmail hzero (.inr (.inl rfl)))

theorem canStop_onNotified (hpc : a.pc = .onNotified) (hmail : a.mailbox = [])
    (hzero : a.counter.count = 0) : CanStop env a :=
  canStop_onNotified_of_loop hpc hzero (canStop_loopHead rfl hmail hzero (.inr (.inl rfl)))

/-- A request for a closed connection, or of a caller that has gone, does not hold
the actor back. -/
theorem canStop_onRequest {tx : Nat} (hpc : a.pc = .onRequest tx) (hmail : a.mailbox = [])
    (hzero : a.counter.count = 0) (hsome : a.connection.isSome = true)
    (hdone : a.isClosed = true ∨ env.gone tx = true) : CanStop env a := by
  rcases Option.isSome_iff_exists.mp hsome with ⟨conn, hconn⟩
  by_cases hclosed : conn.closeReason.isSome = true
  · refine .move .resume (a.goto (.sendClosed tx)) .quiet ?_ (canStop_sendClosed rfl)
    simp [step, resume, hpc, serve, hconn, hclosed]
  · have hgone : env.gone tx = true := by
      rcases hdone with hwas | hgone
      · simp [isClosed, hconn, hclosed] at hwas
      · exact hgone
    have hcount : a.counter.count < maxGuards := by simp [hzero, maxGuards]
    refine .move .resume
      { a with pc := .loopHead, idleActive := false, counter := a.counter.getAndDrop } .quiet
      ?_ ?_
    · simp [step, resume, hpc, serve, hconn, hclosed, hgone, hcount]
    · rw [ConnectionCounter.getAndDrop_eq hcount]
      exact canStop_loopHead rfl hmail hzero (.inr (.inr (by simp [hsome, hzero])))

end WaysOut

/-! ## Local facts -/

/-- The points at which an actor with a connection, or with one to come, waits. -/
def atRest (a : ConnActor Id) : Bool :=
  match a.pc with
  | .connecting => true
  | .readShutdown | .loopHead | .select _ => a.connection.isSome
  | _ => false

/-- Something will make the actor look whether it is still needed. -/
def Expects (a : ConnActor Id) : Prop :=
  a.counter.permit = true ∨ a.idleActive = true ∨ 0 < a.counter.notifying ∨ a.mailbox ≠ []

/-- An actor comes to rest with something to expect. -/
theorem step_expects {env : Env} {a a' : ConnActor Id} {ev : ConnEvent} {eff : Effect Id}
    (hlocal : LocalInv a) (h : a.step env ev = some (a', eff)) (hrest : a'.atRest = true)
    (hzero : a'.counter.count = 0) :
    a'.Expects ∨ (a.atRest = true ∧ a.counter.count = 0 ∧ (a.Expects → a'.Expects)) := by
  cases step_moves h with
  | connected hpc => exact .inr ⟨by simp [atRest, hpc], hzero, id⟩
  | readShutdown hpc | subscribe hpc =>
      exact .inr ⟨by simpa [atRest, hpc, goto] using hrest, hzero, id⟩
  | reportFailure hpc =>
      have hnone := hlocal.connecting (.inr hpc)
      simp [atRest, goto, hnone] at hrest
  | shutdownLeased hpc hleased | notifiedLeased hpc hleased => exact (hleased hzero).elim
  | serveGone tx hpc hopen hcount hgone =>
      simp only [ConnectionCounter.getAndDrop_eq hcount] at hzero ⊢
      exact .inl (.inl (by simp [hzero]))
  | serveLease tx hpc hopen hcount hgone =>
      rw [ConnectionCounter.getOne_count hcount] at hzero
      contradiction
  | serveError tx hpc hnone => simp [atRest, goto, hnone] at hrest
  | sendIdle hpc => exact .inl (.inr (.inl rfl))
  | exit hpc => simp [atRest, exit] at hrest
  | _ => simp [atRest, goto] at hrest

/-- An actor that has not seen its first request yet. -/
structure Untouched (a : ConnActor Id) : Prop where
  mailbox : a.mailbox = []
  idle : a.idleActive = false
  counter : a.counter = .new
  pc : match a.pc with
    | .onRequest _ | .sendClosed _ | .replyClosed _ | .onNotified | .sendIdle
    | .onIdleTimeout => False
    | _ => True

theorem Untouched.step {env : Env} {a a' : ConnActor Id} {ev : ConnEvent} {eff : Effect Id}
    (hfresh : a.Untouched) (h : a.step env ev = some (a', eff)) : a'.Untouched := by
  rcases hfresh with ⟨hmail, hidle, hcounter, hpoint⟩
  cases step_moves h with
  | pollRequest notified req rest hpc hcons =>
      rw [hmail] at hcons
      contradiction
  | pollNotified notified hpc _ _ _ hpermit =>
      rw [hcounter] at hpermit
      contradiction
  | pollIdleTimeout notified hpc _ _ hactive =>
      rw [hidle] at hactive
      contradiction
  | shutdownLeased hpc hleased =>
      rw [hcounter] at hleased
      exact (hleased rfl).elim
  | serveClosed tx hpc | serveGone tx hpc | serveLease tx hpc | serveError tx hpc
    | sendClosed tx hpc | replyClosed tx hpc =>
      rw [hpc] at hpoint
      exact hpoint.elim
  | notifiedLeased hpc | notifiedPending hpc | notifiedIdle hpc | sendIdle hpc
    | onIdleTimeout hpc =>
      rw [hpc] at hpoint
      exact hpoint.elim
  | exit hpc => exact ⟨rfl, hidle, hcounter, trivial⟩
  | _ => exact ⟨hmail, hidle, hcounter, trivial⟩

end ConnActor

namespace State

variable {Id : Type}

/-! ## Actors at rest -/

/-- The invariant about actors at rest. -/
structure RestInv (s : State Id) : Prop where
  timed : ∀ (p : Nat) (a : ConnActor Id), s.conns[p]? = some a → a.Timed
  resting : ∀ (p : Nat) (a : ConnActor Id), s.conns[p]? = some a → a.atRest = true →
    a.counter.count = 0 → a.Expects ∨ ∃ req, s.poolPc = .sendFirst p req
  untouched : ∀ (p : Nat) (req : RequestMsg Id) (a : ConnActor Id),
    s.poolPc = .sendFirst p req → s.conns[p]? = some a → a.Untouched

theorem restInv_initial (options : PoolOptions) : RestInv (initial options : State Id) := by
  constructor <;> simp [initial]

variable [DecidableEq Id]

/-- The pool actor leaves its first send only with the request in the mailbox, or
with the actor gone. -/
theorem step_leaves_first {s s' : State Id} {action : Action Id} (h : Step s action s')
    {p : Nat} {req : RequestMsg Id} {a a' : ConnActor Id} (hpc : s.poolPc = .sendFirst p req)
    (ha : s.conns[p]? = some a) (ha' : s'.conns[p]? = some a') :
    s'.poolPc = .sendFirst p req ∨
      (s'.poolPc = .check ∧ (a.pc = .stopped ∧ a' = a ∨ a'.mailbox = a.mailbox ++ [req])) := by
  cases h with
  | called c id =>
      refine .inl ?_
      simp only
      rw [if_neg (by simp [hpc])]
      exact hpc
  | invalidated c ref s' _ _ _ hsend =>
      rcases poolSend_cases hsend with rfl | rfl <;> exact .inl hpc
  | moved q event b b' effect s' hb hmove hemit => exact .inl ((emit_pool hemit).2.trans hpc)
  | poolSendFirst q req' hpc' =>
      rw [hpc] at hpc'
      cases hpc'
      refine .inr ?_
      simp only [sendFirst, ha] at ha' ⊢
      split at ha' <;> rename_i hrun
      · rw [if_pos hrun]
        simp only [answer_conns] at ha'
        rw [ha, Option.some.injEq] at ha'
        exact ⟨rfl, .inl ⟨hrun, ha'.symm⟩⟩
      · rw [if_neg hrun]
        rcases conn_of_modify ha' with ⟨b, hb, ⟨-, rfl⟩ | ⟨hne, -⟩⟩
        · rw [ha, Option.some.injEq] at hb
          subst hb
          exact ⟨rfl, .inr rfl⟩
        · exact (hne rfl).elim
  | notifiedWaiters => exact .inl (by simp [hpc])
  | poolCheck hpc' | poolSubscribe hpc' | poolShutdown hpc' | poolRecv _ _ hpc'
    | poolJoin hpc' | poolHandle _ hpc' | poolTeardown hpc' | poolFinish hpc' =>
      rw [hpc] at hpc'
      contradiction
  | _ => exact .inl hpc

theorem RestInv.timed_step {s s' : State Id} {action : Action Id} (hinv : s.RestInv)
    (h : Step s action s') (p : Nat) (a' : ConnActor Id) (ha' : s'.conns[p]? = some a') :
    a'.Timed :=
  step_timed h hinv.timed p a' ha'

private theorem expects_change {s : State Id} {p : Nat} {a a' : ConnActor Id}
    {action : Action Id} (hinv : s.RestInv) (hlease : s.LeaseInv)
    (ha : s.conns[p]? = some a) (hfirst : ∀ req, s.poolPc ≠ .sendFirst p req)
    (hchange : ConnChange s p a action a') (hrest : a'.atRest = true)
    (hzero : a'.counter.count = 0) : a'.Expects := by
  have hold : a.atRest = true → a.counter.count = 0 → a.Expects := by
    intro hrest hzero
    rcases hinv.resting p a ha hrest hzero with hexpects | ⟨req, hpc⟩
    · exact hexpects
    · exact (hfirst req hpc).elim
  cases hchange with
  | same => exact hold hrest hzero
  | moved event _ effect hmove =>
      rcases ConnActor.step_expects (hlease.localInv p a ha) hmove hrest hzero with
        hexpects | ⟨hwas, hcount, hkeep⟩
      · exact hexpects
      · exact hkeep (hold hwas hcount)
  | dropped c ref href hactor =>
      -- the drop that takes the count to zero goes on to notify
      have hpos : 0 < a.counter.count := by
        rw [hlease.counted p a ha, ← hactor]
        exact liveRefs_pos_of_mem href
      simp only [ConnectionCounter.fetchSub_count hpos] at hzero
      refine .inr (.inr (.inl ?_))
      simp only [ConnectionCounter.fetchSub]
      rw [if_pos (by omega)]
      omega
  | notified => exact .inl rfl
  | remoteClosed hopen =>
      refine hold ?_ hzero
      have hsome : a.connection.isSome = true := by
        cases hconn : a.connection with
        | none => simp [ConnActor.isOpen, hconn] at hopen
        | some conn => rfl
      simpa [ConnActor.atRest, hsome] using hrest
  | forwarded | first => exact .inr (.inr (.inr (by simp)))
  | woken notified hpc =>
      exact hold (by simpa [ConnActor.atRest, ConnActor.goto, hpc] using hrest) hzero

theorem RestInv.resting_step {s s' : State Id} {action : Action Id} (hinv : s.RestInv)
    (hlease : s.LeaseInv) (h : Step s action s') (p : Nat) (a' : ConnActor Id)
    (ha' : s'.conns[p]? = some a') (hrest : a'.atRest = true) (hzero : a'.counter.count = 0) :
    a'.Expects ∨ ∃ req, s'.poolPc = .sendFirst p req := by
  rcases step_conn h ha' with ⟨a, ha, hchange⟩ | hspawn
  · by_cases hfirst : ∃ req, s.poolPc = .sendFirst p req
    · rcases hfirst with ⟨req, hpc⟩
      rcases step_leaves_first h hpc ha ha' with hstill | ⟨_, ⟨hstopped, rfl⟩ | hmail⟩
      · exact .inr ⟨req, hstill⟩
      · simp [ConnActor.atRest, hstopped] at hrest
      · exact .inl (.inr (.inr (.inr (by simp [hmail]))))
    · refine .inl (expects_change hinv hlease ha (fun req hpc => hfirst ⟨req, hpc⟩) hchange
        hrest hzero)
  · cases hspawn with
    | spawned req generation hp hpc hout =>
        exact .inr ⟨req, hp ▸ (spawns_of_outcome h hpc hout).poolPc⟩

theorem RestInv.untouched_step {s s' : State Id} {action : Action Id} (hinv : s.RestInv)
    (hlease : s.LeaseInv) (h : Step s action s') (p : Nat) (req : RequestMsg Id)
    (a' : ConnActor Id) (hpc' : s'.poolPc = .sendFirst p req) (ha' : s'.conns[p]? = some a') :
    a'.Untouched := by
  rcases step_first h hpc' with ⟨hpc, _⟩ | ⟨_, hspawn, rfl⟩
  · rcases step_conn h ha' with ⟨a, ha, hchange⟩ | hspawn
    · have hfresh := hinv.untouched p req a hpc ha
      cases hchange with
      | same => exact hfresh
      | moved event _ effect hmove => exact hfresh.step hmove
      | dropped c ref href hactor =>
          have hcount := hlease.counted p a ha
          have hpos := liveRefs_pos_of_mem href
          rw [hactor, ← hcount, hfresh.counter] at hpos
          contradiction
      | notified hnotifying =>
          rw [hfresh.counter] at hnotifying
          contradiction
      | remoteClosed => exact ⟨hfresh.mailbox, hfresh.idle, hfresh.counter, hfresh.pc⟩
      | forwarded req' slot hhandling =>
          rw [hpc] at hhandling
          contradiction
      | first req' hsending hrun =>
          cases h with
          | poolSendFirst q req'' hpc'' =>
              simp only [sendFirst] at hpc'
              rw [hpc] at hpc''
              cases hpc''
              simp [ha, hrun, deliver] at hpc'
      | woken => exact ⟨hfresh.mailbox, hfresh.idle, hfresh.counter, trivial⟩
    · cases hspawn with
      | spawned req' generation hp hhandling =>
          rw [hpc] at hhandling
          contradiction
  · rw [hspawn.get, Option.some.injEq] at ha'
    subst ha'
    exact ⟨rfl, rfl, rfl, trivial⟩

theorem RestInv.step {s s' : State Id} {action : Action Id} (hinv : s.RestInv)
    (hlease : s.LeaseInv) (h : Step s action s') : s'.RestInv :=
  ⟨hinv.timed_step h, hinv.resting_step hlease h, hinv.untouched_step hlease h⟩

end State

open State

variable {Id : Type} [DecidableEq Id]

theorem restInv_of_reachable {options : PoolOptions} {s : State Id}
    (hs : (protocol options).Reachable s) : s.RestInv := by
  apply hs.invariant (restInv_initial options)
  intro s s' action hreach hinv _ hstep
  exact hinv.step (leaseInv_of_reachable hreach) (step_sound hstep)

/-! ## Who can stop -/

/-- The actor has stopped or is about to, or a shutdown notification that it does not
ignore has reached it. -/
def ConnActor.stopping {Id : Type} (a : ConnActor Id) : Bool :=
  match a.pc with
  | .onShutdown | .exiting | .stopped => true
  | .select true => !a.shutdownPending
  | _ => false

/-- When an actor with no live reference and an empty mailbox ends: a shutdown
notification has reached it, its connection is closed, or it has a connection and no
request on its way to an answer that could lead to another reference. -/
def State.CanLeave {Id : Type} (s : State Id) (p : Nat) (a : ConnActor Id) : Prop :=
  a.stopping = true ∨ a.isClosed = true ∨
    (a.connection.isSome = true ∧ (∀ req, s.poolPc ≠ .sendFirst p req) ∧
      ∀ tx, a.pc = .onRequest tx → (s.calls tx).gone = true)

/-- Its generation has no slot, or the pool is shut down. -/
def State.Useless {Id : Type} [DecidableEq Id] (s : State Id) (a : ConnActor Id) : Prop :=
  s.closed = true ∨ s.pool.matchesGeneration a.nodeId a.generation = false

omit [DecidableEq Id]

/-- Why an actor stays: it has no connection, its first request is still to come, or a
caller waits for its answer. -/
private theorem stays_because {s : State Id} {p : Nat} {a : ConnActor Id}
    (hstay : ¬s.CanLeave p a) :
    a.stopping = false ∧ a.isClosed = false ∧
      (a.connection = none ∨ (∃ req, s.poolPc = .sendFirst p req) ∨
        (a.isOpen = true ∧ ∃ tx, a.pc = .onRequest tx ∧ (s.calls tx).gone = false)) := by
  simp only [CanLeave, not_or, Bool.not_eq_true] at hstay
  rcases hstay with ⟨hstopping, hclosed, hkept⟩
  refine ⟨hstopping, hclosed, ?_⟩
  cases hconn : a.connection with
  | none => exact .inl rfl
  | some conn =>
      by_cases hfirst : ∃ req, s.poolPc = .sendFirst p req
      · exact .inr (.inl hfirst)
      · have hopen : a.isOpen = true := by
          simpa [ConnActor.isOpen, ConnActor.isClosed, hconn] using hclosed
        refine .inr (.inr ⟨hopen, ?_⟩)
        by_contra hno
        refine hkept ⟨by simp [hconn], fun req hpc => hfirst ⟨req, hpc⟩, fun tx hpc => ?_⟩
        by_contra hgone
        exact hno ⟨tx, hpc, by simpa using hgone⟩

private theorem stuck_of_not_canLeave {s : State Id} (hinv : s.RestInv) (hlease : s.LeaseInv)
    {p : Nat} {a : ConnActor Id} (ha : s.conns[p]? = some a) (hpast : a.pc ≠ .connecting)
    (hmail : a.mailbox = []) (hstay : ¬s.CanLeave p a) : a.Stuck (s.env p) := by
  have hlocal := hlease.localInv p a ha
  rcases stays_because hstay with ⟨hstopping, hclosed, hwhy⟩
  have htimed : a.connection = none → ¬(a.idleActive = true ∨ a.pc = .onNotified ∨
      a.pc = .sendIdle ∨ a.pc = .onIdleTimeout) := by
    intro hnone huse
    have hsome := hinv.timed p a ha huse
    simp [hnone] at hsome
  have hidle : a.connection = none → a.idleActive = false := by
    intro hnone
    simpa using fun hactive => htimed hnone (.inl hactive)
  have hasleep : (∀ tx, a.pc ≠ .onRequest tx) → a.Asleep := by
    intro hpc
    rcases hwhy with hnone | ⟨req, hfirst⟩ | ⟨_, tx, hreq, _⟩
    · exact ⟨hidle hnone, .inl hnone⟩
    · have hfresh := hinv.untouched p req a hfirst ha
      exact ⟨hfresh.idle, .inr (.inl (by simp [hfresh.counter, ConnectionCounter.new]))⟩
    · exact (hpc tx hreq).elim
  refine ⟨hclosed, hmail, ?_⟩
  cases hpc : a.pc with
  | connecting => exact (hpast hpc).elim
  | reportFailure | readShutdown | loopHead => exact hasleep (by simp [hpc])
  | select notified =>
      cases notified with
      | false => exact hasleep (by simp [hpc])
      | true => exact ⟨by simpa [ConnActor.stopping, hpc] using hstopping, hasleep (by simp [hpc])⟩
  | onShutdown | exiting | stopped => simp [ConnActor.stopping, hpc] at hstopping
  | onClosed =>
      rw [hlocal.closing (.inl hpc)] at hclosed
      contradiction
  | sendClosed tx =>
      rw [hlocal.closing (.inr ⟨tx, .inl hpc⟩)] at hclosed
      contradiction
  | replyClosed tx =>
      rw [hlocal.closing (.inr ⟨tx, .inr hpc⟩)] at hclosed
      contradiction
  | onNotified | sendIdle | onIdleTimeout =>
      -- only a connected actor that has served a request gets here
      rcases hwhy with hnone | ⟨req, hfirst⟩ | ⟨_, tx, hreq, _⟩
      · exact (htimed hnone (by simp [hpc])).elim
      · have hfresh := (hinv.untouched p req a hfirst ha).pc
        rw [hpc] at hfresh
        exact hfresh.elim
      · simp [hpc] at hreq
  | onRequest tx =>
      rcases hwhy with hnone | ⟨req, hfirst⟩ | ⟨hopen, tx', hreq, hwaits⟩
      · exact .inl ⟨hnone, hidle hnone⟩
      · have hfresh := (hinv.untouched p req a hfirst ha).pc
        rw [hpc] at hfresh
        exact hfresh.elim
      · rw [hpc] at hreq
        cases hreq
        exact .inr ⟨hopen, hwaits⟩

private theorem canStop_of_canLeave {s : State Id} (hinv : s.RestInv) (hlease : s.LeaseInv)
    {p : Nat} {a : ConnActor Id} (ha : s.conns[p]? = some a) (hpast : a.pc ≠ .connecting)
    (hmail : a.mailbox = []) (hzero : a.counter.count = 0) (hdrop : a.counter.notifying = 0)
    (hleave : s.CanLeave p a) : a.CanStop (s.env p) := by
  have hlocal := hlease.localInv p a ha
  by_cases hstopping : a.stopping = true
  · simp only [ConnActor.stopping] at hstopping
    split at hstopping <;> rename_i hpc
    · exact ConnActor.canStop_onShutdown hpc hzero
    · exact ConnActor.canStop_exiting hpc
    · exact .stopped hpc
    · exact ConnActor.canStop_notified hpc (by simpa using hstopping) hzero
    · contradiction
  have hgo := hleave.resolve_left hstopping
  have hsome : a.connection.isSome = true := by
    rcases hgo with hclosed | ⟨hsome, _⟩
    · cases hconn : a.connection with
      | none => simp [ConnActor.isClosed, hconn] at hclosed
      | some conn => rfl
    · exact hsome
  have hawake : a.atRest = true → a.Awake := by
    intro hrest
    rcases hgo with hclosed | ⟨_, hfirst, _⟩
    · exact .inl hclosed
    · rcases hinv.resting p a ha hrest hzero with hexpects | ⟨req, hpc⟩
      · rcases hexpects with hpermit | hidle | hnotifying | hcons
        · exact .inr (.inr (by simp [hsome, hpermit]))
        · exact .inr (.inl hidle)
        · omega
        · exact (hcons hmail).elim
      · exact (hfirst req hpc).elim
  cases hpc : a.pc with
  | connecting => exact (hpast hpc).elim
  | reportFailure => simp [hlocal.connecting (.inr hpc)] at hsome
  | readShutdown =>
      exact ConnActor.canStop_readShutdown hpc hmail hzero
        (hawake (by simp [ConnActor.atRest, hpc, hsome]))
  | loopHead =>
      exact ConnActor.canStop_loopHead hpc hmail hzero
        (hawake (by simp [ConnActor.atRest, hpc, hsome]))
  | select notified =>
      exact ConnActor.canStop_select notified hpc hmail hzero
        (hawake (by simp [ConnActor.atRest, hpc, hsome]))
  | onShutdown => exact ConnActor.canStop_onShutdown hpc hzero
  | onClosed => exact ConnActor.canStop_leaving (.inl hpc)
  | onRequest tx =>
      apply ConnActor.canStop_onRequest hpc hmail hzero hsome
      rcases hgo with hclosed | ⟨_, _, hgone⟩
      · exact .inl hclosed
      · exact .inr (hgone tx hpc)
  | sendClosed tx => exact ConnActor.canStop_sendClosed hpc
  | replyClosed tx => exact ConnActor.canStop_replyClosed hpc
  | onNotified => exact ConnActor.canStop_onNotified hpc hmail hzero
  | sendIdle => exact ConnActor.canStop_sendIdle hpc hmail hzero
  | onIdleTimeout => exact ConnActor.canStop_leaving (.inr hpc)
  | exiting => exact ConnActor.canStop_exiting hpc
  | stopped => exact .stopped hpc

/-- In every reachable state, an actor past its connect with an empty mailbox, no live
reference and no drop of one in progress, and in particular a useless one, can stop by
its own moves exactly if a shutdown notification has reached it, its connection is
closed, or it has a connection and no request on its way to an answer. -/
theorem quiescent_actor_stops_iff [DecidableEq Id] (options : PoolOptions) {s : State Id}
    (hs : (protocol options).Reachable s) {p : Nat} {a : ConnActor Id}
    (ha : s.conns[p]? = some a) (hpast : a.pc ≠ .connecting) (hmail : a.mailbox = [])
    (hrefs : s.liveRefs p = 0) (hdrop : a.counter.notifying = 0) :
    a.CanStop (s.env p) ↔ s.CanLeave p a := by
  have hinv := restInv_of_reachable hs
  have hlease := leaseInv_of_reachable hs
  constructor
  · intro hstop
    by_contra hstay
    exact (stuck_of_not_canLeave hinv hlease ha hpast hmail hstay).not_canStop hstop
  · have hzero : a.counter.count = 0 := (hlease.counted p a ha).trans hrefs
    exact canStop_of_canLeave hinv hlease ha hpast hmail hzero hdrop

/-! ## Runs -/

/-- An idle connected actor can stop. -/
theorem idle_actor_stops :
    ∃ (s : State Nat) (a : ConnActor Nat), (protocol ⟨1⟩).Reachable s ∧
      s.conns[0]? = some a ∧ a.isOpen = true ∧ s.CanLeave 0 a ∧ a.CanStop (s.env 0) := by
  obtain ⟨s, hs, hidle⟩ := System.exists_of_runWhen_any (S := protocol ⟨1⟩)
    (C := fun _ _ => True) (l := firstIdle)
    (P := fun s => s.liveRefs 0 = 0 && s.poolPc = .check &&
      s.conns[0]? = some ⟨7, 1, .loopHead, some ⟨none⟩, none, .new, [], true, false⟩)
    (by decide)
  simp only [Bool.and_eq_true, decide_eq_true_eq] at hidle
  rcases hidle with ⟨⟨hrefs, hpool⟩, ha⟩
  have hleave : s.CanLeave 0 ⟨7, 1, .loopHead, some ⟨none⟩, none, .new, [], true, false⟩ :=
    .inr (.inr ⟨rfl, by simp [hpool], by simp⟩)
  exact ⟨s, _, hs, ha, rfl, hleave,
    (quiescent_actor_stops_iff ⟨1⟩ hs ha (by simp) rfl hrefs rfl).mpr hleave⟩

/-- The connect to peer 7 fails, the caller is told so and the slot is removed. -/
def failedConnect : List (Action Nat) :=
  firstRequest ++ [.conn 0 (.connect .failed), .conn 0 .resume, .conn 0 .resume,
    .conn 0 .resume, .conn 0 (.poll .request), .conn 0 .resume, .recv 0] ++ poolTurn ++
    [.conn 0 .resume]

/-- A failed connect leaves an actor without a slot, a request or a reference that
cannot stop. -/
theorem failed_connect_leaks :
    ∃ (s : State Nat) (a : ConnActor Nat), (protocol ⟨1⟩).Reachable s ∧
      s.conns[0]? = some a ∧ a.pc ≠ .connecting ∧ a.mailbox = [] ∧ s.liveRefs 0 = 0 ∧
      a.counter.notifying = 0 ∧ s.Useless a ∧ ¬a.CanStop (s.env 0) := by
  obtain ⟨s, hs, hfailed⟩ := System.exists_of_runWhen_any (S := protocol ⟨1⟩)
    (C := fun _ _ => True) (l := failedConnect)
    (P := fun s => s.liveRefs 0 = 0 && !s.pool.matchesGeneration 7 1 &&
      s.conns[0]? = some ⟨7, 1, .select false, none, some .connect, .new, [], false, false⟩)
    (by decide)
  simp only [Bool.and_eq_true, Bool.not_eq_true', decide_eq_true_eq] at hfailed
  rcases hfailed with ⟨⟨hrefs, hslot⟩, ha⟩
  refine ⟨s, _, hs, ha, by simp, rfl, hrefs, rfl, .inr hslot, ?_⟩
  exact ConnActor.Stuck.not_canStop ⟨rfl, rfl, rfl, .inl rfl⟩

end IrohTransport.Pool
