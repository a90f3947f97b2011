import IrohTransport.Pool.PoolActor

/-!
# The per-connection actor

{lit}`Ctx::run_connection` is one task per generation.  Its state is the values of
its local variables, the program point it is suspended at, its mailbox and the
shared lease counter.  The task moves between program points on its own
({lit}`resume`), by the outcome of the connect ({lit}`connect`), or by taking a
branch of its biased {lit}`select!` ({lit}`poll`); what a move does outside the
task is returned as an effect.

A {lit}`select!` drops the futures of the branches it did not take before the body
of the taken branch runs, so a branch is taken in one move and its body starts in
the next.  Timers carry no time: the idle branch may be taken whenever it is
enabled and no earlier branch is ready.

Main results:

- Theorem {lit}`ConnActor.step_count`: a move of the task changes the lease
  count only by handing out a lease.
- Theorem {lit}`ConnActor.LocalInv.step`: the facts about the timer, the
  counter and the program point that every move of the task keeps.
-/

namespace IrohTransport.Pool

/-! ## The lease counter -/

/-- {lit}`ConnectionCounterInner`: the lease count and the stored permit of its
{lit}`Notify`.  The field {lit}`notifying` counts the guards whose drop has taken
the count to zero and has not called {lit}`notify_one` yet. -/
structure ConnectionCounter where
  count : Nat
  permit : Bool
  notifying : Nat
deriving DecidableEq, Repr

namespace ConnectionCounter

def new : ConnectionCounter where
  count := 0
  permit := false
  notifying := 0

def isIdle (self : ConnectionCounter) : Bool :=
  self.count = 0

/-- {lit}`AtomicUsize::fetch_add(1)`, which wraps around. -/
def getOne (self : ConnectionCounter) : ConnectionCounter :=
  { self with count := if self.count + 1 = 2 ^ 64 then 0 else self.count + 1 }

/-- {lit}`AtomicUsize::fetch_sub(1)`, which wraps around: the first half of a
guard's drop.  The drop that takes the count from one goes on to notify. -/
def fetchSub (self : ConnectionCounter) : ConnectionCounter :=
  { self with
    count := if self.count = 0 then 2 ^ 64 - 1 else self.count - 1
    notifying := if self.count = 1 then self.notifying + 1 else self.notifying }

/-- {lit}`Notify::notify_one`, the second half of a guard's drop: with no waiter
polled in between, it stores the permit. -/
def notifyOne (self : ConnectionCounter) : ConnectionCounter :=
  { self with permit := true, notifying := self.notifying - 1 }

/-- A guard made and dropped by the actor itself, because the requester went
away. -/
def getAndDrop (self : ConnectionCounter) : ConnectionCounter :=
  let dropped := self.getOne.fetchSub
  if self.getOne.count = 1 then dropped.notifyOne else dropped

@[simp]
theorem isIdle_iff {self : ConnectionCounter} : self.isIdle = true ↔ self.count = 0 := by
  simp [isIdle]

theorem getOne_count {self : ConnectionCounter} (h : self.count < 2 ^ 63) :
    self.getOne.count = self.count + 1 := by
  simp only [getOne]
  rw [if_neg (by omega)]

theorem fetchSub_count {self : ConnectionCounter} (hpos : 0 < self.count) :
    self.fetchSub.count = self.count - 1 := by
  simp only [fetchSub]
  rw [if_neg (by omega)]

/-- A guard that lives only inside the actor leaves the count alone and stores a
permit if it was the only one. -/
theorem getAndDrop_eq {self : ConnectionCounter} (h : self.count < 2 ^ 63) :
    self.getAndDrop =
      { self with permit := self.permit || self.count == 0 } := by
  have hone := getOne_count h
  by_cases hzero : self.count = 0
  · simp [getAndDrop, getOne, fetchSub, notifyOne, hzero]
  · have hne : self.getOne.count ≠ 1 := by omega
    rw [getAndDrop, if_neg hne, fetchSub, hone, if_neg (by omega), if_neg (by omega)]
    simp [getOne, hzero]

end ConnectionCounter

/-- More than {lit}`isize::MAX` clones of an {lit}`Arc` abort the process, and
every guard holds one. -/
def maxGuards : Nat := 2 ^ 63

/-! ## State of the task -/

/-- Why a connection is closed: by the remote side, or by the actor itself with
one of its two reasons. -/
inductive CloseReason
  | remote
  | idle
  | drop
deriving DecidableEq, Repr

/-- A connection handle; it is open as long as it has no close reason. -/
structure Connection where
  closeReason : Option CloseReason
deriving DecidableEq, Repr

/-- Closing a closed connection changes nothing. -/
def Connection.close (self : Connection) (reason : CloseReason) : Connection where
  closeReason := some (self.closeReason.getD reason)

/-- Program points of {lit}`run_connection`.  A point named after a branch of the
{lit}`select!` is the start of that branch's body; a point named after a message
waits for room in the pool's queue. -/
inductive Pc
  | connecting
  | reportFailure
  | readShutdown
  | loopHead
  | select (notified : Bool)
  | onShutdown
  | onClosed
  | onRequest (tx : Nat)
  | sendClosed (tx : Nat)
  | replyClosed (tx : Nat)
  | onNotified
  | sendIdle
  | onIdleTimeout
  | exiting
  | stopped
deriving DecidableEq, Repr

/-- One connection actor.  The receiver of its mailbox lives until it stops. -/
structure ConnActor (Id : Type) where
  nodeId : Id
  generation : Nat
  pc : Pc
  connection : Option Connection
  error : Option PoolError
  counter : ConnectionCounter
  mailbox : List (RequestMsg Id)
  idleActive : Bool
  shutdownPending : Bool
deriving DecidableEq, Repr

/-- What the task sees of the rest of the program: the shutdown flag, whether a
requester has gone away, and how many senders of its mailbox others hold. -/
structure Env where
  closed : Bool
  gone : Nat → Bool
  senders : Nat

/-- What a move of the task does outside it. -/
inductive Effect (Id : Type)
  | quiet
  | send (msg : Msg Id)
  | reply (tx : Nat) (error : PoolError)
  | lease (tx : Nat)
  | dropMailbox (txs : List Nat)
deriving DecidableEq, Repr

/-- The number of references an effect creates. -/
def Effect.leases {Id : Type} : Effect Id → Nat
  | .lease _ => 1
  | _ => 0

/-- Branches of the {lit}`select!`, in the order in which they are polled; the
branch on {lit}`rx.recv()` is taken with a request or with {lit}`None`. -/
inductive Branch
  | shutdown
  | closed
  | request
  | mailboxClosed
  | notified
  | idleTimeout
deriving DecidableEq, Repr

/-- Outcome of the connect under its timeout. -/
inductive ConnectOutcome
  | ok
  | failed
  | timedOut
deriving DecidableEq, Repr

/-- The error half of {lit}`connect_result`. -/
def ConnectOutcome.error : ConnectOutcome → Option PoolError
  | .ok => none
  | .failed => some .connect
  | .timedOut => some .timeout

/-- Moves of the task. -/
inductive ConnEvent
  | connect (outcome : ConnectOutcome)
  | resume
  | poll (branch : Branch)
deriving DecidableEq, Repr

namespace ConnActor

variable {Id : Type}

/-- A freshly spawned task. -/
def spawn (nodeId : Id) (generation : Nat) : ConnActor Id where
  nodeId := nodeId
  generation := generation
  pc := .connecting
  connection := none
  error := none
  counter := .new
  mailbox := []
  idleActive := false
  shutdownPending := false

/-- The connection exists and is not closed. -/
def isOpen (self : ConnActor Id) : Bool :=
  self.connection.any fun conn => conn.closeReason.isNone

/-- The connection exists and is closed: {lit}`conn.closed()` is ready and
{lit}`conn.close_reason()` is some. -/
def isClosed (self : ConnActor Id) : Bool :=
  self.connection.any fun conn => conn.closeReason.isSome

def goto (self : ConnActor Id) (pc : Pc) : ConnActor Id :=
  { self with pc := pc }

def idleMsg (self : ConnActor Id) : Msg Id :=
  .idle self.nodeId self.generation

def shutdownMsg (self : ConnActor Id) : Msg Id :=
  .shutdown self.nodeId self.generation

/-! ## Moves of the task -/

/-- The end of the connect step. -/
def connect (self : ConnActor Id) (outcome : ConnectOutcome) :
    Option (ConnActor Id × Effect Id) :=
  if self.pc = .connecting then
    match outcome.error with
    | none =>
        some ({ self with pc := .readShutdown, connection := some ⟨none⟩ }, .quiet)
    | some error =>
        some ({ self with pc := .reportFailure, error := some error }, .quiet)
  else none

/-- Hand out a reference, or answer with the connect error.  A reference whose
requester has gone away is dropped on the spot.  Taking the guard, sending the
reply and that drop touch nothing another task could tell apart in between, so
they are one move. -/
def serve (self : ConnActor Id) (env : Env) (tx : Nat) :
    Option (ConnActor Id × Effect Id) :=
  match self.connection with
  | some conn =>
      if conn.closeReason.isSome then some (self.goto (.sendClosed tx), .quiet)
      else if self.counter.count < maxGuards then
        if env.gone tx then
          some ({ self with
            pc := .loopHead, idleActive := false,
            counter := self.counter.getAndDrop }, .quiet)
        else
          some ({ self with
            pc := .loopHead, idleActive := false,
            counter := self.counter.getOne }, .lease tx)
      else none
  | none =>
      some (self.goto .loopHead, .reply tx (self.error.getD .shutdown))

/-- Leave the task: close the connection, then drop the mailbox with the requests
still in it. -/
def exit (self : ConnActor Id) : ConnActor Id × Effect Id :=
  ({ self with
      pc := .stopped
      connection := self.connection.map fun conn =>
        conn.close (if self.counter.isIdle then .idle else .drop)
      mailbox := [] },
    .dropMailbox (self.mailbox.map RequestMsg.tx))

/-- The next move of a task that waits neither for its connect nor in its
{lit}`select!`. -/
def resume (self : ConnActor Id) (env : Env) : Option (ConnActor Id × Effect Id) :=
  match self.pc with
  | .reportFailure => some (self.goto .readShutdown, .send self.shutdownMsg)
  | .readShutdown =>
      some ({ self with pc := .loopHead, shutdownPending := env.closed }, .quiet)
  | .loopHead => some (self.goto (.select false), .quiet)
  | .onShutdown =>
      some ({ self with
        pc := if self.counter.isIdle then .exiting else .loopHead
        shutdownPending := true }, .quiet)
  | .onClosed => some (self.goto .exiting, .send self.shutdownMsg)
  | .onRequest tx => self.serve env tx
  | .sendClosed tx => some (self.goto (.replyClosed tx), .send self.shutdownMsg)
  | .replyClosed tx => some (self.goto .exiting, .reply tx .closed)
  | .onNotified =>
      if self.counter.isIdle then
        some (self.goto (if self.shutdownPending then .exiting else .sendIdle), .quiet)
      else some (self.goto .loopHead, .quiet)
  | .sendIdle =>
      some ({ self with pc := .loopHead, idleActive := true }, .send self.idleMsg)
  | .onIdleTimeout => some (self.goto .exiting, .send self.shutdownMsg)
  | .exiting => some self.exit
  | .connecting | .select _ | .stopped => none

/-- The branch is enabled and its future is ready.  The task holds
{lit}`actor_tx`, a sender of its own mailbox, so that {lit}`rx.recv()` counts it
besides the senders of others. -/
def ready (self : ConnActor Id) (env : Env) (notified : Bool) : Branch → Bool
  | .shutdown => notified && !self.shutdownPending
  | .closed => self.isClosed
  | .request => !self.mailbox.isEmpty
  | .mailboxClosed => self.mailbox.isEmpty && (env.senders + 1 == 0)
  | .notified => self.connection.isSome && self.counter.permit
  | .idleTimeout => self.idleActive

/-- The branches polled before a branch. -/
def earlier : Branch → List Branch
  | .shutdown => []
  | .closed => [.shutdown]
  | .request => [.shutdown, .closed]
  | .mailboxClosed => [.shutdown, .closed, .request]
  | .notified => [.shutdown, .closed, .request, .mailboxClosed]
  | .idleTimeout => [.shutdown, .closed, .request, .mailboxClosed, .notified]

/-- The task after the {lit}`select!` took a branch. -/
def take (self : ConnActor Id) : Branch → ConnActor Id
  | .shutdown => self.goto .onShutdown
  | .closed => self.goto .onClosed
  | .request =>
      match self.mailbox with
      | [] => self
      | req :: rest => { self with pc := .onRequest req.tx, mailbox := rest }
  | .mailboxClosed => self.goto .exiting
  | .notified =>
      { self with pc := .onNotified, counter := { self.counter with permit := false } }
  | .idleTimeout => self.goto .onIdleTimeout

/-- One poll of the biased {lit}`select!`: the first ready branch is taken. -/
def poll (self : ConnActor Id) (env : Env) (branch : Branch) :
    Option (ConnActor Id × Effect Id) :=
  match self.pc with
  | .select notified =>
      if self.ready env notified branch &&
          (earlier branch).all fun before => !self.ready env notified before then
        some (self.take branch, .quiet)
      else none
  | _ => none

/-- One move of the task. -/
def step (self : ConnActor Id) (env : Env) : ConnEvent → Option (ConnActor Id × Effect Id)
  | .connect outcome => self.connect outcome
  | .resume => self.resume env
  | .poll branch => self.poll env branch

/-! ## Everything a move can be -/

/-- The moves of the task, one constructor per path through the source.  There is
none for {lit}`rx.recv()` returning {lit}`None`, because the task holds a sender of
its own mailbox. -/
inductive Moves (env : Env) (a : ConnActor Id) :
    ConnEvent → ConnActor Id → Effect Id → Prop
  | connected : a.pc = .connecting →
      Moves env a (.connect .ok)
        { a with pc := .readShutdown, connection := some ⟨none⟩ } .quiet
  | connectFailed (outcome : ConnectOutcome) (error : PoolError) : a.pc = .connecting →
      outcome.error = some error →
      Moves env a (.connect outcome)
        { a with pc := .reportFailure, error := some error } .quiet
  | reportFailure : a.pc = .reportFailure →
      Moves env a .resume (a.goto .readShutdown) (.send a.shutdownMsg)
  | readShutdown : a.pc = .readShutdown →
      Moves env a .resume { a with pc := .loopHead, shutdownPending := env.closed } .quiet
  | subscribe : a.pc = .loopHead →
      Moves env a .resume (a.goto (.select false)) .quiet
  | shutdownIdle : a.pc = .onShutdown → a.counter.count = 0 →
      Moves env a .resume { a with pc := .exiting, shutdownPending := true } .quiet
  | shutdownLeased : a.pc = .onShutdown → a.counter.count ≠ 0 →
      Moves env a .resume { a with pc := .loopHead, shutdownPending := true } .quiet
  | onClosed : a.pc = .onClosed →
      Moves env a .resume (a.goto .exiting) (.send a.shutdownMsg)
  | serveClosed (tx : Nat) : a.pc = .onRequest tx → a.isClosed = true →
      Moves env a .resume (a.goto (.sendClosed tx)) .quiet
  | serveGone (tx : Nat) : a.pc = .onRequest tx → a.isOpen = true →
      a.counter.count < maxGuards → env.gone tx = true →
      Moves env a .resume
        { a with pc := .loopHead, idleActive := false, counter := a.counter.getAndDrop }
        .quiet
  | serveLease (tx : Nat) : a.pc = .onRequest tx → a.isOpen = true →
      a.counter.count < maxGuards → env.gone tx = false →
      Moves env a .resume
        { a with pc := .loopHead, idleActive := false, counter := a.counter.getOne }
        (.lease tx)
  | serveError (tx : Nat) : a.pc = .onRequest tx → a.connection = none →
      Moves env a .resume (a.goto .loopHead) (.reply tx (a.error.getD .shutdown))
  | sendClosed (tx : Nat) : a.pc = .sendClosed tx →
      Moves env a .resume (a.goto (.replyClosed tx)) (.send a.shutdownMsg)
  | replyClosed (tx : Nat) : a.pc = .replyClosed tx →
      Moves env a .resume (a.goto .exiting) (.reply tx .closed)
  | notifiedLeased : a.pc = .onNotified → a.counter.count ≠ 0 →
      Moves env a .resume (a.goto .loopHead) .quiet
  | notifiedPending : a.pc = .onNotified → a.counter.count = 0 →
      a.shutdownPending = true → Moves env a .resume (a.goto .exiting) .quiet
  | notifiedIdle : a.pc = .onNotified → a.counter.count = 0 →
      a.shutdownPending = false → Moves env a .resume (a.goto .sendIdle) .quiet
  | sendIdle : a.pc = .sendIdle →
      Moves env a .resume { a with pc := .loopHead, idleActive := true } (.send a.idleMsg)
  | onIdleTimeout : a.pc = .onIdleTimeout →
      Moves env a .resume (a.goto .exiting) (.send a.shutdownMsg)
  | exit : a.pc = .exiting → Moves env a .resume a.exit.1 a.exit.2
  | pollShutdown : a.pc = .select true → a.shutdownPending = false →
      Moves env a (.poll .shutdown) (a.goto .onShutdown) .quiet
  | pollClosed (notified : Bool) : a.pc = .select notified → a.isClosed = true →
      Moves env a (.poll .closed) (a.goto .onClosed) .quiet
  | pollRequest (notified : Bool) (req : RequestMsg Id) (rest : List (RequestMsg Id)) :
      a.pc = .select notified → a.mailbox = req :: rest → a.isClosed = false →
      Moves env a (.poll .request) { a with pc := .onRequest req.tx, mailbox := rest } .quiet
  | pollNotified (notified : Bool) : a.pc = .select notified → a.mailbox = [] →
      a.isClosed = false → a.connection.isSome = true → a.counter.permit = true →
      Moves env a (.poll .notified)
        { a with pc := .onNotified, counter := { a.counter with permit := false } } .quiet
  | pollIdleTimeout (notified : Bool) : a.pc = .select notified → a.mailbox = [] →
      a.isClosed = false → a.idleActive = true →
      Moves env a (.poll .idleTimeout) (a.goto .onIdleTimeout) .quiet

private theorem serve_moves {env : Env} {a a' : ConnActor Id} {eff : Effect Id} {tx : Nat}
    (hpc : a.pc = .onRequest tx) (h : a.serve env tx = some (a', eff)) :
    Moves env a .resume a' eff := by
  unfold serve at h
  split at h
  · rename_i conn hconn
    split at h <;> rename_i hclosed
    · simp only [Option.some.injEq, Prod.mk.injEq] at h
      rcases h with ⟨rfl, rfl⟩
      exact .serveClosed tx hpc (by simpa [isClosed, hconn] using hclosed)
    · have hopen : a.isOpen = true := by
        simpa [isOpen, hconn, Option.isNone_iff_eq_none] using hclosed
      split at h <;> rename_i hcount
      · split at h <;> rename_i hgone <;>
          simp only [Option.some.injEq, Prod.mk.injEq] at h <;> obtain ⟨rfl, rfl⟩ := h
        · exact .serveGone tx hpc hopen hcount hgone
        · exact .serveLease tx hpc hopen hcount (by simpa using hgone)
      · contradiction
  · rename_i hconn
    simp only [Option.some.injEq, Prod.mk.injEq] at h
    rcases h with ⟨rfl, rfl⟩
    exact .serveError tx hpc hconn

private theorem resume_moves {env : Env} {a a' : ConnActor Id} {eff : Effect Id}
    (h : a.resume env = some (a', eff)) : Moves env a .resume a' eff := by
  unfold resume at h
  split at h <;> rename_i hpc
  case h_6 tx => exact serve_moves hpc h
  case h_4 =>
    simp only [Option.some.injEq, Prod.mk.injEq] at h
    rcases h with ⟨rfl, rfl⟩
    by_cases hidle : a.counter.count = 0
    · simpa [ConnectionCounter.isIdle, hidle] using Moves.shutdownIdle hpc hidle
    · simpa [ConnectionCounter.isIdle, hidle] using Moves.shutdownLeased hpc hidle
  case h_9 =>
    split at h <;> rename_i hidle <;>
      simp only [Option.some.injEq, Prod.mk.injEq] at h <;> obtain ⟨rfl, rfl⟩ := h
    · have hzero : a.counter.count = 0 := by simpa [ConnectionCounter.isIdle] using hidle
      split <;> rename_i hpending
      · exact .notifiedPending hpc hzero hpending
      · exact .notifiedIdle hpc hzero (by simpa using hpending)
    · exact .notifiedLeased hpc (by simpa [ConnectionCounter.isIdle] using hidle)
  case h_12 =>
    rw [Option.some.injEq, ConnActor.exit, Prod.mk.injEq] at h
    rcases h with ⟨rfl, rfl⟩
    exact .exit hpc
  all_goals first
    | contradiction
    | (simp only [Option.some.injEq, Prod.mk.injEq] at h; obtain ⟨rfl, rfl⟩ := h)
  · exact .reportFailure hpc
  · exact .readShutdown hpc
  · exact .subscribe hpc
  · exact .onClosed hpc
  · exact .sendClosed _ hpc
  · exact .replyClosed _ hpc
  · exact .sendIdle hpc
  · exact .onIdleTimeout hpc

private theorem poll_moves {env : Env} {a a' : ConnActor Id} {eff : Effect Id}
    {branch : Branch} (h : a.poll env branch = some (a', eff)) :
    Moves env a (.poll branch) a' eff := by
  unfold poll at h
  split at h
  · rename_i notified hpc
    split at h <;> rename_i hready
    · simp only [Option.some.injEq, Prod.mk.injEq] at h
      rcases h with ⟨rfl, rfl⟩
      cases branch with
      | shutdown =>
          simp only [ready, earlier, List.all_nil, Bool.and_true, Bool.and_eq_true,
            Bool.not_eq_true'] at hready
          rcases hready with ⟨rfl, hpending⟩
          exact .pollShutdown hpc hpending
      | closed =>
          have hclosed : a.isClosed = true := by
            simp only [ready, Bool.and_eq_true] at hready
            exact hready.1
          exact .pollClosed notified hpc hclosed
      | request =>
          simp only [ready, earlier, List.all_cons, Bool.and_eq_true, Bool.not_eq_true',
            List.isEmpty_eq_false_iff] at hready
          rcases List.exists_cons_of_ne_nil hready.1 with ⟨req, rest, hmail⟩
          simp only [take, hmail]
          exact .pollRequest notified req rest hpc hmail hready.2.2.1
      | mailboxClosed => simp [ready] at hready
      | notified =>
          simp only [ready, earlier, List.all_cons, Bool.and_eq_true, Bool.not_eq_true',
            Bool.not_eq_false', List.isEmpty_iff] at hready
          exact .pollNotified notified hpc hready.2.2.2.1 hready.2.2.1 hready.1.1 hready.1.2
      | idleTimeout =>
          simp only [ready, earlier, List.all_cons, Bool.and_eq_true, Bool.not_eq_true',
            Bool.not_eq_false', List.isEmpty_iff] at hready
          exact .pollIdleTimeout notified hpc hready.2.2.2.1 hready.2.2.1 hready.1
    · contradiction
  · contradiction

/-- Every move of the task is one of the listed moves. -/
theorem step_moves {env : Env} {a a' : ConnActor Id} {ev : ConnEvent} {eff : Effect Id}
    (h : a.step env ev = some (a', eff)) : Moves env a ev a' eff := by
  cases ev with
  | connect outcome =>
      simp only [step, connect] at h
      split at h <;> rename_i hpc
      · split at h <;> rename_i herror <;>
          simp only [Option.some.injEq, Prod.mk.injEq] at h <;> obtain ⟨rfl, rfl⟩ := h
        · obtain rfl : outcome = .ok := by
            cases outcome <;> simp_all [ConnectOutcome.error]
          exact .connected hpc
        · exact .connectFailed outcome _ hpc herror
      · contradiction
  | resume => exact resume_moves h
  | poll branch => exact poll_moves h

/-! ## What every move keeps -/

/-- Facts about one actor that its own moves keep.  The count is the number of
live guards only in the whole protocol; here it is just a number. -/
structure LocalInv (a : ConnActor Id) : Prop where
  count_le : a.counter.count ≤ maxGuards
  timer : a.idleActive = true → a.counter.count = 0
  settled : a.pc = .sendIdle ∨ a.pc = .onIdleTimeout → a.counter.count = 0
  exiting : a.pc = .exiting → a.counter.count = 0 ∨ a.isOpen = false
  closing : (a.pc = .onClosed ∨ ∃ tx, a.pc = .sendClosed tx ∨ a.pc = .replyClosed tx) →
    a.isClosed = true
  stopped : a.pc = .stopped → a.isOpen = false
  unconnected : a.connection = none → a.counter.count = 0
  connecting : (a.pc = .connecting ∨ a.pc = .reportFailure) → a.connection = none
  failed : a.pc ≠ .connecting → a.connection = none →
    ∃ error, a.error = some error ∧ error ≠ .shutdown

theorem isOpen_eq_false_of_isClosed {a : ConnActor Id} (h : a.isClosed = true) :
    a.isOpen = false := by
  cases hconn : a.connection with
  | none => simp [isOpen, hconn]
  | some conn =>
      simpa [isOpen, isClosed, hconn] using h

theorem localInv_spawn (nodeId : Id) (generation : Nat) :
    LocalInv (spawn nodeId generation) := by
  constructor <;> simp [spawn, ConnectionCounter.new, isOpen, maxGuards]

theorem exit_isOpen (a : ConnActor Id) : a.exit.1.isOpen = false := by
  cases hconn : a.connection <;> simp [exit, isOpen, hconn, Connection.close]

theorem ConnectOutcome.error_ne_shutdown {outcome : ConnectOutcome} {error : PoolError}
    (h : outcome.error = some error) : error ≠ .shutdown := by
  cases outcome <;> simp [ConnectOutcome.error] at h <;> subst h <;> decide

/-- What has to hold of an actor that goes to a program point. -/
def Admits (a : ConnActor Id) : Pc → Prop
  | .sendIdle | .onIdleTimeout => a.counter.count = 0
  | .exiting => a.counter.count = 0 ∨ a.isOpen = false
  | .onClosed | .sendClosed _ | .replyClosed _ => a.isClosed = true
  | .connecting | .reportFailure | .stopped => False
  | _ => True

/-- A move between program points keeps the local facts, if the actor may go there. -/
theorem LocalInv.moved {a a' : ConnActor Id} (hinv : LocalInv a) (hwas : a.pc ≠ .connecting)
    (hadmits : a.Admits a'.pc) (hconn : a'.connection = a.connection)
    (herror : a'.error = a.error) (hcount : a'.counter.count = a.counter.count)
    (htimer : a'.idleActive = true → a.counter.count = 0) : LocalInv a' := by
  have hopen : a'.isOpen = a.isOpen := by simp only [isOpen, hconn]
  have hclosed : a'.isClosed = a.isClosed := by simp only [isClosed, hconn]
  constructor
  · exact hcount ▸ hinv.count_le
  · exact fun hidle => hcount.trans (htimer hidle)
  · rintro (hpc | hpc) <;> rw [hpc] at hadmits <;> exact hcount.trans hadmits
  · intro hpc
    rw [hpc] at hadmits
    rw [hcount, hopen]
    exact hadmits
  · rintro (hpc | ⟨tx, hpc | hpc⟩) <;> rw [hpc] at hadmits <;> exact hclosed.trans hadmits
  · intro hpc
    rw [hpc] at hadmits
    exact hadmits.elim
  · intro hnone
    exact hcount.trans (hinv.unconnected (hconn ▸ hnone))
  · rintro (hpc | hpc) <;> rw [hpc] at hadmits <;> exact hadmits.elim
  · intro _ hnone
    rcases hinv.failed hwas (hconn ▸ hnone) with ⟨error, hsome, hne⟩
    exact ⟨error, herror.trans hsome, hne⟩

/-- Every move of the task keeps the local facts. -/
theorem LocalInv.step {env : Env} {a a' : ConnActor Id} {ev : ConnEvent} {eff : Effect Id}
    (hinv : LocalInv a) (h : a.step env ev = some (a', eff)) : LocalInv a' := by
  have hclosing := hinv.closing
  cases step_moves h with
  | connected hpc =>
      have hzero := hinv.unconnected (hinv.connecting (.inl hpc))
      constructor <;> simp [hzero, maxGuards]
  | connectFailed outcome error hpc herror =>
      have hnone := hinv.connecting (.inl hpc)
      have hzero := hinv.unconnected hnone
      have hne := ConnectOutcome.error_ne_shutdown herror
      constructor <;> simp [hnone, hzero, hne, maxGuards]
  | shutdownIdle hpc hzero =>
      exact hinv.moved (by simp [hpc]) (.inl hzero) rfl rfl rfl hinv.timer
  | onClosed hpc =>
      exact hinv.moved (by simp [hpc]) (.inr (isOpen_eq_false_of_isClosed (hclosing (.inl hpc))))
        rfl rfl rfl hinv.timer
  | serveClosed tx hpc hclosed =>
      exact hinv.moved (by simp [hpc]) hclosed rfl rfl rfl hinv.timer
  | serveGone tx hpc hopen hcount hgone =>
      refine hinv.moved (by simp [hpc]) trivial rfl rfl ?_ (by simp)
      rw [ConnectionCounter.getAndDrop_eq hcount]
  | serveLease tx hpc hopen hcount hgone =>
      have hconn : a.connection ≠ none := by
        intro hnone
        simp [isOpen, hnone] at hopen
      have hone := ConnectionCounter.getOne_count hcount
      constructor <;> simp [hone, hconn]
      omega
  | sendClosed tx hpc =>
      exact hinv.moved (by simp [hpc]) (hclosing (.inr ⟨tx, .inl hpc⟩)) rfl rfl rfl hinv.timer
  | replyClosed tx hpc =>
      have hnot := isOpen_eq_false_of_isClosed (hclosing (.inr ⟨tx, .inr hpc⟩))
      exact hinv.moved (by simp [hpc]) (.inr hnot) rfl rfl rfl hinv.timer
  | notifiedPending hpc hzero =>
      exact hinv.moved (by simp [hpc]) (.inl hzero) rfl rfl rfl hinv.timer
  | notifiedIdle hpc hzero => exact hinv.moved (by simp [hpc]) hzero rfl rfl rfl hinv.timer
  | sendIdle hpc =>
      exact hinv.moved (by simp [hpc]) trivial rfl rfl rfl fun _ => hinv.settled (.inl hpc)
  | onIdleTimeout hpc =>
      exact hinv.moved (by simp [hpc]) (.inl (hinv.settled (.inr hpc))) rfl rfl rfl hinv.timer
  | exit hpc =>
      have hopen := a.exit_isOpen
      have hfailed := hinv.failed (by simp [hpc])
      refine ⟨hinv.count_le, hinv.timer, by simp [exit], by simp [exit], by simp [exit],
        fun _ => hopen, fun hconn => hinv.unconnected ?_, by simp [exit],
        fun _ hconn => hfailed ?_⟩ <;> simpa [exit] using hconn
  | pollClosed notified hpc hclosed =>
      exact hinv.moved (by simp [hpc]) hclosed rfl rfl rfl hinv.timer
  | pollIdleTimeout notified hpc _ _ hidle =>
      exact hinv.moved (by simp [hpc]) (hinv.timer hidle) rfl rfl rfl hinv.timer
  | serveError _ hpc | pollRequest _ _ _ hpc | pollNotified _ hpc =>
      exact hinv.moved (by simp [hpc]) trivial rfl rfl rfl hinv.timer
  | _ hpc => exact hinv.moved (by simp [hpc]) trivial rfl rfl rfl hinv.timer

/-- Dropping a counted guard keeps the local facts: while one exists the actor is
neither timed out nor on its way out of an open connection. -/
theorem LocalInv.fetchSub {a : ConnActor Id} (hinv : LocalInv a)
    (hpos : 0 < a.counter.count) :
    LocalInv { a with counter := a.counter.fetchSub } := by
  have hle := hinv.count_le
  have hsub := ConnectionCounter.fetchSub_count hpos
  have hne : a.counter.count ≠ 0 := by omega
  refine ⟨?_, fun hidle => ?_, fun hpc => ?_, fun hpc => ?_, hinv.closing, hinv.stopped,
    fun hconn => ?_, hinv.connecting, hinv.failed⟩
  · simp only [hsub]
    omega
  · exact (hne (hinv.timer hidle)).elim
  · exact (hne (hinv.settled hpc)).elim
  · exact .inr ((hinv.exiting hpc).resolve_left hne)
  · exact (hne (hinv.unconnected hconn)).elim

/-- A remote close keeps the local facts. -/
theorem LocalInv.remoteClose {a : ConnActor Id} (hinv : LocalInv a)
    (hopen : a.isOpen = true) :
    LocalInv { a with connection := some ⟨some .remote⟩ } where
  count_le := hinv.count_le
  timer := hinv.timer
  settled := hinv.settled
  exiting := fun _ => .inr rfl
  closing := fun _ => rfl
  stopped := fun _ => rfl
  unconnected := fun hconn => by simp at hconn
  connecting := fun hpc => by
    have hnone := hinv.connecting hpc
    simp [isOpen, hnone] at hopen
  failed := fun _ hconn => by simp at hconn

/-- A move leaves the number of guards alone, except that handing out a lease adds
one. -/
theorem step_count {env : Env} {a a' : ConnActor Id} {ev : ConnEvent} {eff : Effect Id}
    (h : a.step env ev = some (a', eff)) :
    a'.counter.count = a.counter.count + eff.leases := by
  cases step_moves h with
  | serveGone tx hpc hopen hcount hgone => rw [ConnectionCounter.getAndDrop_eq hcount]; rfl
  | serveLease tx hpc hopen hcount hgone => exact ConnectionCounter.getOne_count hcount
  | _ => rfl

/-- The identity of an actor never changes. -/
theorem step_identity {env : Env} {a a' : ConnActor Id} {ev : ConnEvent} {eff : Effect Id}
    (h : a.step env ev = some (a', eff)) :
    a'.nodeId = a.nodeId ∧ a'.generation = a.generation := by
  cases step_moves h <;> exact ⟨rfl, rfl⟩

/-- The actor is still connecting or holds an open connection. -/
def holdsConnection (self : ConnActor Id) : Bool :=
  self.pc = .connecting || self.isOpen

theorem not_holdsConnection_of_stopped {a : ConnActor Id}
    (hlocal : a.LocalInv) (hpc : a.pc = .stopped) : a.holdsConnection = false := by
  simp [holdsConnection, hpc, hlocal.stopped hpc]

/-- A move never gives an actor a connection it was not already connecting to. -/
theorem step_holdsConnection {env : Env} {a a' : ConnActor Id} {ev : ConnEvent}
    {eff : Effect Id} (h : a.step env ev = some (a', eff))
    (hholds : a'.holdsConnection = true) : a.holdsConnection = true := by
  cases step_moves h with
  | connected hpc | connectFailed _ _ hpc => simp [holdsConnection, hpc]
  | exit hpc =>
      have hopen := a.exit_isOpen
      simp only [holdsConnection, hopen, Bool.or_false, decide_eq_true_eq] at hholds
      simp [exit] at hholds
  | _ => simp_all [holdsConnection, goto, isOpen]

/-- Timers and permits are for connected actors. -/
def Timed (a : ConnActor Id) : Prop :=
  (a.idleActive = true ∨ a.pc = .onNotified ∨ a.pc = .sendIdle ∨ a.pc = .onIdleTimeout) →
    a.connection.isSome = true

theorem Timed.step {env : Env} {a a' : ConnActor Id} {ev : ConnEvent} {eff : Effect Id}
    (htimed : a.Timed) (h : a.step env ev = some (a', eff)) : a'.Timed := by
  intro huse
  cases step_moves h with
  | connected => rfl
  | exit hpc =>
      simp only [exit, Option.isSome_map] at huse ⊢
      exact htimed (huse.imp_right (by simp))
  | sendIdle hpc => exact htimed (.inr (.inr (.inl hpc)))
  | notifiedIdle hpc => exact htimed (.inr (.inl hpc))
  | pollNotified notified hpc _ _ hsome => exact hsome
  | pollIdleTimeout notified hpc _ _ hidle => exact htimed (.inl hidle)
  | serveGone | serveLease => simp at huse
  | _ => exact htimed (huse.imp_right (by simp [goto]))

end ConnActor

end IrohTransport.Pool
