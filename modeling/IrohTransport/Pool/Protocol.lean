import IrohTransport.Lib.Runs
import IrohTransport.Pool.ConnectionActor

/-!
# The pool protocol

Clients, the pool actor and the connection actors as one transition system.  A
label names the party that moves, so that a run is an arbitrary interleaving:
clients call {lit}`get_or_connect`, give up, drop or invalidate their references;
connects end, remote sides close, timers fire; the pool actor and every connection
actor take their own next move; the last pool handle closes the shutdown flag and
then wakes the tasks that have subscribed to it.

The pool's queue and the mailboxes are bounded first-in-first-out channels.  A
{lit}`send().await` on a full channel is not enabled; on a closed one it returns.
Sends wait in no particular order.

Main definitions:

- {lit}`State`, {lit}`Action`: the parties' states and their moves.
- {lit}`State.step`: the step function, assembled from one function per party.
- {lit}`protocol`: the transition system started by {lit}`ConnectionPool::new`.
-/

namespace IrohTransport.Pool

/-- {lit}`POOL_CHANNEL_CAPACITY`. -/
def poolChannelCapacity : Nat := 256

/-- {lit}`CONNECTION_CHANNEL_CAPACITY`. -/
def connectionChannelCapacity : Nat := 64

/-- {lit}`OPEN_STREAM_RETRIES`. -/
def openStreamRetries : Nat := 2

/-! ## State -/

/-- State of a call's reply channel. -/
inductive Reply
  | pending
  | ok
  | err (error : PoolError)
  | dropped
deriving DecidableEq, Repr

/-- One {lit}`get_or_connect` call.  A call has at most one request under way; a
returned reference is found among the live references by its owner. -/
inductive Call (Id : Type)
  | notStarted
  | sending (id : Id) (attempt : Nat)
  | waiting (id : Id) (attempt : Nat) (reply : Reply)
  | returnedRef
  | returnedErr (error : PoolError)
  | cancelled
deriving DecidableEq, Repr

/-- The receiving half of the call's reply channel is gone. -/
def Call.gone {Id : Type} : Call Id → Bool
  | .waiting _ _ _ => false
  | _ => true

/-- A live {lit}`ConnectionRef`: its guard counts for the actor, and its owner is
the call it was handed out to. -/
structure ConnectionRef (Id : Type) where
  id : Id
  generation : Nat
  actor : Nat
  owner : Nat
deriving DecidableEq, Repr

/-- Program points of {lit}`PoolActor::run`. -/
inductive PoolPc (Id : Type)
  | notStarted
  | check
  | subscribe
  | select (notified : Bool)
  | handling (msg : Msg Id)
  | sendFirst (actor : Nat) (req : RequestMsg Id)
  | teardown
  | draining
  | stopped
deriving DecidableEq, Repr

/-- State of the whole pool.  The field {lit}`invalidated` records, for the
statements only, the actors whose generation some client has invalidated. -/
structure State (Id : Type) where
  pool : PoolActor Id
  poolPc : PoolPc Id
  queue : List (Msg Id)
  rxClosed : Bool
  closed : Bool
  notifying : Bool
  conns : List (ConnActor Id)
  calls : Nat → Call Id
  refs : List (ConnectionRef Id)
  invalidated : List Nat

/-- Moves of the pool actor. -/
inductive PoolEvent
  | check
  | subscribe
  | pollShutdown
  | pollRecv
  | pollJoin
  | handle
  | sendFirst
  | teardown
  | finish
deriving DecidableEq, Repr

/-- Labels of the protocol. -/
inductive Action (Id : Type)
  | call (c : Nat) (id : Id)
  | send (c : Nat)
  | recv (c : Nat)
  | cancel (c : Nat)
  | dropRef (c : Nat)
  | notifyOne (p : Nat)
  | invalidate (c : Nat)
  | remoteClose (p : Nat)
  | conn (p : Nat) (event : ConnEvent)
  | pool (event : PoolEvent)
  | close
  | notifyWaiters
deriving DecidableEq, Repr

namespace State

variable {Id : Type} [DecidableEq Id]

/-- The pool before its first use. -/
def initial (options : PoolOptions) : State Id where
  pool := .new options
  poolPc := .notStarted
  queue := []
  rxClosed := false
  closed := false
  notifying := false
  conns := []
  calls := fun _ => .notStarted
  refs := []
  invalidated := []

/-- Number of live references to the connection of an actor. -/
def liveRefs (s : State Id) (p : Nat) : Nat :=
  s.refs.countP fun ref => ref.actor = p

/-- Number of senders of an actor's mailbox that others hold: its slot, the pool
actor on its way to the first send, and the live references. -/
def senders (s : State Id) (p : Nat) : Nat :=
  s.pool.connections.entries.countP (fun entry => entry.2.tx = p) +
    (match s.poolPc with
      | .sendFirst q _ => if q = p then 1 else 0
      | _ => 0) +
    s.liveRefs p

/-- What an actor sees of the rest of the program. -/
def env (s : State Id) (p : Nat) : Env where
  closed := s.closed
  gone := fun tx => (s.calls tx).gone
  senders := s.senders p

def setConn (s : State Id) (p : Nat) (a : ConnActor Id) : State Id :=
  { s with conns := s.conns.set p a }

/-- Answer a call, unless its receiver is gone. -/
def answer (s : State Id) (tx : Nat) (reply : Reply) : State Id :=
  match s.calls tx with
  | .waiting id attempt .pending =>
      { s with calls := Function.update s.calls tx (.waiting id attempt reply) }
  | _ => s

/-- {lit}`pool_tx.send(msg).await`, whose error on a closed queue is ignored. -/
def poolSend (s : State Id) (msg : Msg Id) : Option (State Id) :=
  if s.rxClosed then some s
  else if s.queue.length < poolChannelCapacity then
    some { s with queue := s.queue ++ [msg] }
  else none

/-- The outcome of {lit}`try_send` into a mailbox. -/
def trySend (s : State Id) (tx : Nat) : TrySend :=
  match s.conns[tx]? with
  | some a =>
      if a.pc = .stopped then .closed
      else if a.mailbox.length < connectionChannelCapacity then .ok
      else .full
  | none => .closed

/-- Put a request into a mailbox. -/
def deliver (s : State Id) (tx : Nat) (req : RequestMsg Id) : State Id :=
  { s with conns := s.conns.modify tx fun a => { a with mailbox := a.mailbox ++ [req] } }

/-! ## Clients and the environment -/

/-- {lit}`get_or_connect` up to its first send: {lit}`Shared::tx` fails when the
flag is closed and starts the pool actor on first use. -/
def stepCall (s : State Id) (c : Nat) (id : Id) : Option (State Id) :=
  match s.calls c with
  | .notStarted =>
      if s.closed then
        some { s with calls := Function.update s.calls c (.returnedErr .shutdown) }
      else
        some { s with
          calls := Function.update s.calls c (.sending id 0)
          poolPc := if s.poolPc = .notStarted then .check else s.poolPc }
  | _ => none

/-- Send the request of the current attempt. -/
def stepSend (s : State Id) (c : Nat) : Option (State Id) :=
  match s.calls c with
  | .sending id attempt =>
      if s.rxClosed then
        some { s with calls := Function.update s.calls c (.returnedErr .shutdown) }
      else if s.queue.length < poolChannelCapacity then
        some { s with
          calls := Function.update s.calls c (.waiting id attempt .pending)
          queue := s.queue ++ [.request ⟨id, c⟩] }
      else none
  | _ => none

/-- Receive the reply of the current attempt: a closed connection is tried once
more, anything else is returned. -/
def stepRecv (s : State Id) (c : Nat) : Option (State Id) :=
  match s.calls c with
  | .waiting id attempt reply =>
      match reply with
      | .pending => none
      | .ok => some { s with calls := Function.update s.calls c .returnedRef }
      | .err error =>
          if error = .closed ∧ attempt + 1 < openStreamRetries then
            some { s with calls := Function.update s.calls c (.sending id (attempt + 1)) }
          else some { s with calls := Function.update s.calls c (.returnedErr error) }
      | .dropped =>
          some { s with calls := Function.update s.calls c (.returnedErr .shutdown) }
  | _ => none

/-- Drop the future of a call. -/
def stepCancel (s : State Id) (c : Nat) : Option (State Id) :=
  match s.calls c with
  | .sending _ _ | .waiting _ _ _ =>
      some { s with calls := Function.update s.calls c .cancelled }
  | _ => none

/-- First half of dropping the reference of a call that has returned or was given
up: decrement the count. -/
def stepDropRef (s : State Id) (c : Nat) : Option (State Id) :=
  if s.calls c = .returnedRef ∨ s.calls c = .cancelled then
    match s.refs.find? fun ref => ref.owner = c with
    | some ref =>
        some { s with
          refs := s.refs.erase ref
          conns := s.conns.modify ref.actor fun a =>
            { a with counter := a.counter.fetchSub } }
    | none => none
  else none

/-- Second half of dropping the last reference: {lit}`notify_one`. -/
def stepNotifyOne (s : State Id) (p : Nat) : Option (State Id) :=
  match s.conns[p]? with
  | some a =>
      if 0 < a.counter.notifying then
        some (s.setConn p { a with counter := a.counter.notifyOne })
      else none
  | none => none

/-- {lit}`ConnectionPool::invalidate` by the holder of a reference.  The caller borrows a
pool handle, so that the flag is open and {lit}`Shared::tx` does not fail. -/
def stepInvalidate (s : State Id) (c : Nat) : Option (State Id) :=
  if s.calls c = .returnedRef then
    match s.refs.find? fun ref => ref.owner = c with
    | some ref =>
        ({ s with invalidated := ref.actor :: s.invalidated }).poolSend
          (.shutdown ref.id ref.generation)
    | none => none
  else none

/-- The remote side closes an open connection. -/
def stepRemoteClose (s : State Id) (p : Nat) : Option (State Id) :=
  match s.conns[p]? with
  | some a =>
      if a.isOpen then
        some (s.setConn p { a with connection := some ⟨some .remote⟩ })
      else none
  | none => none

/-! ## Connection actors -/

/-- Carry out the effect of an actor's move. -/
def emit (s : State Id) (p : Nat) (a : ConnActor Id) : Effect Id → Option (State Id)
  | .quiet => some s
  | .send msg => s.poolSend msg
  | .reply tx error => some (s.answer tx (.err error))
  | .lease tx =>
      some { s.answer tx .ok with refs := ⟨a.nodeId, a.generation, p, tx⟩ :: s.refs }
  | .dropMailbox txs => some (txs.foldl (fun s tx => s.answer tx .dropped) s)

/-- One move of a connection actor. -/
def stepConn (s : State Id) (p : Nat) (event : ConnEvent) : Option (State Id) :=
  match s.conns[p]? with
  | some a =>
      match a.step (s.env p) event with
      | some (a', effect) => (s.setConn p a').emit p a effect
      | none => none
  | none => none

/-! ## The pool actor -/

/-- {lit}`PoolActor::handle`, up to the first send into a fresh mailbox. -/
def handle (s : State Id) : Msg Id → State Id
  | .request req =>
      match s.pool.handleRequest req.id s.trySend s.conns.length with
      | (pool, .forwarded tx) =>
          { s.deliver tx req with pool := pool, poolPc := .check }
      | (pool, .refused error) =>
          { s.answer req.tx (.err error) with pool := pool, poolPc := .check }
      | (pool, .spawned generation) =>
          { s with
            pool := pool
            poolPc := .sendFirst s.conns.length req
            conns := s.conns ++ [.spawn req.id generation] }
  | .idle id generation =>
      { s with pool := s.pool.handleIdle id generation, poolPc := .check }
  | .shutdown id generation =>
      { s with pool := s.pool.removeConnectionIfMatch id generation, poolPc := .check }

/-- The first send into the mailbox of a fresh actor; if the actor has stopped
already, the request is dropped with its reply channel. -/
def sendFirst (s : State Id) (p : Nat) (req : RequestMsg Id) : State Id :=
  match s.conns[p]? with
  | some a =>
      if a.pc = .stopped then
        { s.answer req.tx .dropped with
          pool := s.pool.removeConnectionIfMatch req.id a.generation
          poolPc := .check }
      else { s.deliver p req with poolPc := .check }
  | none => s

/-- The reply channels of the requests among some messages. -/
def requestTxs (msgs : List (Msg Id)) : List Nat :=
  msgs.filterMap fun
    | .request req => some req.tx
    | _ => none

/-- One move of the pool actor.  Its {lit}`select!` is biased towards the shutdown
notification, then towards the queue; joining a finished task only leads back to
the top of the loop.  It holds a sender of its own queue, so {lit}`recv()` never
returns {lit}`None`. -/
def stepPool (s : State Id) (event : PoolEvent) : Option (State Id) :=
  match s.poolPc, event with
  | .check, .check =>
      some { s with poolPc := if s.closed then .teardown else .subscribe }
  | .subscribe, .subscribe => some { s with poolPc := .select false }
  | .select true, .pollShutdown => some { s with poolPc := .teardown }
  | .select false, .pollRecv =>
      match s.queue with
      | msg :: rest => some { s with poolPc := .handling msg, queue := rest }
      | [] => none
  | .select false, .pollJoin =>
      if s.queue = [] ∧ s.conns.any fun a => a.pc = .stopped then
        some { s with poolPc := .check }
      else none
  | .handling msg, .handle => some (s.handle msg)
  | .sendFirst p req, .sendFirst => some (s.sendFirst p req)
  | .teardown, .teardown =>
      some { s with rxClosed := true, pool := s.pool.clear, poolPc := .draining }
  | .draining, .finish =>
      if s.conns.all fun a => a.pc = .stopped then
        some ((requestTxs s.queue).foldl (fun s tx => s.answer tx .dropped)
          { s with poolPc := .stopped, queue := [] })
      else none
  | _, _ => none

/-- {lit}`notify_waiters` reaches exactly the tasks that have created their
future and not taken a branch since. -/
def wake (a : ConnActor Id) : ConnActor Id :=
  match a.pc with
  | .select _ => a.goto (.select true)
  | _ => a

/-- Second half of {lit}`Shutdown::close`. -/
def stepNotifyWaiters (s : State Id) : Option (State Id) :=
  if s.notifying then
    some { s with
      notifying := false
      conns := s.conns.map wake
      poolPc :=
        match s.poolPc with
        | .select _ => .select true
        | pc => pc }
  else none

/-- One step of the protocol. -/
def step (s : State Id) : Action Id → Option (State Id)
  | .call c id => s.stepCall c id
  | .send c => s.stepSend c
  | .recv c => s.stepRecv c
  | .cancel c => s.stepCancel c
  | .dropRef c => s.stepDropRef c
  | .notifyOne p => s.stepNotifyOne p
  | .invalidate c => s.stepInvalidate c
  | .remoteClose p => s.stepRemoteClose p
  | .conn p event => s.stepConn p event
  | .pool event => s.stepPool event
  | .close => if s.closed then none else some { s with closed := true, notifying := true }
  | .notifyWaiters => s.stepNotifyWaiters

end State

/-- The pool protocol for given options. -/
def protocol {Id : Type} [DecidableEq Id] (options : PoolOptions) :
    System (State Id) (Action Id) where
  init := .initial options
  step := State.step

end IrohTransport.Pool
