import IrohTransport.Lib.Runs
import IrohTransport.Swarm.Engine

/-!
# The locator

The locator races connection attempts to the peers of a discovery stream.  Its loop
keeps a bounded number of attempts in flight, sends the result of each over a bounded
channel and ends when the stream is exhausted and no attempt is left.  The holder of the
receiving end reads the results one by one, or waits for the first success.

Main results:

- Definition {lit}`Locator.step`: the loop, what can happen around it and the reader.
- Theorem {lit}`Locator.step_cases`: every step is one of the loop or one of the reader,
  with what it changes.
-/

namespace IrohTransport.Swarm

open Stream' (Seq)

/-- Configuration for connection racing. -/
structure LocatorConfig where
  /-- Maximum simultaneous connection attempts. -/
  maxInflight : Nat
  /-- Overall timeout for the locator. -/
  timeout : Option Nat
  /-- Buffer size for successful connections. -/
  limit : Nat

namespace Locator

variable {PublicKey Error Channel : Type}

/-- What the loop sends: the result of an attempt, or an error of the stream. -/
inductive Outcome (PublicKey Error Channel : Type) where
  | attempt (peer : Peer PublicKey) (result : Except Error Channel)
  | discovery (err : Error)

namespace Outcome

/-- An outcome as it is sent. -/
def result : Outcome PublicKey Error Channel → Except Error Channel
  | .attempt _ result => result
  | .discovery err => .error err

/-- The peer an attempt was made to. -/
def peer? : Outcome PublicKey Error Channel → Option (Peer PublicKey)
  | .attempt peer _ => some peer
  | .discovery _ => none

/-- The error of the stream. -/
def discovery? : Outcome PublicKey Error Channel → Option Error
  | .attempt _ _ => none
  | .discovery err => some err

end Outcome

/-- Why the loop has ended. -/
inductive Ending where
  | finished
  | receiverGone
  | timedOut
  | aborted
deriving DecidableEq

/-- Where the loop stands.  A selection remembers which branches were enabled when it was
entered. -/
inductive Pc (PublicKey Error Channel : Type) where
  | head
  | selecting (canDiscover hasInflight : Bool)
  | sending (outcome : Outcome PublicKey Error Channel)
  | ended (ending : Ending)
  | panicked

namespace Pc

/-- The loop waits here, so it can be cancelled. -/
def awaits : Pc PublicKey Error Channel → Bool
  | .selecting _ _ => true
  | .sending _ => true
  | _ => false

/-- The outcome that is being sent. -/
def pending : Pc PublicKey Error Channel → List (Outcome PublicKey Error Channel)
  | .sending outcome => [outcome]
  | _ => []

end Pc

/-- Who reads the results: the holder of the stream, or a call of {lit}`first`. -/
inductive Consumer (Error Channel : Type) where
  | stream
  | first (lastError : Option Error)
  | returned (result : Except Error Channel)

/-- How a locator is used. -/
inductive Usage where
  | stream
  | first

/-- The reader at the start. -/
def Usage.consumer : Usage → Consumer Error Channel
  | .stream => .stream
  | .first => .first none

/-- The loop and its channel, with the items taken from the stream and the results sent
and received so far. -/
structure State (PublicKey Error Channel : Type) where
  peers : Seq (Except Error (Peer PublicKey))
  inflight : List (Peer PublicKey)
  streamExhausted : Bool
  pc : Pc PublicKey Error Channel
  queue : List (Except Error Channel)
  receiverKept : Bool
  consumer : Consumer Error Channel
  taken : List (Except Error (Peer PublicKey))
  sent : List (Outcome PublicKey Error Channel)
  received : List (Except Error Channel)

namespace State

/-- There is room for another attempt, and there may be a peer for it. -/
def canDiscover (config : LocatorConfig) (s : State PublicKey Error Channel) : Bool :=
  !s.streamExhausted && decide (s.inflight.length < config.maxInflight)

def hasInflight (s : State PublicKey Error Channel) : Bool := !s.inflight.isEmpty

/-- Go on from an item of the stream. -/
def discovered (s : State PublicKey Error Channel) :
    Option (Except Error (Peer PublicKey) × Seq (Except Error (Peer PublicKey))) →
      State PublicKey Error Channel
  | some (.ok peer, rest) =>
      { s with
        peers := rest
        taken := s.taken ++ [.ok peer]
        inflight := s.inflight ++ [peer]
        pc := .head }
  | some (.error err, rest) =>
      { s with
        peers := rest
        taken := s.taken ++ [.error err]
        pc := .sending (.discovery err) }
  | none => { s with streamExhausted := true, pc := .head }

/-- Go on when the receiver is gone: the result of an attempt ends the loop, an error of
the stream is dropped. -/
def unsent (s : State PublicKey Error Channel) :
    Outcome PublicKey Error Channel → State PublicKey Error Channel
  | .attempt _ _ => { s with pc := .ended .receiverGone }
  | .discovery _ => { s with pc := .head }

/-- Hand a result to the reader.  A call of {lit}`first` returns with the first success,
which drops the locator. -/
def handed (s : State PublicKey Error Channel) (result : Except Error Channel) :
    State PublicKey Error Channel :=
  match s.consumer, result with
  | .first _, .ok channel => { s with consumer := .returned (.ok channel), receiverKept := false }
  | .first _, .error err => { s with consumer := .first (some err) }
  | _, _ => s

end State

/-- A step of the loop, of its environment or of the reader. -/
inductive Action (Error Channel : Type) where
  /-- The head of the loop. -/
  | enter
  /-- An attempt in flight completes and is selected. -/
  | completed (i : Nat) (result : Except Error Channel)
  /-- The attempts in flight turn out to be none. -/
  | drained
  /-- The stream of peers is ready and is selected. -/
  | discover
  /-- The send that is awaited completes. -/
  | send
  /-- The overall timeout elapses. -/
  | elapse
  /-- The task is aborted, as dropping a locator does. -/
  | abort
  /-- The reader receives a result. -/
  | recv
  /-- The reader finds the channel closed. -/
  | closed
  /-- The reader drops the locator. -/
  | dropReceiver

section System

variable (connection : String → Error) (config : LocatorConfig)

/-- One step. -/
def step (s : State PublicKey Error Channel) :
    Action Error Channel → Option (State PublicKey Error Channel)
  | .enter =>
      match s.pc with
      | .head =>
          if !s.canDiscover config && !s.hasInflight then
            some { s with pc := .ended .finished }
          else some { s with pc := .selecting (s.canDiscover config) s.hasInflight }
      | _ => none
  | .completed i result =>
      match s.pc, s.inflight[i]? with
      | .selecting _ true, some peer =>
          some { s with inflight := s.inflight.eraseIdx i, pc := .sending (.attempt peer result) }
      | _, _ => none
  | .drained =>
      match s.pc with
      | .selecting canDiscover true =>
          -- the branch is disabled, and a selection with no branch left panics
          if s.inflight.isEmpty then
            some { s with pc := if canDiscover then .selecting true false else .panicked }
          else none
      | _ => none
  | .discover =>
      match s.pc with
      | .selecting true _ => some (s.discovered s.peers.destruct)
      | _ => none
  | .send =>
      match s.pc with
      | .sending outcome =>
          if s.receiverKept then
            if s.queue.length < config.limit then
              some { s with
                queue := s.queue ++ [outcome.result]
                sent := s.sent ++ [outcome]
                pc := .head }
            else none
          else some (s.unsent outcome)
      | _ => none
  | .elapse =>
      if config.timeout.isSome && s.pc.awaits then some { s with pc := .ended .timedOut } else none
  | .abort =>
      if !s.receiverKept && s.pc.awaits then some { s with pc := .ended .aborted } else none
  | .recv =>
      match s.queue with
      | result :: queue =>
          if s.receiverKept then
            some (({ s with queue := queue, received := s.received ++ [result] } :
              State PublicKey Error Channel).handed result)
          else none
      | [] => none
  | .closed =>
      match s.queue, s.consumer, s.pc with
      | [], .first lastError, .ended _ =>
          if s.receiverKept then
            some { s with
              consumer := .returned (.error (lastError.getD (connection "no peers reachable"))) }
          else none
      | _, _, _ => none
  | .dropReceiver =>
      match s.consumer with
      | .returned _ => none
      | _ => some { s with receiverKept := false }

/-- A locator over a stream of peers, with its reader. -/
def system (peers : Seq (Except Error (Peer PublicKey))) (usage : Usage) :
    System (State PublicKey Error Channel) (Action Error Channel) where
  init :=
    { peers := peers
      inflight := []
      streamExhausted := false
      pc := .head
      queue := []
      receiverKept := true
      consumer := usage.consumer
      taken := []
      sent := []
      received := [] }
  step := step connection config

end System

/-! ## What a step does -/

section Steps

variable (connection : String → Error) (config : LocatorConfig)

/-- What a step of the loop or of its environment can do. -/
inductive LoopStep (s : State PublicKey Error Channel) : State PublicKey Error Channel → Prop
  | finish : s.pc = .head → s.canDiscover config = false → s.hasInflight = false →
      LoopStep s { s with pc := .ended .finished }
  | select : s.pc = .head → s.canDiscover config = true ∨ s.hasInflight = true →
      LoopStep s { s with pc := .selecting (s.canDiscover config) s.hasInflight }
  | complete (canDiscover : Bool) (i : Nat) (peer : Peer PublicKey) (result : Except Error Channel) :
      s.pc = .selecting canDiscover true → s.inflight[i]? = some peer →
      LoopStep s
        { s with inflight := s.inflight.eraseIdx i, pc := .sending (.attempt peer result) }
  | drained (canDiscover : Bool) : s.pc = .selecting canDiscover true → s.inflight = [] →
      LoopStep s { s with pc := if canDiscover then .selecting true false else .panicked }
  | peer (hasInflight : Bool) (peer : Peer PublicKey) (rest : Seq (Except Error (Peer PublicKey))) :
      s.pc = .selecting true hasInflight → s.peers = Seq.cons (.ok peer) rest →
      LoopStep s
        { s with
          peers := rest
          taken := s.taken ++ [.ok peer]
          inflight := s.inflight ++ [peer]
          pc := .head }
  | error (hasInflight : Bool) (err : Error) (rest : Seq (Except Error (Peer PublicKey))) :
      s.pc = .selecting true hasInflight → s.peers = Seq.cons (.error err) rest →
      LoopStep s
        { s with
          peers := rest
          taken := s.taken ++ [.error err]
          pc := .sending (.discovery err) }
  | exhausted (hasInflight : Bool) : s.pc = .selecting true hasInflight → s.peers = Seq.nil →
      LoopStep s { s with streamExhausted := true, pc := .head }
  | send (outcome : Outcome PublicKey Error Channel) : s.pc = .sending outcome →
      s.receiverKept = true → s.queue.length < config.limit →
      LoopStep s
        { s with
          queue := s.queue ++ [outcome.result]
          sent := s.sent ++ [outcome]
          pc := .head }
  | unsent (outcome : Outcome PublicKey Error Channel) : s.pc = .sending outcome →
      s.receiverKept = false → LoopStep s (s.unsent outcome)
  | elapse : config.timeout.isSome = true → s.pc.awaits = true →
      LoopStep s { s with pc := .ended .timedOut }
  | abort : s.receiverKept = false → s.pc.awaits = true →
      LoopStep s { s with pc := .ended .aborted }

/-- What a step of the reader can do. -/
inductive ReaderStep (s : State PublicKey Error Channel) : State PublicKey Error Channel → Prop
  | recv (result : Except Error Channel) (queue : List (Except Error Channel)) :
      s.queue = result :: queue → s.receiverKept = true →
      ReaderStep s (({ s with queue := queue, received := s.received ++ [result] } :
        State PublicKey Error Channel).handed result)
  | closed (lastError : Option Error) (ending : Ending) : s.queue = [] →
      s.consumer = .first lastError → s.pc = .ended ending → s.receiverKept = true →
      ReaderStep s
        { s with
          consumer := .returned (.error (lastError.getD (connection "no peers reachable"))) }
  | drop : (∀ result, s.consumer ≠ .returned result) →
      ReaderStep s { s with receiverKept := false }

variable {connection config} {s s' : State PublicKey Error Channel} {a : Action Error Channel}

/-- Every step is one of the loop or one of the reader. -/
theorem step_cases (h : step connection config s a = some s') :
    LoopStep config s s' ∨ ReaderStep connection s s' := by
  cases a with
  | enter =>
      cases hpc : s.pc with
      | head =>
          simp only [step, hpc] at h
          cases hcan : s.canDiscover config with
          | true =>
              simp only [hcan, Bool.not_true, Bool.false_and, Bool.false_eq_true, if_false,
                Option.some.injEq] at h
              subst h
              exact Or.inl (hcan ▸ .select hpc (Or.inl hcan))
          | false =>
              cases hhas : s.hasInflight with
              | true =>
                  simp only [hcan, hhas, Bool.not_false, Bool.not_true, Bool.and_false,
                    Bool.false_eq_true, if_false, Option.some.injEq] at h
                  subst h
                  exact Or.inl (hcan ▸ hhas ▸ .select hpc (Or.inr hhas))
              | false =>
                  simp only [hcan, hhas, Bool.not_false, Bool.and_self, if_true,
                    Option.some.injEq] at h
                  subst h
                  exact Or.inl (.finish hpc hcan hhas)
      | _ => simp [step, hpc] at h
  | completed i result =>
      cases hpc : s.pc with
      | selecting canDiscover hasInflight =>
          cases hasInflight with
          | false => simp [step, hpc] at h
          | true =>
              cases hpeer : s.inflight[i]? with
              | none => simp [step, hpc, hpeer] at h
              | some peer =>
                  simp only [step, hpc, hpeer, Option.some.injEq] at h
                  subst h
                  exact Or.inl (.complete canDiscover i peer result hpc hpeer)
      | _ => simp [step, hpc] at h
  | drained =>
      cases hpc : s.pc with
      | selecting canDiscover hasInflight =>
          cases hasInflight with
          | false => simp [step, hpc] at h
          | true =>
              simp only [step, hpc] at h
              split at h <;> rename_i hempty
              · rcases Option.some.inj h with rfl
                exact Or.inl (.drained canDiscover hpc (List.isEmpty_iff.mp hempty))
              · contradiction
      | _ => simp [step, hpc] at h
  | discover =>
      cases hpc : s.pc with
      | selecting canDiscover hasInflight =>
          cases canDiscover with
          | false => simp [step, hpc] at h
          | true =>
              simp only [step, hpc, Option.some.injEq] at h
              subst h
              cases hnext : s.peers.destruct with
              | none =>
                  exact Or.inl (.exhausted hasInflight hpc (Seq.destruct_eq_none hnext))
              | some next =>
                  rcases next with ⟨err | peer, rest⟩
                  · exact Or.inl (.error hasInflight err rest hpc (Seq.destruct_eq_cons hnext))
                  · exact Or.inl (.peer hasInflight peer rest hpc (Seq.destruct_eq_cons hnext))
      | _ => simp [step, hpc] at h
  | send =>
      cases hpc : s.pc with
      | sending outcome =>
          simp only [step, hpc] at h
          split at h <;> rename_i hkept
          · split at h <;> rename_i hroom
            · rcases Option.some.inj h with rfl
              exact Or.inl (.send outcome hpc hkept hroom)
            · contradiction
          · rcases Option.some.inj h with rfl
            exact Or.inl (.unsent outcome hpc (Bool.eq_false_iff.mpr hkept))
      | _ => simp [step, hpc] at h
  | elapse =>
      simp only [step] at h
      split at h <;> rename_i hcond
      · rcases Option.some.inj h with rfl
        rw [Bool.and_eq_true] at hcond
        exact Or.inl (.elapse hcond.1 hcond.2)
      · contradiction
  | abort =>
      simp only [step] at h
      split at h <;> rename_i hcond
      · rcases Option.some.inj h with rfl
        rw [Bool.and_eq_true, Bool.not_eq_true'] at hcond
        exact Or.inl (.abort hcond.1 hcond.2)
      · contradiction
  | recv =>
      cases hqueue : s.queue with
      | nil => simp [step, hqueue] at h
      | cons result queue =>
          simp only [step, hqueue] at h
          split at h <;> rename_i hkept
          · rcases Option.some.inj h with rfl
            exact Or.inr (.recv result queue hqueue hkept)
          · contradiction
  | closed =>
      simp only [step] at h
      split at h
      · rename_i lastError ending hqueue hconsumer hpc
        split at h <;> rename_i hkept
        · rcases Option.some.inj h with rfl
          exact Or.inr (.closed lastError ending hqueue hconsumer hpc hkept)
        · contradiction
      · contradiction
  | dropReceiver =>
      simp only [step] at h
      split at h
      · contradiction
      · rename_i hconsumer
        rcases Option.some.inj h with rfl
        exact Or.inr (.drop hconsumer)

end Steps

end Locator

end IrohTransport.Swarm
