import IrohTransport.Lib.Channel
import IrohTransport.Lib.Runs
import Mathlib.Data.List.Perm.Basic
import Mathlib.Data.List.Count

/-!
# Accepting streams

Every connection that the router hands to a service runs a loop of its own, which accepts
the streams of the connection and puts them into the one bounded channel that the tonic
server reads.  A stream for which the channel has no place is rejected; when the server
has gone, the loop rejects the stream it holds and ends.

Main results:

- Theorem {lit}`Incoming.Inv.step`: no step loses or repeats a stream.
- Theorem {lit}`accepted_streams_are_served_or_rejected`: where each accepted stream is,
  in which order the streams of a connection reach the server and when one is rejected.
-/

namespace IrohTransport.Transport

variable {Id : Type}

/-- {lit}`OVERLOAD_STREAM_ERROR_CODE`. -/
def overloadStreamErrorCode : UInt32 := 1

/-- Context information of a connection. -/
structure IrohContext (Id : Type) where
  nodeId : Id
  alpn : List UInt8
deriving DecidableEq

/-- An accepted stream: the loop that has accepted it, how many it had accepted before,
and the context it goes on with. -/
structure IrohStream (Id : Type) where
  loop : Nat
  index : Nat
  context : IrohContext Id
deriving DecidableEq

/-- A stream whose halves were stopped and reset. -/
structure Rejection (Id : Type) where
  stream : IrohStream Id
  stopCode : UInt32
  resetCode : UInt32

/-- Stop and reset a stream. -/
def rejectStream (stream : IrohStream Id) : Rejection Id where
  stream := stream
  stopCode := overloadStreamErrorCode
  resetCode := overloadStreamErrorCode

/-- Where an accept loop stands. -/
inductive AcceptPc where
  | accepting
  /-- A stream was accepted. -/
  | accepted
  /-- It has a place in the channel. -/
  | permitted
  | ended
deriving DecidableEq

/-- A connection with its accept loop and the number of streams it has accepted. -/
structure AcceptLoop (Id : Type) where
  remoteNodeId : Id
  alpn : List UInt8
  pc : AcceptPc
  count : Nat

namespace AcceptLoop

/-- The context of the streams of a connection. -/
def context (self : AcceptLoop Id) : IrohContext Id where
  nodeId := self.remoteNodeId
  alpn := self.alpn

/-- The stream that the loop of this number has accepted last. -/
def current (self : AcceptLoop Id) (p : Nat) : IrohStream Id where
  loop := p
  index := self.count - 1
  context := self.context

/-- The loop holds its last stream. -/
def holding (self : AcceptLoop Id) : Bool :=
  self.pc == .accepted || self.pc == .permitted

/-- The numbers of the streams in hand. -/
def inHand (self : AcceptLoop Id) : List Nat :=
  if self.holding then [self.count - 1] else []

end AcceptLoop

/-- The channel, the loops, and what became of the streams that have left them. -/
structure Incoming (Id : Type) where
  channel : Channel (IrohStream Id)
  loops : List (AcceptLoop Id)
  served : List (IrohStream Id)
  rejected : List (Rejection Id)
  /-- Streams that were queued for a server that has gone. -/
  dropped : List (IrohStream Id)

/-- A step of one loop, of its connection or of the server. -/
inductive AcceptAction (Id : Type) where
  /-- The router hands over a connection. -/
  | connect (remoteNodeId : Id) (alpn : List UInt8)
  /-- A stream is accepted. -/
  | accept (p : Nat)
  /-- A place in the channel is asked for. -/
  | reserve (p : Nat)
  /-- The stream takes its place. -/
  | send (p : Nat)
  /-- The connection is closed. -/
  | close (p : Nat)
  /-- The server takes a stream. -/
  | recv
  /-- The server drops the incoming stream. -/
  | dropReceiver

namespace Incoming

/-- Move one loop. -/
def setLoop (s : Incoming Id) (p : Nat) (loop : AcceptLoop Id) : Incoming Id :=
  { s with loops := s.loops.set p loop }

/-- One step. -/
def step (capacity : Nat) (s : Incoming Id) : AcceptAction Id → Option (Incoming Id)
  | .connect remoteNodeId alpn =>
      some { s with
        loops := s.loops ++
          [{ remoteNodeId := remoteNodeId, alpn := alpn, pc := .accepting, count := 0 }] }
  | .accept p =>
      match s.loops[p]? with
      | some loop =>
          if loop.pc = .accepting then
            some (s.setLoop p { loop with pc := .accepted, count := loop.count + 1 })
          else none
      | none => none
  | .reserve p =>
      match s.loops[p]? with
      | some loop =>
          if loop.pc = .accepted then
            match s.channel.tryReserve capacity with
            | .ok channel => some { s.setLoop p { loop with pc := .permitted } with channel := channel }
            | .error .full =>
                some { s.setLoop p { loop with pc := .accepting } with
                  rejected := s.rejected ++ [rejectStream (loop.current p)] }
            | .error .closed =>
                some { s.setLoop p { loop with pc := .ended } with
                  rejected := s.rejected ++ [rejectStream (loop.current p)] }
          else none
      | none => none
  | .send p =>
      match s.loops[p]? with
      | some loop =>
          if loop.pc = .permitted then
            some { s.setLoop p { loop with pc := .accepting } with
              channel := (s.channel.send (loop.current p)).1
              dropped := s.dropped ++ (s.channel.send (loop.current p)).2 }
          else none
      | none => none
  | .close p =>
      match s.loops[p]? with
      | some loop =>
          if loop.pc = .accepting then some (s.setLoop p { loop with pc := .ended }) else none
      | none => none
  | .recv =>
      if s.channel.closed then none
      else s.channel.recv.map fun taken =>
        { s with channel := taken.2, served := s.served ++ [taken.1] }
  | .dropReceiver =>
      if s.channel.closed then none
      else some { s with
        channel := s.channel.dropReceiver.1
        dropped := s.dropped ++ s.channel.dropReceiver.2 }

/-- The loops of a transport whose channel has this capacity. -/
def system (capacity : Nat) : System (Incoming Id) (AcceptAction Id) where
  init :=
    { channel := .empty
      loops := []
      served := []
      rejected := []
      dropped := [] }
  step := step capacity

/-- The streams that have left their loops. -/
def placed (s : Incoming Id) : List (IrohStream Id) :=
  s.served ++ s.channel.queue ++ s.dropped ++ s.rejected.map Rejection.stream

/-- The numbers of the streams of one loop. -/
def numbers (p : Nat) (streams : List (IrohStream Id)) : List Nat :=
  (streams.filter fun stream => stream.loop = p).map IrohStream.index

/-! ## What a step does -/

variable {capacity : Nat} {s s' : Incoming Id}

/-- What a step can do. -/
inductive Step (capacity : Nat) (s : Incoming Id) : Incoming Id → Prop
  | connect (remoteNodeId : Id) (alpn : List UInt8) :
      Step capacity s { s with
        loops := s.loops ++
          [{ remoteNodeId := remoteNodeId, alpn := alpn, pc := .accepting, count := 0 }] }
  | accept (p : Nat) (loop : AcceptLoop Id) : s.loops[p]? = some loop → loop.pc = .accepting →
      Step capacity s (s.setLoop p { loop with pc := .accepted, count := loop.count + 1 })
  | permit (p : Nat) (loop : AcceptLoop Id) : s.loops[p]? = some loop → loop.pc = .accepted →
      s.channel.closed = false → s.channel.occupied < capacity →
      Step capacity s { s.setLoop p { loop with pc := .permitted } with
        channel := { s.channel with permits := s.channel.permits + 1 } }
  | reject (p : Nat) (loop : AcceptLoop Id) (pc : AcceptPc) : s.loops[p]? = some loop →
      loop.pc = .accepted →
      pc = .accepting ∧ s.channel.closed = false ∧ capacity ≤ s.channel.occupied ∨
        pc = .ended ∧ s.channel.closed = true →
      Step capacity s { s.setLoop p { loop with pc := pc } with
        rejected := s.rejected ++ [rejectStream (loop.current p)] }
  | send (p : Nat) (loop : AcceptLoop Id) : s.loops[p]? = some loop → loop.pc = .permitted →
      Step capacity s { s.setLoop p { loop with pc := .accepting } with
        channel := (s.channel.send (loop.current p)).1
        dropped := s.dropped ++ (s.channel.send (loop.current p)).2 }
  | close (p : Nat) (loop : AcceptLoop Id) : s.loops[p]? = some loop → loop.pc = .accepting →
      Step capacity s (s.setLoop p { loop with pc := .ended })
  | recv (stream : IrohStream Id) (rest : List (IrohStream Id)) :
      s.channel.queue = stream :: rest → s.channel.closed = false →
      Step capacity s { s with
        channel := { s.channel with queue := rest }
        served := s.served ++ [stream] }
  | dropReceiver : s.channel.closed = false →
      Step capacity s { s with
        channel := { s.channel with queue := [], closed := true }
        dropped := s.dropped ++ s.channel.queue }

theorem step_sound {action : AcceptAction Id} (h : s.step capacity action = some s') :
    Step capacity s s' := by
  cases action with
  | connect remoteNodeId alpn => exact Option.some.inj h ▸ .connect remoteNodeId alpn
  | accept p =>
      simp only [step] at h
      split at h <;> rename_i loop hloop
      · split at h <;> rename_i hpc
        · exact Option.some.inj h ▸ .accept p loop hloop hpc
        · contradiction
      · contradiction
  | reserve p =>
      simp only [step] at h
      split at h <;> rename_i loop hloop
      · split at h <;> rename_i hpc
        · split at h <;> rename_i hreserve
          · rcases Channel.tryReserve_ok hreserve with ⟨rfl, hopen, hroom⟩
            exact Option.some.inj h ▸ .permit p loop hloop hpc hopen hroom
          · rcases Channel.tryReserve_error hreserve with ⟨herr, -⟩ | ⟨-, hfull⟩
            · contradiction
            · exact Option.some.inj h ▸ .reject p loop _ hloop hpc (.inl ⟨rfl, hfull⟩)
          · rcases Channel.tryReserve_error hreserve with ⟨-, hclosed⟩ | ⟨herr, -⟩
            · exact Option.some.inj h ▸ .reject p loop _ hloop hpc (.inr ⟨rfl, hclosed⟩)
            · contradiction
        · contradiction
      · contradiction
  | send p =>
      simp only [step] at h
      split at h <;> rename_i loop hloop
      · split at h <;> rename_i hpc
        · exact Option.some.inj h ▸ .send p loop hloop hpc
        · contradiction
      · contradiction
  | close p =>
      simp only [step] at h
      split at h <;> rename_i loop hloop
      · split at h <;> rename_i hpc
        · exact Option.some.inj h ▸ .close p loop hloop hpc
        · contradiction
      · contradiction
  | recv =>
      simp only [step] at h
      split at h <;> rename_i hopen
      · contradiction
      · rcases Option.map_eq_some_iff.mp h with ⟨⟨stream, channel⟩, hrecv, rfl⟩
        rcases Channel.recv_eq_some hrecv with ⟨hqueue, hchannel⟩
        rw [hchannel]
        exact .recv stream channel.queue hqueue (by simpa using hopen)
  | dropReceiver =>
      simp only [step] at h
      split at h <;> rename_i hopen
      · contradiction
      · exact Option.some.inj h ▸ .dropReceiver (by simpa using hopen)

/-! ## The account of the streams -/

@[simp] theorem numbers_append (p : Nat) (l m : List (IrohStream Id)) :
    numbers p (l ++ m) = numbers p l ++ numbers p m := by
  simp [numbers]

theorem numbers_singleton (p : Nat) (stream : IrohStream Id) :
    numbers p [stream] = if stream.loop = p then [stream.index] else [] := by
  unfold numbers
  split <;> rename_i h <;> simp [h]

/-- Each loop has given away or holds the streams it has accepted, one of each number, and
the streams that were given away go on with the context of their connection. -/
structure Accounted (loops : List (AcceptLoop Id)) (placed : List (IrohStream Id)) : Prop where
  account : ∀ p loop, loops[p]? = some loop →
    (numbers p placed ++ loop.inHand).Perm (List.range loop.count)
  known : ∀ stream ∈ placed, ∃ loop, loops[stream.loop]? = some loop ∧
    stream.context = loop.context
  held : ∀ (p : Nat) (loop : AcceptLoop Id), loops[p]? = some loop → loop.holding = true →
    0 < loop.count

namespace Accounted

variable {loops : List (AcceptLoop Id)} {placed placed' : List (IrohStream Id)} {p : Nat}
  {loop : AcceptLoop Id}

/-- The order of what was given away does not matter. -/
theorem perm (h : Accounted loops placed) (hperm : placed'.Perm placed) :
    Accounted loops placed' where
  account p loop hloop :=
    (((hperm.filter _).map _).append_right _).trans (h.account p loop hloop)
  known stream hmem := h.known stream (hperm.subset hmem)
  held := h.held

/-- A new connection has accepted nothing. -/
theorem connect (h : Accounted loops placed) (remoteNodeId : Id) (alpn : List UInt8) :
    Accounted (loops ++
      [{ remoteNodeId := remoteNodeId, alpn := alpn, pc := .accepting, count := 0 }]) placed := by
  have hlt : ∀ stream ∈ placed, stream.loop < loops.length := by
    intro stream hmem
    rcases h.known stream hmem with ⟨loop, hloop, -⟩
    exact (List.getElem?_eq_some_iff.mp hloop).1
  constructor
  case account =>
    intro p loop hloop
    rcases Nat.lt_or_ge p loops.length with hp | hp
    · rw [List.getElem?_append_left hp] at hloop
      exact h.account p loop hloop
    · have hnone : numbers p placed = [] := by
        rw [numbers, List.map_eq_nil_iff, List.filter_eq_nil_iff]
        intro stream hmem heq
        have hstream := hlt stream hmem
        rw [decide_eq_true_eq] at heq
        omega
      rw [List.getElem?_append_right hp, List.getElem?_singleton] at hloop
      split at hloop
      · obtain rfl := Option.some.inj hloop
        rw [hnone]
        exact List.Perm.refl _
      · contradiction
  case known =>
    intro stream hmem
    rcases h.known stream hmem with ⟨loop, hloop, hcontext⟩
    exact ⟨loop, by rw [List.getElem?_append_left (hlt stream hmem), hloop], hcontext⟩
  case held =>
    intro p loop hloop hholding
    rcases Nat.lt_or_ge p loops.length with hp | hp
    · rw [List.getElem?_append_left hp] at hloop
      exact h.held p loop hloop hholding
    · rw [List.getElem?_append_right hp, List.getElem?_singleton] at hloop
      split at hloop
      · obtain rfl := Option.some.inj hloop
        contradiction
      · contradiction

/-- A loop moves on, and what was given away with it. -/
theorem set (h : Accounted loops placed) (hloop : loops[p]? = some loop) {loop' : AcceptLoop Id}
    (hcontext : loop'.context = loop.context) (hheld : loop'.holding = true → 0 < loop'.count)
    (haccount : (numbers p placed' ++ loop'.inHand).Perm (List.range loop'.count))
    (hothers : ∀ q ≠ p, numbers q placed' = numbers q placed)
    (hknown : ∀ stream ∈ placed', stream ∈ placed ∨ stream = loop.current p) :
    Accounted (loops.set p loop') placed' := by
  have hp : p < loops.length := (List.getElem?_eq_some_iff.mp hloop).1
  have hself : (loops.set p loop')[p]? = some loop' := by
    rw [List.getElem?_set_self hp]
  constructor
  case account =>
    intro q other hother
    by_cases hq : q = p
    · subst hq
      obtain rfl := Option.some.inj (hself.symm.trans hother)
      exact haccount
    · rw [List.getElem?_set_ne (Ne.symm hq)] at hother
      rw [hothers q hq]
      exact h.account q other hother
  case known =>
    have hwas : ∀ (q : Nat) (other : AcceptLoop Id), loops[q]? = some other →
        ∃ other', (loops.set p loop')[q]? = some other' ∧ other.context = other'.context := by
      intro q other hother
      by_cases hq : q = p
      · subst hq
        obtain rfl := Option.some.inj (hloop.symm.trans hother)
        exact ⟨loop', hself, hcontext.symm⟩
      · exact ⟨other, by rw [List.getElem?_set_ne (Ne.symm hq), hother], rfl⟩
    intro stream hmem
    rcases hknown stream hmem with hmem | rfl
    · rcases h.known stream hmem with ⟨other, hother, hsame⟩
      rcases hwas _ other hother with ⟨other', hother', hcontext'⟩
      exact ⟨other', hother', hsame.trans hcontext'⟩
    · exact ⟨loop', hself, hcontext.symm⟩
  case held =>
    intro q other hother hholding
    by_cases hq : q = p
    · subst hq
      obtain rfl := Option.some.inj (hself.symm.trans hother)
      exact hheld hholding
    · rw [List.getElem?_set_ne (Ne.symm hq)] at hother
      exact h.held q other hother hholding

/-- A loop accepts one more stream. -/
theorem accept (h : Accounted loops placed) (hloop : loops[p]? = some loop)
    (hpc : loop.pc = .accepting) :
    Accounted (loops.set p { loop with pc := .accepted, count := loop.count + 1 }) placed := by
  refine h.set hloop rfl (fun _ => Nat.succ_pos _) ?_ (fun _ _ => rfl) fun _ hmem => .inl hmem
  have haccount := h.account p loop hloop
  simp only [AcceptLoop.inHand, AcceptLoop.holding, hpc] at haccount ⊢
  rw [List.range_succ]
  simpa using haccount.append_right [loop.count]

/-- A loop that keeps what it holds moves on. -/
theorem turn (h : Accounted loops placed) (hloop : loops[p]? = some loop) {pc : AcceptPc}
    (hholding : AcceptLoop.holding { loop with pc := pc } = loop.holding) :
    Accounted (loops.set p { loop with pc := pc }) placed := by
  refine h.set hloop rfl ?_ ?_ (fun _ _ => rfl) fun _ hmem => .inl hmem
  · rw [hholding]
    exact h.held p loop hloop
  · have haccount := h.account p loop hloop
    simpa only [AcceptLoop.inHand, hholding] using haccount

/-- A loop gives away the stream it holds. -/
theorem leave (h : Accounted loops placed) (hloop : loops[p]? = some loop)
    (hholding : loop.holding = true) {pc : AcceptPc}
    (hfree : AcceptLoop.holding { loop with pc := pc } = false) :
    Accounted (loops.set p { loop with pc := pc }) (placed ++ [loop.current p]) := by
  refine h.set hloop rfl ?_ ?_ ?_ ?_
  · rw [hfree]
    exact fun hfalse => nomatch hfalse
  · have haccount := h.account p loop hloop
    simpa [AcceptLoop.inHand, hfree, hholding, numbers_singleton, AcceptLoop.current]
      using haccount
  · intro q hq
    simp [numbers_singleton, AcceptLoop.current, Ne.symm hq]
  · intro stream hmem
    simpa using hmem

/-- What a loop has given away it has accepted before the stream it holds. -/
theorem lt_current (h : Accounted loops placed) (hloop : loops[p]? = some loop)
    (hholding : loop.holding = true) {i : Nat} (hi : i ∈ numbers p placed) : i < loop.count - 1 := by
  have haccount := h.account p loop hloop
  rw [AcceptLoop.inHand, hholding, if_pos rfl] at haccount
  have hlt : i < loop.count :=
    List.mem_range.mp (haccount.subset (List.mem_append_left _ hi))
  have hnodup := haccount.nodup_iff.mpr List.nodup_range
  have hne := (List.nodup_append.mp hnodup).2.2 i hi _ List.mem_cons_self
  omega

end Accounted

/-! ## The invariant -/

/-- The channel keeps to its capacity and knows how many places were promised, every
stream is accounted for, those of one connection stay in order, and nothing is dropped
while the server is there. -/
structure Inv (capacity : Nat) (s : Incoming Id) : Prop where
  bounded : s.channel.occupied ≤ capacity
  promised : s.channel.permits = s.loops.countP fun loop => loop.pc = .permitted
  accounted : Accounted s.loops s.placed
  ordered : ∀ p, (numbers p (s.served ++ s.channel.queue)).Pairwise (· < ·)
  kept : s.channel.closed = false → s.dropped = []

/-- A loop that turns to this place changes the number of promised places by as much. -/
theorem countP_set {loops : List (AcceptLoop Id)} {p : Nat} {loop : AcceptLoop Id}
    (hloop : loops[p]? = some loop) (loop' : AcceptLoop Id) :
    (loops.set p loop').countP (fun loop => loop.pc = .permitted) +
        (if loop.pc = .permitted then 1 else 0) =
      loops.countP (fun loop => loop.pc = .permitted) +
        if loop'.pc = .permitted then 1 else 0 := by
  rcases List.getElem?_eq_some_iff.mp hloop with ⟨hp, rfl⟩
  have hpos : loops[p].pc = .permitted → 0 < loops.countP fun loop => loop.pc = .permitted :=
    fun hpc => List.countP_pos_iff.mpr ⟨_, List.getElem_mem hp, by simpa using hpc⟩
  rw [List.countP_set hp]
  split <;> split <;> simp_all

namespace Inv

/-- A loop goes on without its streams or its place. -/
theorem turn (h : Inv capacity s) {p : Nat} {loop : AcceptLoop Id}
    (hloop : s.loops[p]? = some loop) {loop' : AcceptLoop Id} (hbefore : loop.pc ≠ .permitted)
    (hafter : loop'.pc ≠ .permitted)
    (haccounted : Accounted (s.loops.set p loop') s.placed) : Inv capacity (s.setLoop p loop') where
  bounded := h.bounded
  promised := by
    have hcount := countP_set hloop loop'
    rw [if_neg hbefore, if_neg hafter] at hcount
    exact h.promised.trans hcount.symm
  accounted := haccounted
  ordered := h.ordered
  kept := h.kept

/-- A loop sends the stream it holds a place for. -/
theorem send (h : Inv capacity s) {p : Nat} {loop : AcceptLoop Id}
    (hloop : s.loops[p]? = some loop) (hpc : loop.pc = .permitted) :
    Inv capacity { s.setLoop p { loop with pc := .accepting } with
      channel := (s.channel.send (loop.current p)).1
      dropped := s.dropped ++ (s.channel.send (loop.current p)).2 } := by
  have hholding : loop.holding = true := by simp [AcceptLoop.holding, hpc]
  have hpermits : 0 < s.channel.permits := by
    rw [h.promised]
    exact List.countP_pos_iff.mpr ⟨loop, List.mem_of_getElem? hloop, by simpa using hpc⟩
  have hsent := Channel.queue_send s.channel (loop.current p)
  constructor
  case bounded => exact Nat.le_trans (Channel.occupied_send hpermits _) h.bounded
  case promised =>
    have hcount := countP_set hloop { loop with pc := .accepting }
    simp only [hpc, if_true] at hcount
    have hpromised := h.promised
    simp only [setLoop, Channel.permits_send]
    simp only [reduceCtorEq, if_false] at hcount
    omega
  case accounted =>
    refine (h.accounted.leave hloop hholding rfl).perm ?_
    rcases hsent with ⟨-, hqueue, hdropped⟩ | ⟨-, hqueue, hdropped⟩
    · simp only [placed, setLoop, hqueue, hdropped, List.append_nil, List.append_assoc]
      refine List.Perm.append_left _ (List.Perm.append_left _ ?_)
      rw [← List.append_assoc s.dropped]
      exact List.perm_append_comm
    · simp only [placed, setLoop, hqueue, hdropped, List.append_assoc]
      refine List.Perm.append_left _ (List.Perm.append_left _ (List.Perm.append_left _ ?_))
      exact List.perm_append_comm
  case ordered =>
    intro q
    rcases hsent with ⟨-, hqueue, -⟩ | ⟨-, hqueue, -⟩
    · simp only [setLoop, hqueue]
      rw [← List.append_assoc, numbers_append, numbers_singleton]
      split <;> rename_i hq
      · refine List.pairwise_append.mpr ⟨h.ordered q, List.pairwise_singleton _ _, ?_⟩
        intro i hi j hj
        obtain rfl := List.mem_singleton.mp hj
        obtain rfl : p = q := hq
        refine h.accounted.lt_current hloop hholding ?_
        rw [placed, List.append_assoc, numbers_append]
        exact List.mem_append_left _ hi
      · rw [List.append_nil]
        exact h.ordered q
    · simp only [setLoop, hqueue]
      exact h.ordered q
  case kept =>
    intro hopen
    have hopen : s.channel.closed = false := by simpa [setLoop] using hopen
    rcases hsent with ⟨-, -, hdropped⟩ | ⟨hclosed, -, -⟩
    · simp only [hdropped, List.append_nil]
      exact h.kept hopen
    · rw [hopen] at hclosed
      contradiction

/-- No step loses or repeats a stream. -/
theorem step (h : Inv capacity s) (hstep : Step capacity s s') : Inv capacity s' := by
  cases hstep with
  | connect remoteNodeId alpn =>
      exact
        { bounded := h.bounded
          promised := by simpa using h.promised
          accounted := h.accounted.connect remoteNodeId alpn
          ordered := h.ordered
          kept := h.kept }
  | accept p loop hloop hpc =>
      exact h.turn hloop (by simp [hpc]) (by simp) (h.accounted.accept hloop hpc)
  | permit p loop hloop hpc hopen hroom =>
      constructor
      case bounded =>
        simp only [Channel.occupied] at hroom ⊢
        omega
      case promised =>
        have hcount := countP_set hloop { loop with pc := .permitted }
        simp only [hpc, reduceCtorEq, if_false, if_true, Nat.add_zero] at hcount
        simp only [setLoop, hcount, h.promised]
      case accounted => exact h.accounted.turn hloop (by simp [AcceptLoop.holding, hpc])
      case ordered => exact h.ordered
      case kept => exact h.kept
  | reject p loop pc hloop hpc hwhy =>
      have hafter : pc = .accepting ∨ pc = .ended := hwhy.imp And.left And.left
      have hturn : AcceptLoop.holding { loop with pc := pc } = false := by
        rcases hafter with rfl | rfl <;> rfl
      constructor
      case bounded => exact h.bounded
      case promised =>
        have hcount := countP_set hloop { loop with pc := pc }
        have hnot : pc ≠ .permitted := by rcases hafter with rfl | rfl <;> simp
        simp only [hpc, reduceCtorEq, if_false, hnot] at hcount
        exact h.promised.trans hcount.symm
      case accounted =>
        refine (h.accounted.leave hloop (by simp [AcceptLoop.holding, hpc]) hturn).perm ?_
        simp [placed, setLoop, rejectStream]
      case ordered => exact h.ordered
      case kept => exact h.kept
  | send p loop hloop hpc => exact h.send hloop hpc
  | close p loop hloop hpc =>
      refine h.turn hloop (by simp [hpc]) (by simp) (h.accounted.turn hloop ?_)
      rw [AcceptLoop.holding, AcceptLoop.holding, hpc]
      rfl
  | recv stream rest hqueue hopen =>
      constructor
      case bounded =>
        have hbounded := h.bounded
        simp only [Channel.occupied, hqueue, List.length_cons] at hbounded ⊢
        omega
      case promised => exact h.promised
      case accounted =>
        refine h.accounted.perm (List.Perm.of_eq ?_)
        simp [placed, hqueue]
      case ordered =>
        intro p
        have hordered := h.ordered p
        rwa [hqueue, List.append_cons] at hordered
      case kept => exact h.kept
  | dropReceiver hopen =>
      constructor
      case bounded =>
        have hbounded := h.bounded
        simp only [Channel.occupied, List.length_nil] at hbounded ⊢
        omega
      case promised => exact h.promised
      case accounted =>
        refine h.accounted.perm (List.Perm.of_eq ?_)
        simp [placed, h.kept hopen]
      case ordered =>
        intro p
        have hordered := h.ordered p
        rw [numbers_append] at hordered ⊢
        simpa [numbers] using (List.pairwise_append.mp hordered).1
      case kept =>
        intro hfalse
        contradiction

end Inv

theorem inv_of_reachable (hs : (system capacity).Reachable s) : Inv capacity s := by
  refine System.ReachableWhen.invariant (I := Inv capacity) ?_ ?_ hs
  · exact
      { bounded := Nat.zero_le _
        promised := rfl
        accounted :=
          { account := fun _ _ hnone => nomatch hnone
            known := fun _ hnone => nomatch hnone
            held := fun _ _ hnone => nomatch hnone }
        ordered := fun _ => .nil
        kept := fun _ => rfl }
  · intro s s' action _ ih _ hstep
    exact ih.step (step_sound hstep)

/-- A step rejects the stream that a loop holds: every place is taken, and the loop goes
on, or the server has gone, and the loop ends. -/
structure Rejects (capacity : Nat) (s s' : Incoming Id) (p : Nat) (loop : AcceptLoop Id)
    (pc : AcceptPc) : Prop where
  holding : s.loops[p]? = some loop ∧ loop.pc = .accepted
  turned : s'.loops[p]? = some { loop with pc := pc }
  rejected : s'.rejected = s.rejected ++ [rejectStream (loop.current p)]
  reason : pc = .accepting ∧ s.channel.closed = false ∧ s.channel.occupied = capacity ∨
    pc = .ended ∧ s.channel.closed = true

/-- Nothing is rejected in another way. -/
theorem rejected_of_step {action : AcceptAction Id} (hbounded : s.channel.occupied ≤ capacity)
    (h : s.step capacity action = some s') :
    s'.rejected = s.rejected ∨ ∃ p loop pc, Rejects capacity s s' p loop pc := by
  cases step_sound h with
  | reject p loop pc hloop hpc hwhy =>
      have hself : (s.loops.set p { loop with pc := pc })[p]? = some { loop with pc := pc } :=
        List.getElem?_set_self (List.getElem?_eq_some_iff.mp hloop).1
      refine .inr ⟨p, loop, pc, ⟨hloop, hpc⟩, hself, rfl, ?_⟩
      exact hwhy.imp_left fun hfull => ⟨hfull.1, hfull.2.1, Nat.le_antisymm hbounded hfull.2.2⟩
  | connect => exact .inl rfl
  | accept => exact .inl rfl
  | permit => exact .inl rfl
  | send => exact .inl rfl
  | close => exact .inl rfl
  | recv => exact .inl rfl
  | dropReceiver => exact .inl rfl

/-- A loop that holds a stream never waits. -/
theorem isSome_step_of_holding {p : Nat} {loop : AcceptLoop Id} (hloop : s.loops[p]? = some loop)
    (hholding : loop.holding = true) :
    (s.step capacity (.reserve p)).isSome = true ∨ (s.step capacity (.send p)).isSome = true := by
  have hpc : loop.pc = .accepted ∨ loop.pc = .permitted := by
    simpa [AcceptLoop.holding] using hholding
  rcases hpc with hpc | hpc
  · left
    simp only [step, hloop, hpc, if_true]
    split <;> rfl
  · right
    simp [step, hloop, hpc]

end Incoming

open Incoming

/-- However connections, their streams and the server interleave: the channel keeps to its
capacity; each loop still holds, or has served, queued, rejected or lost with the server,
each stream that it accepted exactly once, with the context of its connection; the
streams of a connection reach the server in the order of their acceptance; none is lost
while the server is there.  A stream is rejected only when every place of the channel is
taken, and the loop goes on, or when the server has gone, and the loop ends; and a loop
that holds a stream never waits for the server. -/
theorem accepted_streams_are_served_or_rejected {capacity : Nat} {s : Incoming Id}
    (hs : (system capacity).Reachable s) :
    s.channel.occupied ≤ capacity ∧
      (∀ p loop, s.loops[p]? = some loop →
        (numbers p s.placed ++ loop.inHand).Perm (List.range loop.count) ∧
          (numbers p (s.served ++ s.channel.queue)).Pairwise (· < ·)) ∧
      (∀ stream ∈ s.placed, ∃ loop, s.loops[stream.loop]? = some loop ∧
        stream.context = loop.context) ∧
      (s.channel.closed = false → s.dropped = []) ∧
      (∀ action s', s.step capacity action = some s' →
        s'.rejected = s.rejected ∨ ∃ p loop pc, Rejects capacity s s' p loop pc) ∧
      ∀ p loop, s.loops[p]? = some loop → loop.holding = true →
        (s.step capacity (.reserve p)).isSome = true ∨
          (s.step capacity (.send p)).isSome = true := by
  have hinv := inv_of_reachable hs
  refine ⟨hinv.bounded, ?_, hinv.accounted.known, hinv.kept, ?_, ?_⟩
  · intro p loop hloop
    exact ⟨hinv.accounted.account p loop hloop, hinv.ordered p⟩
  · intro action s' hstep
    exact rejected_of_step hinv.bounded hstep
  · intro p loop hloop hholding
    exact isSome_step_of_holding hloop hholding

/-- Two connections share a channel with one place. -/
def overloadedIncoming : List (AcceptAction Nat) :=
  [.connect 7 [1], .connect 8 [2], .accept 0, .accept 1, .reserve 1, .reserve 0, .send 1,
    .accept 0, .recv, .reserve 0, .send 0]

/-- The first stream of the first connection is rejected, its second is queued. -/
theorem accepted_streams_are_served_or_rejected_overloaded :
    ∃ s : Incoming Nat, (system 1).Reachable s ∧ s.rejected.length = 1 ∧
      s.served.length = 1 ∧ s.channel.queue.length = 1 ∧ s.channel.occupied ≤ 1 := by
  obtain ⟨s, hs, hseen⟩ := System.exists_of_runWhen_any
    (S := (system 1 : System (Incoming Nat) (AcceptAction Nat)))
    (C := fun _ _ => True) (l := overloadedIncoming)
    (P := fun s => s.rejected.length == 1 && s.served.length == 1 &&
      s.channel.queue.length == 1) (by decide)
  simp only [Bool.and_eq_true, beq_iff_eq] at hseen
  exact ⟨s, hs, hseen.1.1, hseen.1.2, hseen.2, (accepted_streams_are_served_or_rejected hs).1⟩

end IrohTransport.Transport
