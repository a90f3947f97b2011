import IrohTransport.Pool.Leases
import IrohTransport.Pool.Replies
import IrohTransport.Pool.Slots

/-!
# Reuse of leased connections

A connection with a live reference should keep its slot, so that further requests
for its peer reuse it.  The pool actor learns that a connection is idle from a
message that travels through the same queue as the requests, and it puts the
connection into its idle queue even when a request handled before that message has
taken it out of idleness again.  The next eviction then removes the slot of a leased
connection.

Main results:

- Theorem {lit}`State.ReuseInv.step`: the invariant that ties the idle queue, the
  messages in flight and the mailboxes to the slots.
- Theorem {lit}`leased_connection_is_reused`: as long as messages about a connection
  are not handled late, a leased open connection keeps its slot, is never evicted and
  is the only one handed out for its peer.
- Theorem {lit}`late_idle_evicts_leased`: a late message costs a leased connection
  its slot, and its peer gets a second connection.
-/

namespace IrohTransport.Pool

namespace ConnActor

variable {Id : Type}

/-- The actor has a connection or is connecting, and is not on its way out. -/
def live (self : ConnActor Id) : Bool :=
  self.holdsConnection &&
    match self.pc with
    | .onIdleTimeout | .exiting | .stopped => false
    | _ => true

/-- The actor has a request in its mailbox or is about to serve one. -/
def occupied (self : ConnActor Id) : Bool :=
  !self.mailbox.isEmpty ||
    match self.pc with
    | .onRequest _ => true
    | _ => false

theorem not_live_of_stopped {a : ConnActor Id} (hpc : a.pc = .stopped) : a.live = false := by
  simp [live, hpc]

/-- An open connection with a live reference belongs to an actor that stays. -/
theorem live_of_leased {a : ConnActor Id} (hlocal : a.LocalInv) (hopen : a.isOpen = true)
    (hleased : a.counter.count ≠ 0) : a.live = true := by
  have htimeout : a.pc ≠ .onIdleTimeout := fun hpc => hleased (hlocal.settled (.inr hpc))
  have hexiting : a.pc ≠ .exiting := by
    intro hpc
    rcases hlocal.exiting hpc with hzero | hclosed
    · exact hleased hzero
    · rw [hopen] at hclosed
      contradiction
  have hstopped : a.pc ≠ .stopped := by
    intro hpc
    rw [hlocal.stopped hpc] at hopen
    contradiction
  simp only [live, holdsConnection, hopen, Bool.or_true, Bool.true_and]

/-- No move brings an actor back. -/
theorem step_live {env : Env} {a a' : ConnActor Id} {ev : ConnEvent} {eff : Effect Id}
    (h : a.step env ev = some (a', eff)) (hlive : a'.live = true) : a.live = true := by
  simp only [live, Bool.and_eq_true] at hlive ⊢
  refine ⟨step_holdsConnection h hlive.1, ?_⟩
  have hstay := hlive.2
  cases step_moves h with
  | onIdleTimeout hpc | exit hpc => simp [goto, exit] at hstay
  | connectFailed _ _ hpc | serveClosed _ hpc | serveGone _ hpc | serveLease _ hpc
    | serveError _ hpc | sendClosed _ hpc | replyClosed _ hpc | pollClosed _ hpc
    | pollRequest _ _ _ hpc | pollNotified _ hpc | pollIdleTimeout _ hpc => simp [hpc]
  | _ hpc => simp [hpc]

/-- A move takes requests only from the mailbox. -/
theorem step_occupied {env : Env} {a a' : ConnActor Id} {ev : ConnEvent} {eff : Effect Id}
    (h : a.step env ev = some (a', eff)) (hocc : a'.occupied = true) : a.occupied = true := by
  cases step_moves h with
  | pollRequest notified req rest hpc hmail => simp [occupied, hmail]
  | exit hpc => simp [occupied, exit] at hocc
  | _ => simp_all [occupied, goto]

/-- An actor announces its shutdown only when it is of no use any more. -/
theorem step_send_shutdown {env : Env} {a a' : ConnActor Id} {ev : ConnEvent} {id : Id}
    {generation : Nat} (hlocal : LocalInv a)
    (h : a.step env ev = some (a', .send (.shutdown id generation))) :
    a'.live = false ∧ a.nodeId = id ∧ a.generation = generation := by
  have hmoves := step_moves h
  generalize heff : Effect.send (Msg.shutdown id generation) = eff at hmoves
  cases hmoves with
  | reportFailure hpc =>
      cases heff
      have hnone := hlocal.connecting (.inr hpc)
      exact ⟨by simp [live, holdsConnection, goto, isOpen, hnone], rfl, rfl⟩
  | sendClosed tx hpc =>
      cases heff
      have hclosed := hlocal.closing (.inr ⟨tx, .inl hpc⟩)
      have hopen : (a.goto (.replyClosed tx)).isOpen = false := isOpen_eq_false_of_isClosed hclosed
      have hholds : (a.goto (.replyClosed tx)).holdsConnection = false := by
        rw [holdsConnection, hopen]
        rfl
      exact ⟨by simp [live, hholds], rfl, rfl⟩
  | onClosed hpc | onIdleTimeout hpc =>
      cases heff
      exact ⟨by simp [live, goto], rfl, rfl⟩
  | exit => simp [exit] at heff
  | _ => cases heff

/-- A reference is handed out by a live actor with a request in its hands. -/
theorem step_lease {env : Env} {a a' : ConnActor Id} {ev : ConnEvent} {tx : Nat}
    (h : a.step env ev = some (a', .lease tx)) : a.live = true ∧ a.occupied = true := by
  have hmoves := step_moves h
  generalize heff : Effect.lease tx = eff at hmoves
  cases hmoves with
  | serveLease tx' hpc hopen => simp [live, holdsConnection, occupied, hpc, hopen]
  | exit => simp [exit] at heff
  | _ => cases heff

end ConnActor

namespace State

variable {Id : Type} [DecidableEq Id]

/-- The connection is in use: its actor is live and has a request or a lease out. -/
def inUse (s : State Id) (p : Nat) : Bool :=
  (s.conns[p]?).any fun a => a.live && (a.occupied || 0 < s.liveRefs p)

/-- The steps that handle a message about a connection too late: the connection is
reported idle while it is in use again, or its slot is given up while its actor still
has requests to serve.  A generation counter that wraps around counts as one. -/
def handlesLate (s : State Id) : Action Id → Bool
  | .pool .handle =>
      match s.poolPc with
      | .handling (.idle id generation) =>
          (s.pool.connections.lookup id).any fun slot =>
            slot.generation = generation && s.inUse slot.tx
      | .handling (.shutdown id generation) =>
          (s.pool.connections.lookup id).any fun slot =>
            slot.generation = generation &&
              (s.conns[slot.tx]?).any fun a => a.live && a.occupied
      | .handling (.request _) => 2 ^ 64 ≤ s.conns.length + 1
      | _ => false
  | _ => false

/-- The slot of the actor's peer is its own. -/
def HasSlot (s : State Id) (p : Nat) (a : ConnActor Id) : Prop :=
  ∃ slot, s.pool.connections.lookup a.nodeId = some slot ∧ slot.tx = p

/-- Why the slot of an actor must not be given up: it has a request, gets one now, or
has a lease out that nobody has invalidated. -/
inductive Needed (s : State Id) (p : Nat) (a : ConnActor Id) : Prop
  | occupied : a.occupied = true → Needed s p a
  | first (req : RequestMsg Id) : s.poolPc = .sendFirst p req → Needed s p a
  | forwarded (req : RequestMsg Id) : s.poolPc = .handling (.request req) →
      req.id = a.nodeId → Needed s p a
  | leased : 0 < s.liveRefs p → p ∉ s.invalidated → Needed s p a

/-- The invariant of the runs in which no message is handled late. -/
structure ReuseInv (s : State Id) : Prop where
  fewer : s.conns.length < 2 ^ 64
  requested : ∀ (p : Nat) (a : ConnActor Id), s.conns[p]? = some a → a.live = true →
    (a.occupied = true ∨ ∃ req, s.poolPc = .sendFirst p req) → s.HasSlot p a
  leased : ∀ (p : Nat) (a : ConnActor Id), s.conns[p]? = some a → a.live = true →
    0 < s.liveRefs p → p ∉ s.invalidated → s.HasSlot p a
  idle : ∀ (id : Id) (slot : ConnectionSlot) (a : ConnActor Id),
    (id, slot.generation) ∈ s.pool.idle → s.pool.connections.lookup id = some slot →
    s.conns[slot.tx]? = some a → a.live = true → a.occupied = false ∧ s.liveRefs slot.tx = 0
  fresh : ∀ p req generation, s.poolPc = .sendFirst p req → (req.id, generation) ∉ s.pool.idle
  ended : ∀ id generation, s.InFlight (.shutdown id generation) →
    ∃ p a, s.conns[p]? = some a ∧ a.nodeId = id ∧ a.generation = generation ∧
      (a.live = false ∨ p ∈ s.invalidated)

theorem reuseInv_initial (options : PoolOptions) : ReuseInv (initial options : State Id) := by
  refine ⟨Nat.two_pow_pos 64, ?_, ?_, ?_, ?_, ?_⟩
  · simp [initial]
  · simp [initial]
  · simp [initial]
  · simp [initial]
  · simp [initial, InFlight]

/-! ## Steps -/

theorem ConnChange.live {s : State Id} {p : Nat} {a a' : ConnActor Id} {action : Action Id}
    (h : ConnChange s p a action a') (hlive : a'.live = true) : a.live = true := by
  cases h with
  | moved event _ effect hmove => exact ConnActor.step_live hmove hlive
  | remoteClosed hopen =>
      simp only [ConnActor.live, Bool.and_eq_true] at hlive ⊢
      exact ⟨by simp [ConnActor.holdsConnection, hopen], hlive.2⟩
  | woken notified hpc =>
      simpa [ConnActor.live, ConnActor.holdsConnection, ConnActor.goto, ConnActor.isOpen, hpc]
        using hlive
  | _ => exact hlive

/-- An actor gets a request only from the pool actor. -/
theorem ConnChange.occupied {s : State Id} {p : Nat} {a a' : ConnActor Id}
    {action : Action Id} (h : ConnChange s p a action a') (hocc : a'.occupied = true) :
    a.occupied = true ∨
    (∃ req slot, action = .pool .handle ∧ s.poolPc = .handling (.request req) ∧
      s.pool.connections.lookup req.id = some slot ∧ slot.tx = p) ∨
    ∃ req, action = .pool .sendFirst ∧ s.poolPc = .sendFirst p req := by
  cases h with
  | moved event _ effect hmove => exact .inl (ConnActor.step_occupied hmove hocc)
  | forwarded req slot hpc hlookup htx =>
      exact .inr (.inl ⟨req, slot, rfl, hpc, hlookup, htx⟩)
  | first req hpc => exact .inr (.inr ⟨req, rfl, hpc⟩)
  | woken notified hpc =>
      exact .inl (by simpa [ConnActor.occupied, ConnActor.goto, hpc] using hocc)
  | _ => exact .inl hocc

/-- A slot that is needed is not given up. -/
theorem ReuseInv.slot_kept {s s' : State Id} {action : Action Id} (hinv : s.ReuseInv)
    (hslots : s.SlotInv) (hintime : s.handlesLate action = false) (h : Step s action s')
    (hrx : s'.rxClosed = false) {p : Nat} {a : ConnActor Id} (ha : s.conns[p]? = some a)
    (hlive : a.live = true) (hneeded : s.Needed p a) (hslot : s.HasSlot p a) :
    ∃ slot, s'.pool.connections.lookup a.nodeId = some slot ∧ slot.tx = p := by
  rcases hslot with ⟨slot, hlookup, htx⟩
  have hstopped : a.pc ≠ .stopped := by
    intro hpc
    rw [ConnActor.not_live_of_stopped hpc] at hlive
    contradiction
  have hneeds : ∀ id, id = a.nodeId → ¬s.pool.NeedsSlot id s.trySend := by
    rintro _ rfl hneeds
    exact hstopped (trySend_eq_closed ha (htx ▸ hneeds slot hlookup))
  have hchange := step_slot h a.nodeId
  generalize s'.pool.connections.lookup a.nodeId = found at hchange
  cases hchange with
  | same => exact ⟨slot, hlookup, htx⟩
  | opened req _ hpeer hneed => exact (hneeds req.id hpeer.symm hneed).elim
  | stale req _ hpeer hneed => exact (hneeds req.id hpeer.symm hneed).elim
  | evicted victim hvictim =>
      rcases evicting_spec hvictim with ⟨hold, hmem⟩
      rw [hlookup, Option.some.injEq] at hold
      subst hold
      rcases hinv.idle a.nodeId slot a hmem hlookup (htx ▸ ha) hlive with ⟨hocc, hleases⟩
      cases hneeded with
      | occupied hocc' =>
          rw [hocc] at hocc'
          contradiction
      | first req hpc => simp [evicting, hpc] at hvictim
      | forwarded req hpc hid =>
          simp only [evicting, hpc] at hvictim
          exact ((PoolActor.victimFor_spec hvictim).1 hid.symm).elim
      | leased hpos =>
          rw [htx] at hleases
          omega
  | shutdown slot' hpc hold =>
      rw [hlookup, Option.some.injEq] at hold
      subst hold
      rcases hinv.ended _ _ (.inr hpc) with ⟨q, b, hb, hnode, hgen, hdead⟩
      rcases hslots.slots _ _ hlookup with ⟨c, hc, _, hcgen⟩
      obtain rfl : q = slot.tx :=
        hslots.generation_inj hinv.fewer hb hc (hgen.trans hcgen.symm)
      rw [htx] at hb hdead
      obtain rfl : b = a := by
        rw [ha, Option.some.injEq] at hb
        exact hb.symm
      have hinvalid : p ∈ s.invalidated := by
        rcases hdead with hdead | hinvalid
        · rw [hlive] at hdead
          contradiction
        · exact hinvalid
      cases hneeded with
      | occupied hocc => simp [handlesLate, hpc, hlookup, htx, ha, hlive, hocc] at hintime
      | first req hpc' => simp [hpc] at hpc'
      | forwarded req hpc' => simp [hpc] at hpc'
      | leased _ hnot => exact (hnot hinvalid).elim
  | firstFailed q req b hpc hpeer hb hpcb =>
      rcases hslots.first q req hpc with ⟨c, hc, _, hfirst⟩
      rw [← hpeer, hlookup, Option.some.injEq] at hfirst
      subst hfirst
      obtain rfl : q = p := htx
      rw [ha, Option.some.injEq] at hb
      exact (hstopped (hb ▸ hpcb)).elim
  | teardown hpc =>
      cases h
      contradiction

section Step

variable {s s' : State Id} {action : Action Id} (hinv : s.ReuseInv) (hlease : s.LeaseInv)
  (hslots : s.SlotInv) (hintime : s.handlesLate action = false) (h : Step s action s')

include hinv hslots hintime h

/-- An actor that needs its slot has it after the step too. -/
theorem ReuseInv.hasSlot_kept (hrx : s'.rxClosed = false) {p : Nat} {a a' : ConnActor Id}
    (ha : s.conns[p]? = some a) (hchange : ConnChange s p a action a')
    (hlive' : a'.live = true) (hneeded : s.Needed p a) (hslot : s.HasSlot p a) :
    s'.HasSlot p a' := by
  rw [HasSlot, hchange.identity.1]
  exact hinv.slot_kept hslots hintime h hrx ha (hchange.live hlive') hneeded hslot

theorem ReuseInv.requested_step (hrx : s'.rxClosed = false) (p : Nat) (a' : ConnActor Id)
    (ha' : s'.conns[p]? = some a') (hlive' : a'.live = true)
    (huse : a'.occupied = true ∨ ∃ req, s'.poolPc = .sendFirst p req) : s'.HasSlot p a' := by
  rcases step_conn h ha' with ⟨a, ha, hchange⟩ | hspawn
  · have hlive := hchange.live hlive'
    have hkeep := hinv.hasSlot_kept hslots hintime h hrx ha hchange hlive'
    rcases huse with hocc | ⟨req, hfirst⟩
    · rcases hchange.occupied hocc with hocc' | ⟨req, slot, _, hpc, hlookup, htx⟩ | ⟨req, _, hpc⟩
      · exact hkeep (.occupied hocc') (hinv.requested p a ha hlive (.inl hocc'))
      · rcases hslots.slots _ _ hlookup with ⟨b, hb, hnode, _⟩
        rw [htx, ha, Option.some.injEq] at hb
        subst hb
        exact hkeep (.forwarded req hpc hnode.symm) ⟨slot, hnode ▸ hlookup, htx⟩
      · exact hkeep (.first req hpc) (hinv.requested p a ha hlive (.inr ⟨req, hpc⟩))
    · rcases step_first h hfirst with ⟨hpc, _⟩ | ⟨_, _, rfl⟩
      · exact hkeep (.first req hpc) (hinv.requested p a ha hlive (.inr ⟨req, hpc⟩))
      · simp at ha
  · cases hspawn with
    | spawned req generation hp hpc hout =>
        exact ⟨_, (spawns_of_outcome h hpc hout).slot, hp.symm⟩

/-- A connection that waits in the idle queue is not used in the meantime. -/
theorem ReuseInv.idle_step (id : Id) (slot : ConnectionSlot) (a' : ConnActor Id)
    (hmem : (id, slot.generation) ∈ s'.pool.idle)
    (hlookup : s'.pool.connections.lookup id = some slot)
    (ha' : s'.conns[slot.tx]? = some a') (hlive' : a'.live = true) :
    a'.occupied = false ∧ s'.liveRefs slot.tx = 0 := by
  have hidle := step_idle h hmem
  have hold : s.pool.connections.lookup id = some slot := by
    have hchange := step_slot h id
    rw [hlookup] at hchange
    generalize hfound : some slot = found at hchange
    cases hchange with
    | same => rfl
    | opened req hpc hpeer =>
        rcases hidle with ⟨_, hne⟩ | ⟨_, hpc', _⟩
        · exact (hne req rfl hpc hpeer).elim
        · simp [hpc] at hpc'
    | stale | evicted | shutdown | firstFailed | teardown => cases hfound
  rcases hslots.slots _ _ hold with ⟨a, ha, hnode, _⟩
  rcases step_conn_of h ha with ⟨b, hb, hchange⟩
  rw [ha', Option.some.injEq] at hb
  subst hb
  have hlive := hchange.live hlive'
  have hunused : a.occupied = false ∧ s.liveRefs slot.tx = 0 := by
    rcases hidle with ⟨hmem', _⟩ | ⟨rfl, hpc, _⟩
    · exact hinv.idle id slot a hmem' hold ha hlive
    · simpa [handlesLate, hpc, hold, inUse, ha, hlive] using hintime
  rcases hunused with ⟨hocc, hzero⟩
  refine ⟨?_, ?_⟩
  · by_contra hocc'
    rw [Bool.not_eq_false] at hocc'
    rcases hchange.occupied hocc' with hwas | ⟨req, slot', rfl, hpc, hlookup', htx⟩ |
      ⟨req, rfl, hpc⟩
    · rw [hocc] at hwas
      contradiction
    · rcases hslots.slots _ _ hlookup' with ⟨b, hb, hreq, _⟩
      rw [htx, ha, Option.some.injEq] at hb
      subst hb
      rcases hidle with ⟨_, hne⟩ | ⟨_, hpc', _⟩
      · exact hne req rfl hpc (hnode.symm.trans hreq)
      · simp [hpc] at hpc'
    · rcases hslots.first _ _ hpc with ⟨b, hb, hreq, _⟩
      rw [ha, Option.some.injEq] at hb
      subst hb
      rcases hidle with ⟨hwaits, _⟩ | ⟨hact, _⟩
      · rw [← hnode, hreq] at hwaits
        exact hinv.fresh _ req _ hpc hwaits
      · simp at hact
  · by_contra hpos
    rcases exists_ref_of_liveRefs_pos (Nat.pos_of_ne_zero hpos) with ⟨ref, href, hactor⟩
    rcases step_refs h href with hwas | ⟨q, event, c, c', tx, rfl, hc, hmove, rfl⟩
    · have := liveRefs_pos_of_mem hwas
      rw [hactor] at this
      omega
    · obtain rfl : q = slot.tx := hactor
      rw [ha, Option.some.injEq] at hc
      subst hc
      rw [(ConnActor.step_lease hmove).2] at hocc
      contradiction

include hlease

theorem ReuseInv.leased_step (hrx : s'.rxClosed = false) (p : Nat) (a' : ConnActor Id)
    (ha' : s'.conns[p]? = some a') (hlive' : a'.live = true) (hpos : 0 < s'.liveRefs p)
    (hnot : p ∉ s'.invalidated) : s'.HasSlot p a' := by
  have hnot' : p ∉ s.invalidated := fun hmem => hnot (step_invalidated h hmem)
  rcases exists_ref_of_liveRefs_pos hpos with ⟨ref, href, rfl⟩
  rcases step_refs h href with hold | ⟨q, event, a, b, tx, rfl, ha, hmove, rfl⟩
  · rcases hlease.owned ref hold with ⟨a, ha, _⟩
    rcases step_conn_of h ha with ⟨c, hc, hchange⟩
    rw [ha', Option.some.injEq] at hc
    subst hc
    have hpos' := liveRefs_pos_of_mem hold
    exact hinv.hasSlot_kept hslots hintime h hrx ha hchange hlive' (.leased hpos' hnot')
      (hinv.leased _ a ha (hchange.live hlive') hpos' hnot')
  · rcases step_conn_of h ha with ⟨c, hc, hchange⟩
    rw [ha', Option.some.injEq] at hc
    subst hc
    rcases ConnActor.step_lease hmove with ⟨hlive, hocc⟩
    exact hinv.hasSlot_kept hslots hintime h hrx ha hchange hlive' (.occupied hocc)
      (hinv.requested q a ha hlive (.inl hocc))

omit hinv hslots hintime hlease h in
theorem ReuseInv.fresh_step (hinv : s.ReuseInv) (h : Step s action s') (p : Nat)
    (req : RequestMsg Id) (generation : Nat) (hpc : s'.poolPc = .sendFirst p req) :
    (req.id, generation) ∉ s'.pool.idle := by
  intro hmem
  rcases step_first h hpc with ⟨hpc', hpool⟩ | ⟨rfl, hspawn, _⟩
  · rw [hpool] at hmem
    exact hinv.fresh p req generation hpc' hmem
  · rcases step_idle h hmem with ⟨_, hne⟩ | ⟨_, hpc', _⟩
    · exact hne req rfl hspawn.handling rfl
    · simp [hspawn.handling] at hpc'

omit hslots hintime in
/-- Only actors of no use announce their shutdown, and only invalidated ones are
announced by others. -/
theorem ReuseInv.ended_step (id : Id) (generation : Nat)
    (hmsg : s'.InFlight (.shutdown id generation)) :
    ∃ p a, s'.conns[p]? = some a ∧ a.nodeId = id ∧ a.generation = generation ∧
      (a.live = false ∨ p ∈ s'.invalidated) := by
  generalize hshut : Msg.shutdown id generation = msg at hmsg
  cases step_inFlight h hmsg with
  | old _ _ _ hold =>
      subst hshut
      rcases hinv.ended id generation hold with ⟨p, a, ha, hnode, hgen, hdead⟩
      rcases step_conn_of h ha with ⟨a', ha', hchange⟩
      rcases hchange.identity with ⟨hnode', hgen'⟩
      refine ⟨p, a', ha', hnode'.trans hnode, hgen'.trans hgen, ?_⟩
      rcases hdead with hdead | hinvalid
      · refine .inl ?_
        by_contra hlive
        rw [hchange.live (by simpa using hlive)] at hdead
        contradiction
      · exact .inr (step_invalidated h hinvalid)
  | client => cases hshut
  | actor p event _ a a' _ ha hmove =>
      subst hshut
      rcases ConnActor.step_send_shutdown (hlease.localInv p a ha) hmove with ⟨hdead, hnode, hgen⟩
      rcases ConnActor.step_identity hmove with ⟨hnode', hgen'⟩
      cases h with
      | moved _ _ b b' effect s' hb hmove' hemit =>
          rw [ha, Option.some.injEq] at hb
          subst hb
          rw [hmove', Option.some.injEq, Prod.mk.injEq] at hmove
          rcases hmove with ⟨rfl, _⟩
          refine ⟨p, b', ?_, hnode'.trans hnode, hgen'.trans hgen, .inl hdead⟩
          rw [emit_conns hemit]
          exact List.getElem?_set_self (List.getElem?_eq_some_iff.mp ha).1
  | invalidation c _ ref href hinvalid =>
      cases hshut
      rcases hlease.owned ref href with ⟨a, ha, hnode, hgen⟩
      rcases step_identity h ha with ⟨a', ha', hnode', hgen'⟩
      exact ⟨ref.actor, a', ha', hnode'.trans hnode, hgen'.trans hgen, .inr hinvalid⟩

/-- Every step that handles no message late keeps the invariant, up to the
teardown. -/
theorem ReuseInv.step (hrx : s'.rxClosed = false) : s'.ReuseInv := by
  refine ⟨?_, hinv.requested_step hslots hintime h hrx,
    hinv.leased_step hlease hslots hintime h hrx, hinv.idle_step hslots hintime h,
    hinv.fresh_step h, hinv.ended_step hlease h⟩
  have hfewer := hinv.fewer
  rcases step_spawns h with ⟨hlen, _⟩ | ⟨rfl, req, hspawn⟩
  · omega
  · simp only [handlesLate, hspawn.handling, decide_eq_false_iff_not, Nat.not_le] at hintime
    simp only [hspawn.conns, List.length_append, List.length_singleton]
    omega

end Step

/-- No second actor is spawned for the peer of a live actor with a slot. -/
theorem HasSlot.not_spawned {s s' : State Id} {action : Action Id} {p q : Nat}
    {a b : ConnActor Id} (hslot : s.HasSlot p a) (ha : s.conns[p]? = some a)
    (hlive : a.live = true) (h : Step s action s') (hb : s'.conns[q]? = some b)
    (hnone : s.conns[q]? = none) : b.nodeId ≠ a.nodeId := by
  rcases step_conn h hb with ⟨c, hc, _⟩ | hspawn
  · rw [hnone] at hc
    contradiction
  · cases hspawn with
    | spawned req generation hp hpc hout =>
        rintro hsame
        rcases hslot with ⟨slot, hlookup, htx⟩
        have hneeds := PoolActor.needsSlot_of_spawned hout
        have hsend := hneeds slot (by rw [← hlookup, ← hsame]; rfl)
        rw [ConnActor.not_live_of_stopped (trySend_eq_closed ha (htx ▸ hsend))] at hlive
        contradiction

/-- Every reference handed out for the peer of an actor with a slot is one to this
actor's connection. -/
theorem ReuseInv.handed_out {s s' : State Id} {action : Action Id} (hinv : s.ReuseInv)
    {p : Nat} {a : ConnActor Id} (hslot : s.HasSlot p a) (ha : s.conns[p]? = some a)
    (h : Step s action s') {ref : ConnectionRef Id} (href : ref ∈ s'.refs)
    (hnew : ref ∉ s.refs) (hid : ref.id = a.nodeId) :
    ref.actor = p ∧ ref.generation = a.generation := by
  rcases step_refs h href with hold | ⟨q, event, b, b', tx, _, hb, hmove, rfl⟩
  · exact (hnew hold).elim
  · rcases hslot with ⟨slot, hlookup, htx⟩
    rcases ConnActor.step_lease hmove with ⟨hlive, hocc⟩
    rcases hinv.requested q b hb hlive (.inl hocc) with ⟨slot', hlookup', htx'⟩
    have hid' : b.nodeId = a.nodeId := hid
    rw [hid', hlookup, Option.some.injEq] at hlookup'
    subst hlookup'
    obtain rfl : q = p := htx'.symm.trans htx
    rw [ha, Option.some.injEq] at hb
    subst hb
    exact ⟨rfl, rfl⟩

end State

open State

variable {Id : Type} [DecidableEq Id]

/-- The invariant of the runs in which no message is handled late, up to the
teardown. -/
theorem reuseInv_of_reachable {options : PoolOptions} {s : State Id}
    (hs : (protocol options).ReachableWhen (fun s action => s.handlesLate action = false) s)
    (hrx : s.rxClosed = false) : s.ReuseInv := by
  refine hs.invariant (I := fun s => s.rxClosed = false → s.ReuseInv)
    (fun _ => reuseInv_initial options) ?_ hrx
  intro s s' action hreach hinv hintime hstep hrx'
  have h := step_sound hstep
  have hwas : s.rxClosed = false := by
    rcases step_rxClosed h with hsame | rfl
    · exact hsame.symm.trans hrx'
    · cases h
      contradiction
  exact (hinv hwas).step (leaseInv_of_reachable hreach.reachable)
    (slotInv_of_reachable hreach.reachable) hintime h hrx'

/-- As long as the pool actor runs and handles no message about a connection late, an
open connection with a live reference that nobody has invalidated has the slot of its
peer with its own generation; whatever happens next, no second actor is spawned for
the peer and every reference handed out for it is one to this connection.  An
eviction never hits an open connection with a live reference. -/
theorem leased_connection_is_reused (options : PoolOptions) {s : State Id}
    (hs : (protocol options).ReachableWhen (fun s action => s.handlesLate action = false) s)
    (hrx : s.rxClosed = false) :
    (∀ ref ∈ s.refs, ∀ a, s.conns[ref.actor]? = some a → a.isOpen = true →
      ref.actor ∉ s.invalidated →
      (∃ slot, s.pool.connections.lookup ref.id = some slot ∧
        slot.generation = ref.generation ∧ slot.tx = ref.actor) ∧
      ∀ action s', s.step action = some s' →
        (∀ (q : Nat) (b : ConnActor Id), s'.conns[q]? = some b → s.conns[q]? = none →
          b.nodeId ≠ ref.id) ∧
        ∀ ref' ∈ s'.refs, ref' ∉ s.refs → ref'.id = ref.id →
          ref'.actor = ref.actor ∧ ref'.generation = ref.generation) ∧
    ∀ id slot a, s.evicting = some (id, slot) → s.conns[slot.tx]? = some a →
      a.isOpen = true → s.liveRefs slot.tx = 0 := by
  have hinv := reuseInv_of_reachable hs hrx
  have hlease := leaseInv_of_reachable hs.reachable
  have hslots := slotInv_of_reachable hs.reachable
  have hlive : ∀ (p : Nat) (a : ConnActor Id), s.conns[p]? = some a → a.isOpen = true →
      0 < s.liveRefs p → a.live = true := by
    intro p a ha hopen hpos
    have hcount := hlease.counted p a ha
    exact ConnActor.live_of_leased (hlease.localInv p a ha) hopen (by omega)
  refine ⟨fun ref href a ha hopen hnot => ?_, fun id slot a hevict ha hopen => ?_⟩
  · have hpos := liveRefs_pos_of_mem href
    have halive := hlive _ a ha hopen hpos
    have hslot := hinv.leased _ a ha halive hpos hnot
    rcases hlease.owned ref href with ⟨b, hb, hnode, hgen⟩
    rw [ha, Option.some.injEq] at hb
    subst hb
    rw [← hnode, ← hgen]
    refine ⟨?_, fun action s' hstep => ⟨fun q b hb hnone => ?_, fun ref' href' hnew hid => ?_⟩⟩
    · rcases hslot with ⟨slot, hlookup, htx⟩
      rcases hslots.slots _ _ hlookup with ⟨b, hb, _, hslotGen⟩
      rw [htx, ha, Option.some.injEq] at hb
      exact ⟨slot, hlookup, hb ▸ hslotGen.symm, htx⟩
    · exact hslot.not_spawned ha halive (step_sound hstep) hb hnone
    · exact hinv.handed_out hslot ha (step_sound hstep) href' hnew hid
  · by_contra hne
    rcases evicting_spec hevict with ⟨hlookup, hmem⟩
    have halive := hlive _ a ha hopen (Nat.pos_of_ne_zero hne)
    exact hne (hinv.idle id slot a hmem hlookup ha halive).2

/-! ## Runs -/

/-- The theorem speaks about the first lease. -/
theorem leased_connection_is_reused_first :
    ∃ s : State Nat,
      (protocol ⟨1⟩).ReachableWhen (fun s action => s.handlesLate action = false) s ∧
      ∃ ref ∈ s.refs, ref.id = 7 ∧ ∃ slot, s.pool.connections.lookup 7 = some slot ∧
        slot.generation = ref.generation ∧ slot.tx = ref.actor := by
  obtain ⟨s, hs, hleased⟩ := System.exists_of_runWhen_any (S := protocol ⟨1⟩)
    (C := fun s action => s.handlesLate action = false) (l := firstLease)
    (P := fun s => !s.rxClosed && s.refs = [⟨7, 1, 0, 0⟩] &&
      (s.conns[0]?).any ConnActor.isOpen && s.invalidated = []) (by decide)
  simp only [Bool.and_eq_true, Bool.not_eq_true', decide_eq_true_eq, Option.any_eq_true]
    at hleased
  rcases hleased with ⟨⟨⟨hrx, hrefs⟩, a, ha, hopen⟩, hnot⟩
  have href : (⟨7, 1, 0, 0⟩ : ConnectionRef Nat) ∈ s.refs := by simp [hrefs]
  rcases leased_connection_is_reused ⟨1⟩ hs hrx with ⟨hkept, -⟩
  exact ⟨s, hs, _, href, rfl, (hkept _ href a ha hopen (by simp [hnot])).1⟩

/-- Call 1 asks for peer 7 after call 0 has dropped its reference, and its request
enters the queue just before the actor's idle message.  Call 1 gets the connection,
and then call 2 asks for peer 8. -/
def lateIdle : List (Action Nat) :=
  firstLease ++ [.dropRef 0, .notifyOne 0, .conn 0 .resume, .conn 0 (.poll .notified),
    .conn 0 .resume, .call 1 7, .send 1, .conn 0 .resume] ++ poolTurn ++ poolTurn ++
    [.conn 0 .resume, .conn 0 (.poll .request), .conn 0 .resume, .recv 1,
      .call 2 8, .send 2] ++ poolTurn

/-- In a running pool, a connection with a live reference is open, nobody has
invalidated it, and it has lost its slot. -/
theorem late_idle_evicts_leased :
    ∃ s : State Nat, (protocol ⟨1⟩).Reachable s ∧ s.closed = false ∧
      ∃ ref ∈ s.refs, ∃ a, s.conns[ref.actor]? = some a ∧ a.isOpen = true ∧
        ref.actor ∉ s.invalidated ∧ s.pool.connections.lookup ref.id = none := by
  obtain ⟨s, hs, hlost⟩ := System.exists_of_runWhen_any (S := protocol ⟨1⟩)
    (C := fun _ _ => True) (l := lateIdle)
    (P := fun s => !s.closed && s.refs = [⟨7, 1, 0, 1⟩] &&
      (s.conns[0]?).any ConnActor.isOpen && s.invalidated = [] &&
      (s.pool.connections.lookup 7).isNone) (by decide)
  simp only [Bool.and_eq_true, Bool.not_eq_true', decide_eq_true_eq, Option.any_eq_true,
    Option.isNone_iff_eq_none] at hlost
  rcases hlost with ⟨⟨⟨⟨hclosed, hrefs⟩, a, ha, hopen⟩, hnot⟩, hnone⟩
  exact ⟨s, hs, hclosed, ⟨7, 1, 0, 1⟩, by simp [hrefs], a, ha, hopen, by simp [hnot], hnone⟩

end IrohTransport.Pool
