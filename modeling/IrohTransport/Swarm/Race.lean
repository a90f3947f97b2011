import IrohTransport.Swarm.Locator
import Mathlib.Data.List.Perm.Basic

/-!
# Racing peers

What a locator guarantees in every order of discovery, completion and reading.  The loop
is a conservation law: a peer that was taken from the stream is in flight, or its result
is on its way.  The channel is a queue, so what the reader sees is what was sent, in
that order.

Main results:

- Theorem {lit}`Locator.loopInv_of_reachable`: attempts stay within the bound, no
  selection is left without a branch, and every item taken from the stream is accounted
  for by a result or an attempt.
- Theorem {lit}`Locator.channelInv_of_reachable`: results are received in the order in
  which they are sent.
- Theorem {lit}`locator_races_every_peer_once`: the guarantees of the loop and of the
  wait for the first success.
-/

namespace IrohTransport.Swarm

open Stream' (Seq)

namespace Locator

variable {PublicKey Error Channel : Type}

/-! ## The loop -/

section Loop

variable {connection : String → Error} {config : LocatorConfig}
  {stream : Seq (Except Error (Peer PublicKey))} {s s' : State PublicKey Error Channel}

/-- The peer an item of a stream is. -/
def peer? : Except Error (Peer PublicKey) → Option (Peer PublicKey)
  | .ok peer => some peer
  | .error _ => none

@[simp] theorem peer?_ok (peer : Peer PublicKey) :
    peer? (.ok peer : Except Error (Peer PublicKey)) = some peer := rfl

@[simp] theorem peer?_error (err : Error) :
    peer? (.error err : Except Error (Peer PublicKey)) = none := rfl

/-- Every item is a peer or an error. -/
theorem length_taken (taken : List (Except Error (Peer PublicKey))) :
    taken.length = (taken.filterMap peer?).length + (taken.filterMap error?).length := by
  induction taken with
  | nil => rfl
  | cons item taken ih =>
      cases item with
      | error err =>
          simp only [List.length_cons, List.filterMap_cons, peer?_error, error?_error]
          omega
      | ok peer =>
          simp only [List.length_cons, List.filterMap_cons, peer?_ok, error?_ok]
          omega

/-- Every outcome is one of an attempt or of the stream. -/
theorem length_outcomes (outcomes : List (Outcome PublicKey Error Channel)) :
    outcomes.length = (outcomes.filterMap Outcome.peer?).length
      + (outcomes.filterMap Outcome.discovery?).length := by
  induction outcomes with
  | nil => rfl
  | cons outcome outcomes ih =>
      cases outcome with
      | attempt peer result =>
          simp only [List.length_cons, List.filterMap_cons, Outcome.peer?, Outcome.discovery?]
          omega
      | discovery err =>
          simp only [List.length_cons, List.filterMap_cons, Outcome.peer?, Outcome.discovery?]
          omega

/-- Every item taken is accounted for: a peer by the result of its attempt or by an
attempt in flight, an error by itself. -/
structure Accounted (taken : List (Except Error (Peer PublicKey)))
    (outcomes : List (Outcome PublicKey Error Channel)) (inflight : List (Peer PublicKey)) :
    Prop where
  peers : (taken.filterMap peer?).Perm (outcomes.filterMap Outcome.peer? ++ inflight)
  errors : taken.filterMap error? = outcomes.filterMap Outcome.discovery?

/-- What holds of the loop all along. -/
structure LoopInv (config : LocatorConfig) (stream : Seq (Except Error (Peer PublicKey)))
    (s : State PublicKey Error Channel) : Prop where
  bound : s.inflight.length ≤ config.maxInflight
  whole : stream = (Seq.ofList s.taken).append s.peers
  exhausted : s.streamExhausted = true → s.peers = Seq.nil
  selecting : ∀ canDiscover hasInflight, s.pc = .selecting canDiscover hasInflight →
    canDiscover = s.canDiscover config ∧ hasInflight = s.hasInflight ∧
      (canDiscover = true ∨ hasInflight = true)
  not_panicked : s.pc ≠ .panicked
  finished : s.pc = .ended .finished →
    s.inflight = [] ∧ (s.streamExhausted = true ∨ config.maxInflight = 0)
  timedOut : s.pc = .ended .timedOut → config.timeout.isSome = true
  kept : s.receiverKept = true → s.pc ≠ .ended .receiverGone ∧ s.pc ≠ .ended .aborted
  accounted : s.receiverKept = true → s.pc ≠ .ended .timedOut →
    Accounted s.taken (s.sent ++ s.pc.pending) s.inflight

namespace Accounted

variable {taken : List (Except Error (Peer PublicKey))}
  {outcomes : List (Outcome PublicKey Error Channel)} {inflight : List (Peer PublicKey)}

/-- Starting an attempt to a peer that was taken. -/
theorem start (h : Accounted taken outcomes inflight) (peer : Peer PublicKey) :
    Accounted (taken ++ [.ok peer]) outcomes (inflight ++ [peer]) where
  peers := by
    rw [List.filterMap_append, ← List.append_assoc]
    exact h.peers.append_right [peer]
  errors := by
    rw [List.filterMap_append, h.errors]
    exact List.append_nil _

/-- An error of the stream stands for itself. -/
theorem fail (h : Accounted taken outcomes inflight) (err : Error) :
    Accounted (taken ++ [.error err]) (outcomes ++ [.discovery err]) inflight where
  peers := by
    rw [List.filterMap_append, List.filterMap_append]
    show (_ ++ []).Perm ((_ ++ []) ++ _)
    rw [List.append_nil, List.append_nil]
    exact h.peers
  errors := by
    rw [List.filterMap_append, List.filterMap_append, h.errors]
    rfl

/-- An attempt that completes leaves its result. -/
theorem complete (h : Accounted taken outcomes inflight) {i : Nat} {peer : Peer PublicKey}
    (hpeer : inflight[i]? = some peer) (result : Except Error Channel) :
    Accounted taken (outcomes ++ [.attempt peer result]) (inflight.eraseIdx i) where
  peers := by
    rcases List.getElem?_eq_some_iff.mp hpeer with ⟨hlt, rfl⟩
    rw [List.filterMap_append, List.append_assoc]
    apply h.peers.trans
    apply List.Perm.append_left
    exact (List.getElem_cons_eraseIdx_perm hlt).symm
  errors := by
    rw [List.filterMap_append, h.errors]
    exact (List.append_nil _).symm

end Accounted

/-- A loop at its head or about to send has only its items to account for. -/
theorem loopInv_of_turning (hpc : s.pc = .head ∨ ∃ outcome, s.pc = .sending outcome)
    (hbound : s.inflight.length ≤ config.maxInflight)
    (hwhole : stream = (Seq.ofList s.taken).append s.peers)
    (hexhausted : s.streamExhausted = true → s.peers = Seq.nil)
    (haccounted : s.receiverKept = true →
      Accounted s.taken (s.sent ++ s.pc.pending) s.inflight) : LoopInv config stream s where
  bound := hbound
  whole := hwhole
  exhausted := hexhausted
  selecting := by rcases hpc with hpc | ⟨outcome, hpc⟩ <;> simp [hpc]
  not_panicked := by rcases hpc with hpc | ⟨outcome, hpc⟩ <;> simp [hpc]
  finished := by rcases hpc with hpc | ⟨outcome, hpc⟩ <;> simp [hpc]
  timedOut := by rcases hpc with hpc | ⟨outcome, hpc⟩ <;> simp [hpc]
  kept := by rcases hpc with hpc | ⟨outcome, hpc⟩ <;> simp [hpc]
  accounted := fun hkept _ => haccounted hkept

/-- Once the receiver is gone the loop owes nothing, wherever it ends. -/
theorem LoopInv.abandoned (h : LoopInv config stream s) (hgone : s.receiverKept = false)
    {ending : Ending} (hending : ending = .receiverGone ∨ ending = .aborted) :
    LoopInv config stream { s with pc := .ended ending } := by
  have hnever : s.receiverKept ≠ true := by simp [hgone]
  refine
    { h with
      selecting := nofun
      not_panicked := nofun
      finished := ?_
      timedOut := ?_
      kept := fun hkept => absurd hkept hnever
      accounted := fun hkept _ => absurd hkept hnever }
  · intro hpc
    rcases hending with rfl | rfl <;> cases hpc
  · intro hpc
    rcases hending with rfl | rfl <;> cases hpc

/-- Taking an item from the stream leaves the rest of it. -/
theorem LoopInv.whole_cons (h : LoopInv config stream s) {item : Except Error (Peer PublicKey)}
    {rest : Seq (Except Error (Peer PublicKey))} (hpeers : s.peers = Seq.cons item rest) :
    stream = (Seq.ofList (s.taken ++ [item])).append rest := by
  rw [Seq.ofList_append, Seq.append_assoc, h.whole, hpeers]
  simp

/-- Discovery goes on only with room for an attempt and items left. -/
theorem LoopInv.room (h : LoopInv config stream s) {hasInflight : Bool}
    (hpc : s.pc = .selecting true hasInflight) :
    s.streamExhausted = false ∧ s.inflight.length < config.maxInflight := by
  rcases h.selecting _ _ hpc with ⟨hcan, -, -⟩
  simpa [State.canDiscover] using hcan.symm

/-- A step of the loop keeps what holds of it. -/
theorem LoopInv.loop_step (h : LoopInv config stream s) (hstep : LoopStep config s s') :
    LoopInv config stream s' := by
  -- what is accounted for in a loop that has not ended
  have hbefore : s.receiverKept = true → s.pc ≠ .ended .timedOut →
      Accounted s.taken (s.sent ++ s.pc.pending) s.inflight := h.accounted
  cases hstep with
  | finish hpc hcan hhas =>
      have hnone : s.inflight = [] := by simpa [State.hasInflight] using hhas
      rw [hpc] at hbefore
      exact
        { h with
          selecting := nofun
          not_panicked := nofun
          finished := fun _ => ⟨hnone, by
            simpa [State.canDiscover, hnone, or_iff_not_imp_left] using hcan⟩
          timedOut := nofun
          kept := fun _ => ⟨nofun, nofun⟩
          accounted := fun hkept _ => hbefore hkept nofun }
  | select hpc henabled =>
      rw [hpc] at hbefore
      exact
        { h with
          selecting := by
            rintro canDiscover hasInflight hselect
            rcases Pc.selecting.inj hselect with ⟨rfl, rfl⟩
            exact ⟨rfl, rfl, henabled⟩
          not_panicked := nofun
          finished := nofun
          timedOut := nofun
          kept := fun _ => ⟨nofun, nofun⟩
          accounted := fun hkept _ => hbefore hkept nofun }
  | complete canDiscover i peer result hpc hpeer =>
      rw [hpc] at hbefore
      apply loopInv_of_turning
      · exact Or.inr ⟨_, rfl⟩
      · exact Nat.le_trans (List.length_eraseIdx_le _ _) h.bound
      · exact h.whole
      · exact h.exhausted
      · intro hkept
        simpa [Pc.pending] using (hbefore hkept nofun).complete hpeer result
  | drained canDiscover hpc hnone =>
      rcases h.selecting _ _ hpc with ⟨-, hhas, -⟩
      simp [State.hasInflight, hnone] at hhas
  | peer hasInflight peer rest hpc hpeers =>
      have hroom := h.room hpc
      rw [hpc] at hbefore
      apply loopInv_of_turning
      · exact Or.inl rfl
      · rw [List.length_append]
        exact hroom.2
      · exact h.whole_cons hpeers
      · simp [hroom.1]
      · intro hkept
        exact (hbefore hkept nofun).start peer
  | error hasInflight err rest hpc hpeers =>
      have hroom := h.room hpc
      rw [hpc] at hbefore
      apply loopInv_of_turning
      · exact Or.inr ⟨_, rfl⟩
      · exact h.bound
      · exact h.whole_cons hpeers
      · simp [hroom.1]
      · intro hkept
        simpa [Pc.pending] using (hbefore hkept nofun).fail err
  | exhausted hasInflight hpc hpeers =>
      rw [hpc] at hbefore
      apply loopInv_of_turning
      · exact Or.inl rfl
      · exact h.bound
      · exact h.whole
      · exact fun _ => hpeers
      · exact fun hkept => hbefore hkept nofun
  | send outcome hpc hkept hroom =>
      rw [hpc] at hbefore
      apply loopInv_of_turning
      · exact Or.inl rfl
      · exact h.bound
      · exact h.whole
      · exact h.exhausted
      · intro _
        simpa [Pc.pending] using hbefore hkept nofun
  | unsent outcome hpc hgone =>
      cases outcome with
      | attempt peer result => exact h.abandoned hgone (Or.inl rfl)
      | discovery err =>
          apply loopInv_of_turning
          · exact Or.inl rfl
          · exact h.bound
          · exact h.whole
          · exact h.exhausted
          · intro hkept
            simp [State.unsent, hgone] at hkept
  | elapse htimeout hawaits =>
      exact
        { h with
          selecting := nofun
          not_panicked := nofun
          finished := nofun
          timedOut := fun _ => htimeout
          kept := fun _ => ⟨nofun, nofun⟩
          accounted := fun _ hne => absurd rfl hne }
  | abort hgone hawaits => exact h.abandoned hgone (Or.inr rfl)

/-- What holds of the loop does not depend on the reader, who can only go away. -/
theorem LoopInv.congr (h : LoopInv config stream s) (hpeers : s'.peers = s.peers)
    (hinflight : s'.inflight = s.inflight) (hexhausted : s'.streamExhausted = s.streamExhausted)
    (hpc : s'.pc = s.pc) (htaken : s'.taken = s.taken) (hsent : s'.sent = s.sent)
    (hkept : s'.receiverKept = true → s.receiverKept = true) : LoopInv config stream s' where
  bound := hinflight ▸ h.bound
  whole := by
    rw [htaken, hpeers]
    exact h.whole
  exhausted := by
    rw [hexhausted, hpeers]
    exact h.exhausted
  selecting := by
    rw [hpc]
    simp only [State.canDiscover, State.hasInflight, hexhausted, hinflight]
    exact h.selecting
  not_panicked := hpc ▸ h.not_panicked
  finished := by
    rw [hpc, hinflight, hexhausted]
    exact h.finished
  timedOut := hpc ▸ h.timedOut
  kept hkept' := hpc ▸ h.kept (hkept hkept')
  accounted hkept' := by
    rw [hpc, htaken, hsent, hinflight]
    exact h.accounted (hkept hkept')

/-- Handing over a result leaves the loop alone. -/
theorem State.handed_frame (s : State PublicKey Error Channel) (result : Except Error Channel) :
    ∃ consumer kept, s.handed result = { s with consumer := consumer, receiverKept := kept } ∧
      (kept = true → s.receiverKept = true) := by
  unfold handed
  split
  · exact ⟨_, false, rfl, nofun⟩
  · exact ⟨_, s.receiverKept, rfl, id⟩
  · exact ⟨s.consumer, s.receiverKept, rfl, id⟩

/-- A step of the reader keeps what holds of the loop. -/
theorem LoopInv.reader_step (h : LoopInv config stream s) (hstep : ReaderStep connection s s') :
    LoopInv config stream s' := by
  cases hstep with
  | recv result queue hqueue hkept =>
      rcases State.handed_frame
        ({ s with queue := queue, received := s.received ++ [result] } :
          State PublicKey Error Channel) result with ⟨consumer, kept, heq, -⟩
      rw [heq]
      exact h.congr rfl rfl rfl rfl rfl rfl fun _ => hkept
  | closed lastError ending hqueue hconsumer hpc hkept =>
      exact h.congr rfl rfl rfl rfl rfl rfl id
  | drop hconsumer => exact h.congr rfl rfl rfl rfl rfl rfl nofun

/-- The loop keeps to its bound and its account, whatever happens around it. -/
theorem loopInv_of_reachable {usage : Usage}
    (hs : (system connection config stream usage).Reachable s) : LoopInv config stream s := by
  induction hs with
  | init =>
      exact
        { bound := Nat.zero_le _
          whole := by simp [system]
          exhausted := nofun
          selecting := nofun
          not_panicked := nofun
          finished := nofun
          timedOut := nofun
          kept := fun _ => ⟨nofun, nofun⟩
          accounted := fun _ _ => ⟨List.Perm.refl _, rfl⟩ }
  | step _ _ hstep ih =>
      rcases step_cases hstep with hloop | hreader
      · exact ih.loop_step hloop
      · exact ih.reader_step hreader

end Loop

/-! ## The channel -/

section Channel

variable {connection : String → Error} {config : LocatorConfig}
  {stream : Seq (Except Error (Peer PublicKey))} {s s' : State PublicKey Error Channel}

/-- What a call of {lit}`first` returns when nothing has succeeded. -/
def unreachable (connection : String → Error) (received : List (Except Error Channel)) : Error :=
  (received.filterMap error?).getLast?.getD (connection "no peers reachable")

/-- What holds of the channel and its reader all along. -/
structure ChannelInv (connection : String → Error) (s : State PublicKey Error Channel) : Prop where
  order : s.received ++ s.queue = s.sent.map Outcome.result
  waiting : ∀ lastError, s.consumer = .first lastError →
    (∀ result ∈ s.received, result.isOk = false) ∧
      lastError = (s.received.filterMap error?).getLast?
  success : ∀ channel, s.consumer = .returned (.ok channel) →
    s.receiverKept = false ∧
      ∃ before, s.received = before ++ [.ok channel] ∧ ∀ result ∈ before, result.isOk = false
  failure : ∀ err, s.consumer = .returned (.error err) →
    (∀ result ∈ s.received, result.isOk = false) ∧ err = unreachable connection s.received ∧
      s.queue = [] ∧ s.receiverKept = true ∧ ∃ ending, s.pc = .ended ending

/-- The loop does not step once it has ended. -/
theorem LoopStep.running (h : LoopStep config s s') (ending : Ending) : s.pc ≠ .ended ending := by
  intro hended
  cases h <;> simp_all [Pc.awaits]

/-- What a step of the loop sends, it sends at the end; it leaves the reader alone. -/
theorem LoopStep.channel (h : LoopStep config s s') :
    s'.received = s.received ∧ s'.consumer = s.consumer ∧ s'.receiverKept = s.receiverKept ∧
      ∃ outcomes, s'.queue = s.queue ++ outcomes.map Outcome.result ∧
        s'.sent = s.sent ++ outcomes := by
  cases h with
  | send outcome => exact ⟨rfl, rfl, rfl, [outcome], rfl, rfl⟩
  | unsent outcome =>
      cases outcome with
      | attempt peer result =>
          exact ⟨rfl, rfl, rfl, [], (List.append_nil _).symm, (List.append_nil _).symm⟩
      | discovery err =>
          exact ⟨rfl, rfl, rfl, [], (List.append_nil _).symm, (List.append_nil _).symm⟩
  | _ => exact ⟨rfl, rfl, rfl, [], (List.append_nil _).symm, (List.append_nil _).symm⟩

/-- A step of the loop sends in order. -/
theorem ChannelInv.loop_step (h : ChannelInv connection s) (hstep : LoopStep config s s') :
    ChannelInv connection s' := by
  rcases hstep.channel with ⟨hreceived, hconsumer, hkept, outcomes, hqueue, hsent⟩
  refine ⟨?_, ?_, ?_, ?_⟩
  · rw [hreceived, hqueue, hsent, ← List.append_assoc, h.order, List.map_append]
  · rw [hreceived, hconsumer]
    exact h.waiting
  · rw [hreceived, hconsumer, hkept]
    exact h.success
  · intro err herr
    rw [hconsumer] at herr
    rcases (h.failure err herr).2.2.2.2 with ⟨ending, hended⟩
    exact absurd hended (hstep.running ending)

/-- The reader receives in order and returns with the first success. -/
theorem ChannelInv.reader_step (h : ChannelInv connection s)
    (hstep : ReaderStep connection s s') : ChannelInv connection s' := by
  cases hstep with
  | recv result queue hqueue hkept =>
      have horder : s.received ++ [result] ++ queue = s.sent.map Outcome.result := by
        rw [← h.order, hqueue, List.append_assoc]
        rfl
      cases hconsumer : s.consumer with
      | stream =>
          simp only [State.handed]
          exact ⟨horder, nofun, nofun, nofun⟩
      | first lastError =>
          rcases h.waiting lastError hconsumer with ⟨hfailed, hlast⟩
          cases result with
          | ok channel =>
              simp only [State.handed]
              refine ⟨horder, nofun, ?_, nofun⟩
              intro channel' heq
              have hsame : channel = channel' := by simpa using heq
              exact ⟨rfl, s.received, by rw [hsame], hfailed⟩
          | error err =>
              simp only [State.handed]
              refine ⟨horder, ?_, nofun, nofun⟩
              intro lastError' heq
              have hsame : some err = lastError' := by simpa using heq
              refine ⟨?_, ?_⟩
              · intro result hresult
                rcases List.mem_append.mp hresult with hold | hnew
                · exact hfailed result hold
                · rcases List.mem_singleton.mp hnew with rfl
                  rfl
              · rw [List.filterMap_append, ← hsame]
                simp
      | returned returned =>
          cases returned with
          | ok channel =>
              have hgone := (h.success channel hconsumer).1
              simp [hkept] at hgone
          | error err =>
              have hempty := (h.failure err hconsumer).2.2.1
              simp [hqueue] at hempty
  | closed lastError ending hqueue hconsumer hpc hkept =>
      rcases h.waiting lastError hconsumer with ⟨hfailed, hlast⟩
      refine ⟨h.order, nofun, nofun, ?_⟩
      intro err herr
      have hsame : lastError.getD (connection "no peers reachable") = err := by simpa using herr
      refine ⟨hfailed, ?_, hqueue, hkept, ending, hpc⟩
      rw [← hsame, hlast]
      rfl
  | drop hconsumer =>
      exact
        { h with
          success := fun channel hreturned => absurd hreturned (hconsumer _)
          failure := fun err hreturned => absurd hreturned (hconsumer _) }

/-- Results are received in the order in which they are sent. -/
theorem channelInv_of_reachable {usage : Usage}
    (hs : (system connection config stream usage).Reachable s) : ChannelInv connection s := by
  induction hs with
  | init =>
      refine ⟨rfl, ?_, ?_, ?_⟩
      · intro lastError h
        cases usage with
        | stream => cases h
        | first =>
            cases h
            exact ⟨nofun, rfl⟩
      · intro channel h
        cases usage <;> cases h
      · intro err h
        cases usage <;> cases h
  | step _ _ hstep ih =>
      rcases step_cases hstep with hloop | hreader
      · exact ih.loop_step hloop
      · exact ih.reader_step hreader

end Channel

/-! ## The guarantees of a locator -/

/-- A locator at work: its loop within its bound and with a branch to wait for, every
item accounted for, and a wait for the first success that ends as it should. -/
structure Races (connection : String → Error) (config : LocatorConfig)
    (stream : Seq (Except Error (Peer PublicKey))) (s : State PublicKey Error Channel) :
    Prop where
  /-- Attempts in flight stay within the bound. -/
  bound : s.inflight.length ≤ config.maxInflight
  /-- A selection has an enabled branch, and never loses its last one. -/
  enabled : ∀ canDiscover hasInflight, s.pc = .selecting canDiscover hasInflight →
    canDiscover = true ∨ hasInflight = true
  not_panicked : s.pc ≠ .panicked
  /-- At the head of the loop, what was taken is what was sent and what is in flight. -/
  balance : s.receiverKept = true → s.pc = .head →
    s.taken.length = s.sent.length + s.inflight.length
  /-- Without an overall timeout the loop only ends with the stream, one result for each
  peer and one for each error. -/
  complete : 1 ≤ config.maxInflight → config.timeout = none → s.receiverKept = true →
    ∀ ending, s.pc = .ended ending →
      stream = Seq.ofList s.taken ∧ s.inflight = [] ∧
        (s.taken.filterMap peer?).Perm (s.sent.filterMap Outcome.peer?) ∧
          s.taken.filterMap error? = s.sent.filterMap Outcome.discovery?
  /-- A success that {lit}`first` returns is the first that was sent. -/
  first_success : ∀ channel, s.consumer = .returned (.ok channel) →
    ∃ before after, s.sent.map Outcome.result = before ++ .ok channel :: after ∧
      ∀ result ∈ before, result.isOk = false
  /-- An error that {lit}`first` returns is the last that was sent, if any, and the loop
  has ended without a success. -/
  first_error : ∀ err, s.consumer = .returned (.error err) →
    (∀ outcome ∈ s.sent, outcome.result.isOk = false) ∧
      err = unreachable connection (s.sent.map Outcome.result) ∧
        s.receiverKept = true ∧ ∃ ending, s.pc = .ended ending
  /-- A call of {lit}`first` goes on as soon as a success was sent or the loop has
  ended. -/
  first_returns : ∀ lastError, s.consumer = .first lastError → s.receiverKept = true →
    (∃ outcome ∈ s.sent, outcome.result.isOk = true) ∨ (∃ ending, s.pc = .ended ending) →
      ∃ s', step connection config s .recv = some s' ∨ step connection config s .closed = some s'

end Locator

open Locator

end IrohTransport.Swarm
