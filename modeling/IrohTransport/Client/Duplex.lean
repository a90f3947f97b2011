import IrohTransport.Client.Channel

/-!
# Full duplex

A gRPC call is full duplex: the server may answer while the client still has requests to
send, and the client should then get the response.  The future of
{lit}`IrohChannel::call` awaits the response only after it has pumped the whole body, so
a response that arrives earlier waits for the body, for send capacity, or is lost to an
error when the peer stops reading.

Main results:

- Theorem {lit}`Call.canComplete_iff`: the calls that the response alone completes.
- Theorem {lit}`full_duplex_after_body`: a call is full duplex exactly as long as no
  response arrives while its body is pumped.
- Theorem {lit}`early_response_is_not_returned`: a response that arrives earlier blocks
  the call, or is turned into an error.
-/

namespace IrohTransport.Client

variable {τ ρ ε : Type} {fromParts : UriParts → Except String UriParts} {origin : UriParts}
  {request : Request}

namespace Call

/-- The call can return the response by polling its response future alone: it waits
neither for the body nor for send capacity. -/
def CanComplete (fromParts : UriParts → Except String UriParts) (origin : UriParts)
    (request : Request) (s : Call τ ρ ε) (response : ρ) : Prop :=
  ∃ s', ({ init := s, step := step fromParts origin request } : System _ _).ReachableWhen
      (fun _ action => action = .pollResponse) s' ∧ s'.pc = .done (.ok response)

/-- The body has yielded no error. -/
def BodyHolds (s : Call τ ρ ε) : Prop :=
  ∀ error, some (.error error) ∉ s.yielded

theorem bodyHolds_of_yielded {s : Call τ ρ ε} {l : List (BodyItem τ)} (h : s.yielded = l)
    (hl : ∀ error, some (.error error) ∉ l) : s.BodyHolds := by
  intro error hmem
  exact hl error (h ▸ hmem)

/-- Once the response headers have arrived, and as long as the body does not fail, the
call can complete with the response. -/
def FullDuplex (fromParts : UriParts → Except String UriParts) (origin : UriParts)
    (request : Request) (s : Call τ ρ ε) : Prop :=
  ∀ response, s.response = some response → s.BodyHolds →
    s.CanComplete fromParts origin request response

/-- The response alone completes a call that has returned it or awaits it. -/
theorem canComplete_iff {s : Call τ ρ ε} {response : ρ} :
    s.CanComplete fromParts origin request response ↔
      s.pc = .done (.ok response) ∨ (s.pc = .awaitResponse ∧ s.response = some response) := by
  constructor
  · rintro ⟨s', hreach, hdone⟩
    have hback : s' = s ∨ (s.pc = .awaitResponse ∧ ∃ r, s.response = some r ∧
        s' = { s with pc := .done (.ok r) }) := by
      apply hreach.invariant (.inl rfl)
      rintro t t' _ _ hinv rfl hnext
      have hstep : t.step fromParts origin request .pollResponse = some t' := hnext
      cases step_sound hstep with
      | pollResponse r hpc hr =>
          rcases hinv with rfl | ⟨_, r', _, rfl⟩
          · exact .inr ⟨hpc, r, hr, rfl⟩
          · cases hpc
    rcases hback with rfl | ⟨hpc, r, hr, rfl⟩
    · exact .inl hdone
    · simp only [Pc.done.injEq, Except.ok.injEq] at hdone
      exact .inr ⟨hpc, hdone ▸ hr⟩
  · rintro (hdone | ⟨hpc, hresponse⟩)
    · exact ⟨s, .init, hdone⟩
    · refine ⟨{ s with pc := .done (.ok response) }, ?_, rfl⟩
      refine .step (a := .pollResponse) .init rfl ?_
      simp [step, hpc, hresponse]

/-- The step brings the response headers while the body is pumped. -/
def answersEarly (s : Call τ ρ ε) : CallAction τ ρ ε → Bool
  | .respond _ => s.pumping
  | _ => false

/-! ## Invariants -/

/-- A call whose body has failed has returned an error. -/
def FailureReturned (s : Call τ ρ ε) : Prop :=
  ∀ error, some (.error error) ∈ s.yielded → ∃ returned, s.pc = .done (.error returned)

/-- A call whose response has arrived awaits it or has returned it. -/
def Answered (s : Call τ ρ ε) : Prop :=
  ∀ response, s.response = some response →
    s.pc = .awaitResponse ∨ s.pc = .done (.ok response)

/-- A call whose response has arrived is nowhere else. -/
theorem Answered.pc_ne {s : Call τ ρ ε} {response : ρ} {pc : Pc ρ ε} (hinv : s.Answered)
    (hresponse : s.response = some response) (hwait : pc ≠ .awaitResponse)
    (hdone : pc ≠ .done (.ok response)) : s.pc ≠ pc := by
  rintro rfl
  rcases hinv response hresponse with hpc | hpc
  · exact hwait hpc
  · exact hdone hpc

theorem pump_response (s : Call τ ρ ε) (turn : Pump τ ε) :
    (s.pump turn).response = s.response := by
  cases turn <;> rfl

theorem pump_yielded (s : Call τ ρ ε) (turn : Pump τ ε) :
    (s.pump turn).yielded = s.yielded := by
  cases turn <;> rfl

theorem sendRequest_response (s : Call τ ρ ε) (uri : Except (CallError ε) UriParts)
    (bodyIsEmpty : Bool) (sent : Except ε Unit) :
    (s.sendRequest uri bodyIsEmpty sent).response = s.response := by
  cases uri with
  | error e => rfl
  | ok uri => cases sent <;> rfl

theorem sendRequest_yielded (s : Call τ ρ ε) (uri : Except (CallError ε) UriParts)
    (bodyIsEmpty : Bool) (sent : Except ε Unit) :
    (s.sendRequest uri bodyIsEmpty sent).yielded = s.yielded := by
  cases uri with
  | error e => rfl
  | ok uri => cases sent <;> rfl

/-- Every move returns the error of a body that fails. -/
theorem FailureReturned.step {s s' : Call τ ρ ε} {action : CallAction τ ρ ε}
    (hinv : s.FailureReturned) (h : Step fromParts origin request s action s') :
    s'.FailureReturned := by
  intro error hmem
  cases h with
  | sendRequest sent hpc =>
      rw [sendRequest_yielded] at hmem
      rcases hinv error hmem with ⟨returned, hdone⟩
      rw [hpc] at hdone
      contradiction
  | frame item sent hpc =>
      rw [pump_yielded] at hmem
      rcases List.mem_append.mp hmem with hold | hnew
      · rcases hinv error hold with ⟨returned, hdone⟩
        rw [hpc] at hdone
        contradiction
      · rw [List.mem_singleton] at hnew
        subst hnew
        exact ⟨.connection ("request body error: " ++ error), rfl⟩
  | capacity data capacity sent hpc =>
      rw [pump_yielded] at hmem
      rcases hinv error hmem with ⟨returned, hdone⟩
      rw [hpc] at hdone
      contradiction
  | pollResponse response hpc | failResponse _ hpc =>
      rcases hinv error hmem with ⟨returned, hdone⟩
      rw [hpc] at hdone
      contradiction
  | respond | reset => exact hinv error hmem

/-- A move that brings no early response leaves every arrived response within reach. -/
theorem Answered.step {s s' : Call τ ρ ε} {action : CallAction τ ρ ε} (hinv : s.Answered)
    (hlate : s.answersEarly action = false) (h : Step fromParts origin request s action s') :
    s'.Answered := by
  intro response hresponse
  cases h with
  | sendRequest sent hpc =>
      rw [sendRequest_response] at hresponse
      exact (hinv.pc_ne hresponse (by simp) (by simp) hpc).elim
  | frame item sent hpc =>
      rw [pump_response] at hresponse
      exact (hinv.pc_ne hresponse (by simp) (by simp) hpc).elim
  | capacity data capacity sent hpc =>
      rw [pump_response] at hresponse
      exact (hinv.pc_ne hresponse (by simp) (by simp) hpc).elim
  | pollResponse r hpc hr =>
      rw [hr, Option.some.injEq] at hresponse
      exact .inr (by rw [hresponse])
  | failResponse _ _ hnone =>
      rw [hnone] at hresponse
      contradiction
  | respond r hstream =>
      refine .inl ?_
      cases hpc : s.pc <;> simp_all [onStream, answersEarly, pumping]
  | reset => exact hinv response hresponse

end Call

open Call

/-- A call whose body has failed has returned an error, in every reachable state. -/
theorem failureReturned_of_reachable {s : Call τ ρ ε}
    (hs : (channel fromParts origin request).Reachable s) : s.FailureReturned := by
  apply hs.invariant
  · intro error hmem
    simp [channel, initial] at hmem
  · intro s s' action _ hinv _ hnext
    exact hinv.step (step_sound hnext)

/-- In every run in which the response headers arrive after the body has been pumped, or
for a request without one, a call is full duplex in every state; and whenever they arrive
earlier, it is not: it needs more than its response then, although a body or a peer that
goes on may still let it return. -/
theorem full_duplex_after_body (fromParts : UriParts → Except String UriParts)
    (origin : UriParts) (request : Request) :
    (∀ s : Call τ ρ ε, (channel fromParts origin request).ReachableWhen
        (fun s action => s.answersEarly action = false) s →
      s.FullDuplex fromParts origin request) ∧
    ∀ (s s' : Call τ ρ ε) (action : CallAction τ ρ ε),
      (channel fromParts origin request).Reachable s → s.answersEarly action = true →
      s.step fromParts origin request action = some s' →
      ¬s'.FullDuplex fromParts origin request := by
  constructor
  · intro s hs response hresponse _
    have hanswered : s.Answered := by
      apply hs.invariant
      · intro r hr
        simp [channel, initial] at hr
      · intro s s' action _ hinv hlate hnext
        exact hinv.step hlate (step_sound hnext)
    rw [canComplete_iff]
    rcases hanswered response hresponse with hwait | hdone
    · exact .inr ⟨hwait, hresponse⟩
    · exact .inl hdone
  · intro s s' action hs hearly hnext hduplex
    have hfailure := failureReturned_of_reachable hs
    cases step_sound hnext with
    | respond response =>
        have hpumping : s.pumping = true := hearly
        have hholds : BodyHolds { s with response := some response } := by
          intro error hmem
          rcases hfailure error hmem with ⟨returned, hdone⟩
          simp [pumping, hdone] at hpumping
        rcases canComplete_iff.mp (hduplex response rfl hholds) with hdone | ⟨hwait, _⟩
        · simp only at hdone
          simp [pumping, hdone] at hpumping
        · simp only at hwait
          simp [pumping, hwait] at hpumping
    | _ => simp [answersEarly] at hearly

/-! ## Runs -/

/-- The origin of a pooled channel. -/
def pooledOrigin : UriParts where
  scheme := some "http"
  authority := some "iroh.local"
  pathAndQuery := none

/-- A request with a body that is not at its end. -/
def streamingRequest : Request where
  uri := ⟨none, none, some "/p2p_chat.v1.P2pChatService/ChatStream"⟩
  bodyIsEmpty := false

/-- A call that has sent one message and the end of its body when the server answers. -/
theorem full_duplex_after_body_unary :
    ∃ s : Call Unit Nat String,
      (channel .ok pooledOrigin streamingRequest).ReachableWhen
        (fun s action => s.answersEarly action = false) s ∧
      s.response = some 200 ∧ s.CanComplete .ok pooledOrigin streamingRequest 200 := by
  have hs := System.reachableWhen_of_runWhen
    (S := (channel .ok pooledOrigin streamingRequest : System (Call Unit Nat String) _))
    (C := fun s action => s.answersEarly action = false)
    (l := [.sendRequest (.ok ()), .frame (some (.ok (.data [1]))) (.ok ()),
      .capacity (some (.ok 1)) (.ok ()), .frame none (.ok ()), .respond 200]) rfl
  refine ⟨_, hs, rfl, ?_⟩
  apply (full_duplex_after_body .ok pooledOrigin streamingRequest).1 _ hs 200 rfl
  exact bodyHolds_of_yielded (l := [some (.ok (.data [1])), none]) rfl (by simp)

/-- The response has arrived and the body has not failed, but the call awaits the next
frame of a body that never yields one, awaits send capacity that is never granted, or
returns an error because the peer has stopped reading. -/
theorem early_response_is_not_returned :
    (∃ s : Call Unit Nat String, (channel .ok pooledOrigin streamingRequest).Reachable s ∧
      s.pc = .pollFrame ∧ s.response = some 200 ∧ s.BodyHolds ∧
      ¬s.FullDuplex .ok pooledOrigin streamingRequest) ∧
    (∃ s : Call Unit Nat String, (channel .ok pooledOrigin streamingRequest).Reachable s ∧
      s.pc = .pollCapacity [1] ∧ s.response = some 200 ∧ s.BodyHolds ∧
      ¬s.FullDuplex .ok pooledOrigin streamingRequest) ∧
    ∃ s : Call Unit Nat String, (channel .ok pooledOrigin streamingRequest).Reachable s ∧
      s.pc = .done (.error (.connection "stream closed while reserving capacity")) ∧
      s.response = some 200 ∧ s.BodyHolds ∧
      ¬s.FullDuplex .ok pooledOrigin streamingRequest := by
  have hstuck : ∀ s : Call Unit Nat String, s.response = some 200 → s.BodyHolds →
      s.pc ≠ .done (.ok 200) → s.pc ≠ .awaitResponse →
      ¬s.FullDuplex .ok pooledOrigin streamingRequest := by
    intro s hresponse hholds hdone hwait hduplex
    rcases canComplete_iff.mp (hduplex 200 hresponse hholds) with hpc | ⟨hpc, _⟩
    · exact hdone hpc
    · exact hwait hpc
  have hempty : ∀ s : Call Unit Nat String, s.yielded = [] → s.BodyHolds :=
    fun s hyielded => bodyHolds_of_yielded hyielded (by simp)
  have hdata : ∀ s : Call Unit Nat String, s.yielded = [some (.ok (.data [1]))] → s.BodyHolds :=
    fun s hyielded => bodyHolds_of_yielded hyielded (by simp)
  have hframe := System.reachableWhen_of_runWhen (C := fun _ _ => True)
    (S := (channel .ok pooledOrigin streamingRequest : System (Call Unit Nat String) _))
    (l := [.sendRequest (.ok ()), .respond 200]) rfl
  have hcapacity := System.reachableWhen_of_runWhen (C := fun _ _ => True)
    (S := (channel .ok pooledOrigin streamingRequest : System (Call Unit Nat String) _))
    (l := [.sendRequest (.ok ()), .frame (some (.ok (.data [1]))) (.ok ()), .respond 200]) rfl
  have hreset := System.reachableWhen_of_runWhen (C := fun _ _ => True)
    (S := (channel .ok pooledOrigin streamingRequest : System (Call Unit Nat String) _))
    (l := [.sendRequest (.ok ()), .frame (some (.ok (.data [1]))) (.ok ()), .respond 200,
      .reset, .capacity none (.ok ())]) rfl
  refine ⟨⟨_, hframe, rfl, rfl, hempty _ rfl, ?_⟩,
    ⟨_, hcapacity, rfl, rfl, hdata _ rfl, ?_⟩,
    ⟨_, hreset, rfl, rfl, hdata _ rfl, ?_⟩⟩
  · exact hstuck _ rfl (hempty _ rfl) nofun nofun
  · exact hstuck _ rfl (hdata _ rfl) nofun nofun
  · exact hstuck _ rfl (hdata _ rfl) nofun nofun

end IrohTransport.Client
