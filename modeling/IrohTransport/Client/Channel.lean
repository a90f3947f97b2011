import IrohTransport.Lib.Runs

/-!
# The gRPC channel

{lit}`IrohChannel::call` returns a future that rewrites the request's URI, sends the
request headers, pumps the request body into the stream and then awaits the response.
The future is a sequential task with three points where it waits: for the next frame of
the body, for send capacity, and for the response.  What happens between two of them is
one move.

The body, the flow control and the peer move on their own: the results of
{lit}`poll_frame`, {lit}`poll_capacity` and of the sends of h2 come with the label of a
move, and a poll that is still pending is a move that has not been taken.  Of h2 the
model relies on one thing only, that response headers which have arrived on the stream
are what the response future resolves to.  The other answers of h2 are left open, those that
it never gives included, such as capacity where nothing was reserved; {lit}`Call.Possible`
says which of them can come where that matters.

Main definitions:

- {lit}`pumpFrame`, {lit}`pumpCapacity`: the two halves of a turn of {lit}`pump_body`.
- {lit}`Call.step`: the moves of a call and of its stream.
- {lit}`channel`: the transition system of one call.
-/

namespace IrohTransport.Client

/-- The parts of a URI that a request and an origin may have. -/
structure UriParts where
  scheme : Option String
  authority : Option String
  pathAndQuery : Option String
deriving DecidableEq, Repr

/-- The errors a call returns: an error of h2, or a connection error with its text. -/
inductive CallError (ε : Type)
  | h2 (error : ε)
  | connection (msg : String)
deriving DecidableEq, Repr

/-- Rewrite scheme and authority from the origin.  Putting the parts together again is
the business of the library: {lit}`fromParts` gives its result. -/
def applyOrigin {ε : Type} (fromParts : UriParts → Except String UriParts)
    (uri origin : UriParts) : Except (CallError ε) UriParts :=
  let parts := { uri with
    scheme := origin.scheme.or (some "http")
    authority := origin.authority.or (some "iroh.local") }
  match fromParts parts with
  | .ok uri => .ok uri
  | .error e => .error (.connection ("invalid request URI: " ++ e))

/-- A frame of a request body. -/
inductive Frame (τ : Type)
  | data (data : List UInt8)
  | trailers (trailers : τ)
  | other
deriving DecidableEq, Repr

/-- What a body yields when a poll of it is ready: a frame, an error, or its end. -/
abbrev BodyItem (τ : Type) := Option (Except String (Frame τ))

/-- What a call hands to its stream.  The reset always has the reason
{lit}`INTERNAL_ERROR`. -/
inductive Sent (τ : Type)
  | headers (uri : UriParts) (endStream : Bool)
  | data (data : List UInt8) (endStream : Bool)
  | trailers (trailers : τ)
  | resetInternalError
deriving DecidableEq, Repr

/-! ## The pump -/

/-- What a half turn of {lit}`pump_body` leads to. -/
inductive Pump (τ ε : Type)
  | skip
  | reserve (data : List UInt8)
  | next (data : List UInt8)
  | finished (last : Sent τ)
  | failed (error : CallError ε)
deriving DecidableEq, Repr

variable {τ ρ ε : Type}

/-- The end of a turn that makes its last send; {lit}`sent` is the result of the send. -/
def Pump.ofLast (last : Sent τ) (sent : Except ε Unit) : Pump τ ε :=
  match sent with
  | .ok _ => .finished last
  | .error e => .failed (.h2 e)

/-- A poll of the body is ready: capacity is reserved for a data frame, trailers and the
end of the body are sent at once and end the stream. -/
def pumpFrame (item : BodyItem τ) (sent : Except ε Unit) : Pump τ ε :=
  match item with
  | some (.ok (.data data)) => .reserve data
  | some (.ok (.trailers trailers)) => .ofLast (.trailers trailers) sent
  | some (.ok .other) => .skip
  | some (.error e) => .failed (.connection ("request body error: " ++ e))
  | none => .ofLast (.data [] true) sent

/-- A poll of the capacity is ready: the data frame is sent, whatever the capacity. -/
def pumpCapacity (data : List UInt8) (capacity : Option (Except ε Nat))
    (sent : Except ε Unit) : Pump τ ε :=
  match capacity with
  | some (.ok _) =>
      match sent with
      | .ok _ => .next data
      | .error e => .failed (.h2 e)
  | some (.error e) => .failed (.h2 e)
  | none => .failed (.connection "stream closed while reserving capacity")

/-! ## The call -/

/-- Program points of the future. -/
inductive Pc (ρ ε : Type)
  | start
  | pollFrame
  | pollCapacity (data : List UInt8)
  | awaitResponse
  | done (result : Except (CallError ε) ρ)

/-- One call and its stream: what the call has sent, what the body has yielded to it, the
response headers if they have arrived, and whether the peer has reset the stream. -/
structure Call (τ ρ ε : Type) where
  pc : Pc ρ ε
  sent : List (Sent τ)
  yielded : List (BodyItem τ)
  response : Option ρ
  peerReset : Bool

/-- Moves of a call, and of its peer. -/
inductive CallAction (τ ρ ε : Type)
  | sendRequest (sent : Except ε Unit)
  | frame (item : BodyItem τ) (sent : Except ε Unit)
  | capacity (capacity : Option (Except ε Nat)) (sent : Except ε Unit)
  | pollResponse
  | failResponse (error : ε)
  | respond (response : ρ)
  | reset

/-- The request a channel is called with: its URI, and whether its body is at its end
already. -/
structure Request where
  uri : UriParts
  bodyIsEmpty : Bool

namespace Call

/-- A call whose future has not been polled. -/
def initial : Call τ ρ ε where
  pc := .start
  sent := []
  yielded := []
  response := none
  peerReset := false

/-- The first poll of the future, up to the body or to the response. -/
def sendRequest (s : Call τ ρ ε) (uri : Except (CallError ε) UriParts) (bodyIsEmpty : Bool)
    (sent : Except ε Unit) : Call τ ρ ε :=
  match uri with
  | .error e => { s with pc := .done (.error e) }
  | .ok uri =>
      match sent with
      | .error e => { s with pc := .done (.error (.h2 e)) }
      | .ok _ =>
          { s with
            pc := if bodyIsEmpty then .awaitResponse else .pollFrame
            sent := s.sent ++ [.headers uri bodyIsEmpty] }

/-- Go on after a half turn of the pump.  A pump that fails has its stream reset and its
error returned. -/
def pump (s : Call τ ρ ε) : Pump τ ε → Call τ ρ ε
  | .skip => { s with pc := .pollFrame }
  | .reserve data => { s with pc := .pollCapacity data }
  | .next data => { s with pc := .pollFrame, sent := s.sent ++ [.data data false] }
  | .finished last => { s with pc := .awaitResponse, sent := s.sent ++ [last] }
  | .failed error =>
      { s with pc := .done (.error error), sent := s.sent ++ [.resetInternalError] }

/-- The call is in {lit}`pump_body`. -/
def pumping (s : Call τ ρ ε) : Bool :=
  match s.pc with
  | .pollFrame | .pollCapacity _ => true
  | _ => false

/-- The stream exists and the call has not returned. -/
def onStream (s : Call τ ρ ε) : Bool :=
  match s.pc with
  | .pollFrame | .pollCapacity _ | .awaitResponse => true
  | _ => false

/-- One move of a call or of its peer. -/
def step (fromParts : UriParts → Except String UriParts) (origin : UriParts)
    (request : Request) (s : Call τ ρ ε) : CallAction τ ρ ε → Option (Call τ ρ ε)
  | .sendRequest sent =>
      match s.pc with
      | .start =>
          some (s.sendRequest (applyOrigin fromParts request.uri origin) request.bodyIsEmpty sent)
      | _ => none
  | .frame item sent =>
      match s.pc with
      | .pollFrame => some (pump { s with yielded := s.yielded ++ [item] } (pumpFrame item sent))
      | _ => none
  | .capacity capacity sent =>
      match s.pc with
      | .pollCapacity data => some (s.pump (pumpCapacity data capacity sent))
      | _ => none
  | .pollResponse =>
      match s.pc, s.response with
      | .awaitResponse, some response => some { s with pc := .done (.ok response) }
      | _, _ => none
  | .failResponse error =>
      match s.pc, s.response with
      | .awaitResponse, none => some { s with pc := .done (.error (.h2 error)) }
      | _, _ => none
  | .respond response =>
      if s.onStream && s.response.isNone && !s.peerReset then
        some { s with response := some response }
      else none
  | .reset => if s.onStream && !s.peerReset then some { s with peerReset := true } else none

end Call

/-- One call of a channel. -/
def channel (fromParts : UriParts → Except String UriParts) (origin : UriParts)
    (request : Request) : System (Call τ ρ ε) (CallAction τ ρ ε) where
  init := .initial
  step := Call.step fromParts origin request

/-! ## Everything a move can be -/

namespace Call

variable {fromParts : UriParts → Except String UriParts} {origin : UriParts}
  {request : Request}

/-- The moves of a call and of its peer, with their guards. -/
inductive Step (fromParts : UriParts → Except String UriParts) (origin : UriParts)
    (request : Request) (s : Call τ ρ ε) : CallAction τ ρ ε → Call τ ρ ε → Prop
  | sendRequest (sent : Except ε Unit) : s.pc = .start →
      Step fromParts origin request s (.sendRequest sent)
        (s.sendRequest (applyOrigin fromParts request.uri origin) request.bodyIsEmpty sent)
  | frame (item : BodyItem τ) (sent : Except ε Unit) : s.pc = .pollFrame →
      Step fromParts origin request s (.frame item sent)
        (pump { s with yielded := s.yielded ++ [item] } (pumpFrame item sent))
  | capacity (data : List UInt8) (capacity : Option (Except ε Nat)) (sent : Except ε Unit) :
      s.pc = .pollCapacity data →
      Step fromParts origin request s (.capacity capacity sent)
        (s.pump (pumpCapacity data capacity sent))
  | pollResponse (response : ρ) : s.pc = .awaitResponse → s.response = some response →
      Step fromParts origin request s .pollResponse { s with pc := .done (.ok response) }
  | failResponse (error : ε) : s.pc = .awaitResponse → s.response = none →
      Step fromParts origin request s (.failResponse error)
        { s with pc := .done (.error (.h2 error)) }
  | respond (response : ρ) : s.onStream = true → s.response = none → s.peerReset = false →
      Step fromParts origin request s (.respond response) { s with response := some response }
  | reset : s.onStream = true → s.peerReset = false →
      Step fromParts origin request s .reset { s with peerReset := true }

/-- Every move is one of the listed moves. -/
theorem step_sound {s s' : Call τ ρ ε} {action : CallAction τ ρ ε}
    (h : s.step fromParts origin request action = some s') :
    Step fromParts origin request s action s' := by
  cases action with
  | sendRequest sent =>
      cases hpc : s.pc <;> simp only [step, hpc] at h <;> cases h
      exact .sendRequest sent hpc
  | frame item sent =>
      cases hpc : s.pc <;> simp only [step, hpc] at h <;> cases h
      exact .frame item sent hpc
  | capacity capacity sent =>
      cases hpc : s.pc <;> simp only [step, hpc] at h <;> cases h
      exact .capacity _ capacity sent hpc
  | pollResponse =>
      cases hpc : s.pc <;> cases hresponse : s.response <;>
        simp only [step, hpc, hresponse] at h <;> cases h
      simpa only [hresponse] using Step.pollResponse _ hpc hresponse
  | failResponse error =>
      cases hpc : s.pc <;> cases hresponse : s.response <;>
        simp only [step, hpc, hresponse] at h <;> cases h
      simpa only [hresponse] using Step.failResponse error hpc hresponse
  | respond response =>
      simp only [step] at h
      split at h <;> rename_i hguard <;> cases h
      simp only [Bool.and_eq_true, Option.isNone_iff_eq_none, Bool.not_eq_true'] at hguard
      exact .respond response hguard.1.1 hguard.1.2 hguard.2
  | reset =>
      simp only [step] at h
      split at h <;> rename_i hguard <;> cases h
      simp only [Bool.and_eq_true, Bool.not_eq_true'] at hguard
      exact .reset hguard.1 hguard.2

end Call

end IrohTransport.Client
