import IrohTransport.Client.Channel
import Mathlib.Data.Stream.Init
import Mathlib.Algebra.Ring.Nat

/-!
# The response body

{lit}`IrohResponseBody` turns the receiving half of an h2 stream into a body: it yields
the chunks of data, gives their flow-control capacity back, then yields the trailers, and
after that, or after any error, nothing more.

What h2 answers is arbitrary.  A {lit}`RecvStream` is the sequence of answers that the
next calls of each of its three methods get, pending ones included; the body records, for
the statements only, what each round of the loop of {lit}`poll_frame` has heard.

Main results:

- Theorem {lit}`IrohResponseBody.loop_three`: a call of {lit}`poll_frame` takes at most
  three rounds.
- Theorem {lit}`Told.round`: the account of what was heard and what was yielded that every
  round keeps.
- Theorem {lit}`response_body_is_faithful`: what any number of polls yields, which methods
  they call and how much capacity they give back.
-/

namespace IrohTransport.Client

/-! ## Polls and streams -/

/-- The result of a poll. -/
inductive Poll (α : Type)
  | ready (value : α)
  | pending
deriving DecidableEq, Repr

/-- The value of a poll that is ready. -/
@[simp] def Poll.value? {α : Type} : Poll α → Option α
  | .ready value => some value
  | .pending => none

/-- What the next calls of the methods of an {lit}`h2::RecvStream` return. -/
structure RecvStream (τ ε : Type) where
  pollData : Stream' (Poll (Option (Except ε (List UInt8))))
  releaseCapacity : Stream' (Except ε Unit)
  pollTrailers : Stream' (Poll (Except ε (Option τ)))

/-- A status of code {lit}`INTERNAL`, with its message. -/
structure Status where
  message : String
deriving DecidableEq, Repr

/-- What a body answers when it is polled. -/
abbrev FramePoll (τ : Type) := Poll (Option (Except Status (Frame τ)))

/-- What one round of the loop hears from h2.  A chunk of data comes with the length that is
released for it and with the result of the release. -/
inductive Heard (τ ε : Type)
  | chunk (data : List UInt8) (len : Nat) (release : Except ε Unit)
  | dataError (error : ε)
  | dataEnd
  | dataPending
  | trailers (trailers : τ)
  | noTrailers
  | trailersError (error : ε)
  | trailersPending
deriving DecidableEq

/-- Receiving data, waiting for optional trailers, or at the end. -/
inductive BodyState (τ ε : Type)
  | data (recv : RecvStream τ ε)
  | trailers (recv : RecvStream τ ε)
  | done

/-- How many states a body still has to go through. -/
def BodyState.remaining {τ ε : Type} : BodyState τ ε → Nat
  | .data _ => 2
  | .trailers _ => 1
  | .done => 0

/-- The response body, with what it has heard so far. -/
structure IrohResponseBody (τ ε : Type) where
  state : BodyState τ ε
  heard : List (Heard τ ε)

variable {τ ε : Type}

namespace IrohResponseBody

/-- The body of a response. -/
def new (recv : RecvStream τ ε) : IrohResponseBody τ ε where
  state := .data recv
  heard := []

section Poll

variable [ToString ε]

/-- The chunk goes on to the reader if its capacity could be released. -/
def onChunk (this : IrohResponseBody τ ε) (recv : RecvStream τ ε) (data : List UInt8) :
    IrohResponseBody τ ε × Option (FramePoll τ) :=
  let len := data.length
  let release := recv.releaseCapacity.head
  let heard := this.heard ++ [.chunk data len release]
  match release with
  | .error e =>
      ({ state := .done, heard := heard },
        some (.ready (some (.error ⟨"flow control error: " ++ toString e⟩))))
  | .ok _ =>
      ({ state := .data { recv with releaseCapacity := recv.releaseCapacity.tail }, heard := heard },
        some (.ready (some (.ok (.data data)))))

/-- One round of the loop of {lit}`poll_frame`: it returns, or it goes on. -/
def round (this : IrohResponseBody τ ε) : IrohResponseBody τ ε × Option (FramePoll τ) :=
  match this.state with
  | .data recv =>
      let polled := { recv with pollData := recv.pollData.tail }
      match recv.pollData.head with
      | .ready (some (.ok data)) => this.onChunk polled data
      | .ready (some (.error e)) =>
          ({ state := .done, heard := this.heard ++ [.dataError e] },
            some (.ready (some (.error ⟨"h2 data error: " ++ toString e⟩))))
      | .ready none =>
          ({ state := .trailers polled, heard := this.heard ++ [.dataEnd] }, none)
      | .pending =>
          ({ state := .data polled, heard := this.heard ++ [.dataPending] }, some .pending)
  | .trailers recv =>
      let polled := { recv with pollTrailers := recv.pollTrailers.tail }
      match recv.pollTrailers.head with
      | .ready (.ok (some trailers)) =>
          ({ state := .done, heard := this.heard ++ [.trailers trailers] },
            some (.ready (some (.ok (.trailers trailers)))))
      | .ready (.ok none) =>
          ({ state := .done, heard := this.heard ++ [.noTrailers] }, some (.ready none))
      | .ready (.error e) =>
          ({ state := .done, heard := this.heard ++ [.trailersError e] },
            some (.ready (some (.error ⟨"h2 trailers error: " ++ toString e⟩))))
      | .pending =>
          ({ state := .trailers polled, heard := this.heard ++ [.trailersPending] }, some .pending)
  | .done => (this, some (.ready none))

/-- The loop of {lit}`poll_frame`, given up after some rounds. -/
def loop : Nat → IrohResponseBody τ ε → Option (IrohResponseBody τ ε × FramePoll τ)
  | 0, _ => none
  | rounds + 1, this =>
      match this.round with
      | (this, some result) => some (this, result)
      | (this, none) => loop rounds this

/-- Everything a round can do, one constructor per path through the source. -/
inductive Round (this : IrohResponseBody τ ε) :
    IrohResponseBody τ ε × Option (FramePoll τ) → Prop
  | chunk (recv : RecvStream τ ε) (data : List UInt8) : this.state = .data recv →
      recv.pollData.head = .ready (some (.ok data)) → recv.releaseCapacity.head = .ok () →
      Round this
        ({ state := .data { recv with
            pollData := recv.pollData.tail, releaseCapacity := recv.releaseCapacity.tail },
           heard := this.heard ++ [.chunk data data.length (.ok ())] },
          some (.ready (some (.ok (.data data)))))
  | unreleased (recv : RecvStream τ ε) (data : List UInt8) (e : ε) : this.state = .data recv →
      recv.pollData.head = .ready (some (.ok data)) → recv.releaseCapacity.head = .error e →
      Round this
        ({ state := .done, heard := this.heard ++ [.chunk data data.length (.error e)] },
          some (.ready (some (.error ⟨"flow control error: " ++ toString e⟩))))
  | dataError (recv : RecvStream τ ε) (e : ε) : this.state = .data recv →
      recv.pollData.head = .ready (some (.error e)) →
      Round this
        ({ state := .done, heard := this.heard ++ [.dataError e] },
          some (.ready (some (.error ⟨"h2 data error: " ++ toString e⟩))))
  | dataEnd (recv : RecvStream τ ε) : this.state = .data recv →
      recv.pollData.head = .ready none →
      Round this
        ({ state := .trailers { recv with pollData := recv.pollData.tail },
           heard := this.heard ++ [.dataEnd] }, none)
  | dataPending (recv : RecvStream τ ε) : this.state = .data recv →
      recv.pollData.head = .pending →
      Round this
        ({ state := .data { recv with pollData := recv.pollData.tail },
           heard := this.heard ++ [.dataPending] }, some .pending)
  | trailers (recv : RecvStream τ ε) (trailers : τ) : this.state = .trailers recv →
      recv.pollTrailers.head = .ready (.ok (some trailers)) →
      Round this
        ({ state := .done, heard := this.heard ++ [.trailers trailers] },
          some (.ready (some (.ok (.trailers trailers)))))
  | noTrailers (recv : RecvStream τ ε) : this.state = .trailers recv →
      recv.pollTrailers.head = .ready (.ok none) →
      Round this
        ({ state := .done, heard := this.heard ++ [.noTrailers] }, some (.ready none))
  | trailersError (recv : RecvStream τ ε) (e : ε) : this.state = .trailers recv →
      recv.pollTrailers.head = .ready (.error e) →
      Round this
        ({ state := .done, heard := this.heard ++ [.trailersError e] },
          some (.ready (some (.error ⟨"h2 trailers error: " ++ toString e⟩))))
  | trailersPending (recv : RecvStream τ ε) : this.state = .trailers recv →
      recv.pollTrailers.head = .pending →
      Round this
        ({ state := .trailers { recv with pollTrailers := recv.pollTrailers.tail },
           heard := this.heard ++ [.trailersPending] }, some .pending)
  | done : this.state = .done → Round this (this, some (.ready none))

/-- Every round takes one of the listed paths. -/
theorem round_cases (this : IrohResponseBody τ ε) : Round this this.round := by
  cases hstate : this.state with
  | data recv =>
      cases hpoll : recv.pollData.head with
      | pending =>
          simp only [round, hstate, hpoll]
          exact .dataPending recv hstate hpoll
      | ready item =>
          rcases item with _ | _ | data
          · simp only [round, hstate, hpoll]
            exact .dataEnd recv hstate hpoll
          · simp only [round, hstate, hpoll]
            exact .dataError recv _ hstate hpoll
          · cases hrelease : recv.releaseCapacity.head with
            | error e =>
                simp only [round, onChunk, hstate, hpoll, hrelease]
                exact .unreleased recv data e hstate hpoll hrelease
            | ok released =>
                simp only [round, onChunk, hstate, hpoll, hrelease]
                exact .chunk recv data hstate hpoll hrelease
  | trailers recv =>
      cases hpoll : recv.pollTrailers.head with
      | pending =>
          simp only [round, hstate, hpoll]
          exact .trailersPending recv hstate hpoll
      | ready item =>
          rcases item with _ | _ | trailers
          · simp only [round, hstate, hpoll]
            exact .trailersError recv _ hstate hpoll
          · simp only [round, hstate, hpoll]
            exact .noTrailers recv hstate hpoll
          · simp only [round, hstate, hpoll]
            exact .trailers recv trailers hstate hpoll
  | done =>
      simp only [round, hstate]
      exact .done hstate

/-- A round that goes on has left a state for good. -/
theorem round_remaining {this this' : IrohResponseBody τ ε} (h : this.round = (this', none)) :
    this'.state.remaining < this.state.remaining := by
  have hround := this.round_cases
  rw [h] at hround
  cases hround with
  | dataEnd recv hstate => simp [hstate, BodyState.remaining]

/-- {lit}`poll_frame`: rounds until one returns. -/
def pollFrame (this : IrohResponseBody τ ε) : IrohResponseBody τ ε × FramePoll τ :=
  match _hround : this.round with
  | (this, some result) => (this, result)
  | (this', none) => this'.pollFrame
termination_by this.state.remaining
decreasing_by exact round_remaining _hround

/-- Some calls of {lit}`poll_frame`, one after the other: their results and the body they
leave. -/
def polls (this : IrohResponseBody τ ε) : Nat → List (FramePoll τ) × IrohResponseBody τ ε
  | 0 => ([], this)
  | n + 1 =>
      let (results, body) := this.polls n
      (results ++ [body.pollFrame.2], body.pollFrame.1)

/-! ## Rounds -/

/-- A call returns what its first round returns, or what a call after it returns. -/
theorem pollFrame_of_round {this this' : IrohResponseBody τ ε} {result : FramePoll τ}
    (h : this.round = (this', some result)) : this.pollFrame = (this', result) := by
  rw [pollFrame]
  split <;> rename_i heq <;> rw [h] at heq <;> cases heq
  rfl

theorem pollFrame_of_round_none {this this' : IrohResponseBody τ ε}
    (h : this.round = (this', none)) : this.pollFrame = this'.pollFrame := by
  rw [pollFrame]
  split <;> rename_i heq <;> rw [h] at heq <;> cases heq
  rfl

/-- With more rounds than states left the loop returns. -/
theorem loop_of_remaining_lt {this : IrohResponseBody τ ε} {rounds : Nat}
    (h : this.state.remaining < rounds) : this.loop rounds = some this.pollFrame := by
  induction rounds generalizing this with
  | zero => omega
  | succ rounds ih =>
      unfold loop
      rcases hround : this.round with ⟨this', result⟩
      cases result with
      | some result => rw [pollFrame_of_round hround]
      | none =>
          have hless := round_remaining hround
          simp only
          rw [pollFrame_of_round_none hround, ih (by omega)]

/-- A call takes at most three rounds. -/
theorem loop_three (this : IrohResponseBody τ ε) : this.loop 3 = some this.pollFrame := by
  apply loop_of_remaining_lt
  cases this.state <;> simp [BodyState.remaining]

end Poll

end IrohResponseBody

/-! ## What was heard -/

namespace Heard

/-- The chunk that was received. -/
@[simp] def received : Heard τ ε → Option (List UInt8)
  | .chunk data _ _ => some data
  | _ => none

/-- The chunk whose capacity was released. -/
@[simp] def delivered : Heard τ ε → Option (List UInt8)
  | .chunk data _ (.ok _) => some data
  | _ => none

/-- The capacity that was released. -/
@[simp] def released : Heard τ ε → Option Nat
  | .chunk _ len (.ok _) => some len
  | _ => none

/-- The trailers or the error that a body ends with. -/
@[simp] def last [ToString ε] : Heard τ ε → Option (Except Status (Frame τ))
  | .chunk _ _ (.error e) => some (.error ⟨"flow control error: " ++ toString e⟩)
  | .dataError e => some (.error ⟨"h2 data error: " ++ toString e⟩)
  | .trailers t => some (.ok (.trailers t))
  | .trailersError e => some (.error ⟨"h2 trailers error: " ++ toString e⟩)
  | _ => none

/-- What {lit}`poll_frame` answers to what its round has heard; after the end of the data it
goes on to the trailers. -/
@[simp] def answer [ToString ε] : Heard τ ε → Option (FramePoll τ)
  | .chunk data _ (.ok _) => some (.ready (some (.ok (.data data))))
  | .chunk _ _ (.error e) => some (.ready (some (.error ⟨"flow control error: " ++ toString e⟩)))
  | .dataError e => some (.ready (some (.error ⟨"h2 data error: " ++ toString e⟩)))
  | .dataEnd => none
  | .trailers t => some (.ready (some (.ok (.trailers t))))
  | .noTrailers => some (.ready none)
  | .trailersError e => some (.ready (some (.error ⟨"h2 trailers error: " ++ toString e⟩)))
  | .dataPending | .trailersPending => some .pending

/-- There is nothing to hear after it. -/
@[simp] def ends : Heard τ ε → Bool
  | .chunk _ _ (.error _) | .dataError _ | .trailers _ | .noTrailers | .trailersError _ => true
  | _ => false

/-- The answer of {lit}`poll_data`, if it was called. -/
@[simp] def pollData : Heard τ ε → Option (Poll (Option (Except ε (List UInt8))))
  | .chunk data _ _ => some (.ready (some (.ok data)))
  | .dataError e => some (.ready (some (.error e)))
  | .dataEnd => some (.ready none)
  | .dataPending => some .pending
  | _ => none

/-- The answer of {lit}`release_capacity`, if it was called. -/
@[simp] def releaseCapacity : Heard τ ε → Option (Except ε Unit)
  | .chunk _ _ release => some release
  | _ => none

/-- The answer of {lit}`poll_trailers`, if it was called. -/
@[simp] def pollTrailers : Heard τ ε → Option (Poll (Except ε (Option τ)))
  | .trailers t => some (.ready (.ok (some t)))
  | .noTrailers => some (.ready (.ok none))
  | .trailersError e => some (.ready (.error e))
  | .trailersPending => some .pending
  | _ => none

end Heard

/-- Data is polled until its end and trailers are polled after it. -/
def InOrder (heard : List (Heard τ ε)) : Prop :=
  ∀ before h after, heard = before ++ h :: after →
    (h.pollData.isSome = true → .dataEnd ∉ before) ∧
      (h.pollTrailers.isSome = true → .dataEnd ∈ before)

/-- The calls made so far got the first answers of a stream, and these are left. -/
structure Follows (recv : RecvStream τ ε) (heard : List (Heard τ ε)) (rest : RecvStream τ ε) :
    Prop where
  pollData : recv.pollData = heard.filterMap Heard.pollData ++ₛ rest.pollData
  releaseCapacity :
    recv.releaseCapacity = heard.filterMap Heard.releaseCapacity ++ₛ rest.releaseCapacity
  pollTrailers : recv.pollTrailers = heard.filterMap Heard.pollTrailers ++ₛ rest.pollTrailers

theorem InOrder.concat {heard : List (Heard τ ε)} {h : Heard τ ε} (hin : InOrder heard)
    (hdata : h.pollData.isSome = true → .dataEnd ∉ heard)
    (htrailers : h.pollTrailers.isSome = true → .dataEnd ∈ heard) : InOrder (heard ++ [h]) := by
  intro before g after hsplit
  rcases List.eq_nil_or_concat after with rfl | ⟨after', last, rfl⟩
  · rcases List.append_inj' hsplit rfl with ⟨rfl, hlast⟩
    rw [List.singleton_inj] at hlast
    exact hlast ▸ ⟨hdata, htrailers⟩
  · rw [List.concat_eq_append, ← List.cons_append, ← List.append_assoc] at hsplit
    exact hin before g after' (List.append_inj' hsplit rfl).1

/-- The frames that an event yields: a chunk that was delivered, the end of the body, or
nothing. -/
@[simp] def Heard.frames [ToString ε] (h : Heard τ ε) : List (Option (Except Status (Frame τ))) :=
  h.delivered.toList.map (fun data => some (.ok (.data data))) ++ h.last.toList.map some

/-- Answers follow each other. -/
theorem Follows.append {recv mid rest : RecvStream τ ε} {heard heard' : List (Heard τ ε)}
    (h : Follows recv heard mid) (h' : Follows mid heard' rest) :
    Follows recv (heard ++ heard') rest := by
  constructor
  · rw [List.filterMap_append, Stream'.append_append_stream, ← h'.pollData, h.pollData]
  · rw [List.filterMap_append, Stream'.append_append_stream, ← h'.releaseCapacity,
      h.releaseCapacity]
  · rw [List.filterMap_append, Stream'.append_append_stream, ← h'.pollTrailers, h.pollTrailers]

/-- What a round does that hears something from its stream: what it yields for it, and the
state it goes to. -/
structure Hears [ToString ε] (this : IrohResponseBody τ ε) (recv : RecvStream τ ε)
    (h : Heard τ ε) (next : BodyState τ ε) (out : Option (FramePoll τ)) : Prop where
  yields : ∃ k, (next ≠ .done → k = 0) ∧
    out.toList.filterMap Poll.value? = h.frames ++ List.replicate k none
  answered : out = h.answer
  ended : next = .done → h.ends = true
  unfinished : next ≠ .done → h.last = none ∧ h.received = h.delivered
  received : h.received = h.delivered ∨ ∃ data e, h = .chunk data data.length (.error e)
  released : h.released = h.delivered.map List.length
  pollData : h.pollData.isSome = true → this.state = .data recv
  pollTrailers : h.pollTrailers.isSome = true → this.state = .trailers recv
  data : ∀ rest, next = .data rest → h ≠ .dataEnd ∧ this.state = .data recv
  trailers : ∀ rest, next = .trailers rest → h = .dataEnd ∨ this.state = .trailers recv
  follows : ∃ rest, Follows recv [h] rest ∧
    ∀ left, next = .data left ∨ next = .trailers left → left = rest

/-- An answer to {lit}`poll_data` alone. -/
theorem follows_pollData {recv : RecvStream τ ε} {h : Heard τ ε}
    (hdata : h.pollData = some recv.pollData.head) (hrelease : h.releaseCapacity = none)
    (htrailers : h.pollTrailers = none) :
    Follows recv [h] { recv with pollData := recv.pollData.tail } := by
  constructor
  · rw [List.filterMap_cons_some hdata]
    exact (Stream'.eta recv.pollData).symm
  · rw [List.filterMap_cons_none hrelease]
    rfl
  · rw [List.filterMap_cons_none htrailers]
    rfl

/-- A chunk: an answer to {lit}`poll_data` and one to {lit}`release_capacity`. -/
theorem follows_chunk {recv : RecvStream τ ε} {data : List UInt8} {len : Nat}
    {release : Except ε Unit} (hdata : recv.pollData.head = .ready (some (.ok data)))
    (hrelease : recv.releaseCapacity.head = release) :
    Follows recv [.chunk data len release]
      { recv with
        pollData := recv.pollData.tail, releaseCapacity := recv.releaseCapacity.tail } := by
  constructor <;> simp [List.filterMap_cons, ← hdata, ← hrelease]

/-- An answer to {lit}`poll_trailers`. -/
theorem follows_pollTrailers {recv : RecvStream τ ε} {h : Heard τ ε} (hdata : h.pollData = none)
    (hrelease : h.releaseCapacity = none) (htrailers : h.pollTrailers = some recv.pollTrailers.head) :
    Follows recv [h] { recv with pollTrailers := recv.pollTrailers.tail } := by
  constructor
  · rw [List.filterMap_cons_none hdata]
    rfl
  · rw [List.filterMap_cons_none hrelease]
    rfl
  · rw [List.filterMap_cons_some htrailers]
    exact (Stream'.eta recv.pollTrailers).symm

section Rounds

variable [ToString ε]

/-- A round of a body that is not at its end hears one thing. -/
theorem IrohResponseBody.Round.hears {this : IrohResponseBody τ ε}
    {res : IrohResponseBody τ ε × Option (FramePoll τ)} (h : this.Round res)
    (hopen : this.state ≠ .done) :
    ∃ recv g, (this.state = .data recv ∨ this.state = .trailers recv) ∧
      res.1.heard = this.heard ++ [g] ∧ Hears this recv g res.1.state res.2 := by
  cases h with
  | chunk recv data hstate hpoll hrelease =>
      refine ⟨recv, _, .inl hstate, rfl, ?_⟩
      constructor
      case yields => exact ⟨0, by simp⟩
      case follows => exact ⟨_, follows_chunk hpoll hrelease, by simp⟩
      all_goals simp [hstate]
  | unreleased recv data e hstate hpoll hrelease =>
      refine ⟨recv, _, .inl hstate, rfl, ?_⟩
      constructor
      case yields => exact ⟨0, by simp⟩
      case follows => exact ⟨_, follows_chunk hpoll hrelease, by simp⟩
      all_goals simp [hstate]
  | dataError recv e hstate hpoll =>
      refine ⟨recv, _, .inl hstate, rfl, ?_⟩
      constructor
      case yields => exact ⟨0, by simp⟩
      case follows => exact ⟨_, follows_pollData (by simp [hpoll]) rfl rfl, by simp⟩
      all_goals simp [hstate]
  | dataEnd recv hstate hpoll =>
      refine ⟨recv, _, .inl hstate, rfl, ?_⟩
      constructor
      case yields => exact ⟨0, by simp⟩
      case follows => exact ⟨_, follows_pollData (by simp [hpoll]) rfl rfl, by simp⟩
      all_goals simp [hstate]
  | dataPending recv hstate hpoll =>
      refine ⟨recv, _, .inl hstate, rfl, ?_⟩
      constructor
      case yields => exact ⟨0, by simp⟩
      case follows => exact ⟨_, follows_pollData (by simp [hpoll]) rfl rfl, by simp⟩
      all_goals simp [hstate]
  | trailers recv t hstate hpoll =>
      refine ⟨recv, _, .inr hstate, rfl, ?_⟩
      constructor
      case yields => exact ⟨0, by simp⟩
      case follows => exact ⟨_, follows_pollTrailers rfl rfl (by simp [hpoll]), by simp⟩
      all_goals simp [hstate]
  | noTrailers recv hstate hpoll =>
      refine ⟨recv, _, .inr hstate, rfl, ?_⟩
      constructor
      case yields => exact ⟨1, by simp⟩
      case follows => exact ⟨_, follows_pollTrailers rfl rfl (by simp [hpoll]), by simp⟩
      all_goals simp [hstate]
  | trailersError recv e hstate hpoll =>
      refine ⟨recv, _, .inr hstate, rfl, ?_⟩
      constructor
      case yields => exact ⟨0, by simp⟩
      case follows => exact ⟨_, follows_pollTrailers rfl rfl (by simp [hpoll]), by simp⟩
      all_goals simp [hstate]
  | trailersPending recv hstate hpoll =>
      refine ⟨recv, _, .inr hstate, rfl, ?_⟩
      constructor
      case yields => exact ⟨0, by simp⟩
      case follows => exact ⟨_, follows_pollTrailers rfl rfl (by simp [hpoll]), by simp⟩
      all_goals simp [hstate]
  | done hstate => exact (hopen hstate).elim

end Rounds

/-- What holds of a body that has been polled. -/
structure Told [ToString ε] (recv : RecvStream τ ε) (results : List (FramePoll τ))
    (body : IrohResponseBody τ ε) : Prop where
  yielded : ∃ k, (body.state ≠ .done → k = 0) ∧
    results.filterMap Poll.value?
      = (body.heard.filterMap Heard.delivered).map (fun data => some (.ok (.data data)))
        ++ (body.heard.filterMap Heard.last).map some ++ List.replicate k none
  answered : ∃ k, (body.state ≠ .done → k = 0) ∧
    results = body.heard.filterMap Heard.answer ++ List.replicate k (.ready none)
  ended : body.state = .done → ∃ h, body.heard.getLast? = some h ∧ h.ends = true
  unfinished : body.state ≠ .done →
    body.heard.filterMap Heard.last = [] ∧
      body.heard.filterMap Heard.received = body.heard.filterMap Heard.delivered
  last : (body.heard.filterMap Heard.last).length ≤ 1
  received : body.heard.filterMap Heard.received = body.heard.filterMap Heard.delivered ∨
    ∃ data e, body.heard.getLast? = some (.chunk data data.length (.error e)) ∧
      body.heard.filterMap Heard.received = body.heard.filterMap Heard.delivered ++ [data]
  released : (body.heard.filterMap Heard.released).sum
    = ((body.heard.filterMap Heard.delivered).map List.length).sum
  inOrder : InOrder body.heard
  data : ∀ rest, body.state = .data rest → .dataEnd ∉ body.heard
  trailers : ∀ rest, body.state = .trailers rest → .dataEnd ∈ body.heard
  follows : ∃ rest, Follows recv body.heard rest ∧
    ∀ left, body.state = .data left ∨ body.state = .trailers left → left = rest

section Account

variable [ToString ε] {recv : RecvStream τ ε} {results : List (FramePoll τ)}
  {body : IrohResponseBody τ ε}

/-- A fresh body has heard nothing. -/
theorem told_new (recv : RecvStream τ ε) : Told recv [] (IrohResponseBody.new recv) := by
  refine ⟨⟨0, by simp, rfl⟩, ⟨0, by simp, rfl⟩, nofun, fun _ => ⟨rfl, rfl⟩, Nat.zero_le _,
    .inl rfl, rfl, ?_, ?_, ?_, ?_⟩
  · intro before h after hsplit
    simp [IrohResponseBody.new] at hsplit
  · simp [IrohResponseBody.new]
  · simp [IrohResponseBody.new]
  · refine ⟨recv, ⟨rfl, rfl, rfl⟩, ?_⟩
    rintro left (h | h) <;> cases h
    rfl

/-- The account of one more thing heard. -/
theorem Told.hear (htold : Told recv results body) {left : RecvStream τ ε} {h : Heard τ ε}
    {next : BodyState τ ε} {out : Option (FramePoll τ)}
    (hstate : body.state = .data left ∨ body.state = .trailers left)
    (hhears : Hears body left h next out) :
    Told recv (results ++ out.toList) { state := next, heard := body.heard ++ [h] } := by
  have hopen : body.state ≠ .done := by rcases hstate with hs | hs <;> simp [hs]
  rcases htold.unfinished hopen with ⟨hlast, hreceived⟩
  have hconcat : ∀ {β : Type} (f : Heard τ ε → Option β),
      (body.heard ++ [h]).filterMap f = body.heard.filterMap f ++ (f h).toList := by
    intro β f
    rw [List.filterMap_append]
    cases hf : f h <;> simp [hf]
  constructor <;> simp only [hconcat]
  case yielded =>
    rcases htold.yielded with ⟨k, hk, hresults⟩
    rcases hhears.yields with ⟨k', hk', hout⟩
    obtain rfl := hk hopen
    refine ⟨k', hk', ?_⟩
    rw [List.filterMap_append, hresults, hout, hlast, Heard.frames]
    simp [List.append_assoc]
  case answered =>
    rcases htold.answered with ⟨k, hk, hresults⟩
    obtain rfl := hk hopen
    refine ⟨0, fun _ => rfl, ?_⟩
    rw [hhears.answered, hresults]
    simp
  case ended =>
    intro hnext
    exact ⟨h, by simp, hhears.ended hnext⟩
  case unfinished =>
    intro hnext
    rcases hhears.unfinished hnext with ⟨hnone, hsame⟩
    rw [hlast, hnone, hreceived, hsame]
    exact ⟨rfl, rfl⟩
  case last =>
    rw [hlast, List.nil_append]
    cases h.last <;> simp
  case received =>
    rcases hhears.received with hsame | ⟨data, e, rfl⟩
    · exact .inl (by rw [hreceived, hsame])
    · refine .inr ⟨data, e, by simp, ?_⟩
      rw [hreceived]
      simp
  case released =>
    rw [List.sum_append, List.map_append, List.sum_append, htold.released, hhears.released]
    cases h.delivered <;> simp
  case inOrder =>
    apply htold.inOrder.concat
    · intro hpoll
      exact htold.data left (hhears.pollData hpoll)
    · intro hpoll
      exact htold.trailers left (hhears.pollTrailers hpoll)
  case data =>
    intro rest hnext
    rcases hhears.data rest hnext with ⟨hne, hdata⟩
    rw [List.mem_append, List.mem_singleton]
    rintro (hmem | heq)
    · exact htold.data left hdata hmem
    · exact hne heq.symm
  case trailers =>
    intro rest hnext
    rcases hhears.trailers rest hnext with rfl | htrailers
    · simp
    · exact List.mem_append_left _ (htold.trailers left htrailers)
  case follows =>
    rcases htold.follows with ⟨mid, hmid, hleft⟩
    obtain rfl := hleft left hstate
    rcases hhears.follows with ⟨rest, hrest, hnext⟩
    exact ⟨rest, hmid.append hrest, hnext⟩

/-- A body at its end only answers that there is nothing more. -/
theorem Told.idle (htold : Told recv results body) (hdone : body.state = .done) :
    Told recv (results ++ [.ready none]) body := by
  refine { htold with yielded := ?_, answered := ?_ }
  · rcases htold.yielded with ⟨k, -, hresults⟩
    refine ⟨k + 1, fun hopen => (hopen hdone).elim, ?_⟩
    rw [List.filterMap_append, hresults, List.replicate_succ', ← List.append_assoc]
    rfl
  · rcases htold.answered with ⟨k, -, hresults⟩
    refine ⟨k + 1, fun hopen => (hopen hdone).elim, ?_⟩
    rw [hresults, List.replicate_succ', ← List.append_assoc]

/-- Every round keeps the account. -/
theorem Told.round (htold : Told recv results body)
    {res : IrohResponseBody τ ε × Option (FramePoll τ)} (hround : body.Round res) :
    Told recv (results ++ res.2.toList) res.1 := by
  by_cases hdone : body.state = .done
  · cases hround with
    | done => exact htold.idle hdone
    | chunk _ _ hstate | unreleased _ _ _ hstate | dataError _ _ hstate | dataEnd _ hstate
    | dataPending _ hstate | trailers _ _ hstate | noTrailers _ hstate
    | trailersError _ _ hstate | trailersPending _ hstate =>
        rw [hdone] at hstate
        contradiction
  · rcases hround.hears hdone with ⟨left, h, hstate, hheard, hhears⟩
    have hbody : res.1 = { state := res.1.state, heard := body.heard ++ [h] } := by rw [← hheard]
    rw [hbody]
    exact htold.hear hstate hhears

/-- Every call keeps the account. -/
theorem Told.pollFrame (htold : Told recv results body) :
    Told recv (results ++ [body.pollFrame.2]) body.pollFrame.1 := by
  induction body using IrohResponseBody.pollFrame.induct with
  | case1 this this' result hround =>
      have hstep := htold.round this.round_cases
      rw [hround] at hstep
      rw [IrohResponseBody.pollFrame_of_round hround]
      exact hstep
  | case2 this this' hround ih =>
      have hstep := htold.round this.round_cases
      rw [hround] at hstep
      rw [IrohResponseBody.pollFrame_of_round_none hround]
      exact ih (by simpa using hstep)

/-- Any number of calls keeps the account. -/
theorem told_polls (recv : RecvStream τ ε) (n : Nat) :
    Told recv ((IrohResponseBody.new recv).polls n).1 ((IrohResponseBody.new recv).polls n).2 := by
  induction n with
  | zero => exact told_new recv
  | succ n ih => exact ih.pollFrame

end Account

/-! ## The end of a body -/

/-- A body that answers so is at its end. -/
def FramePoll.ends : FramePoll τ → Bool
  | .ready none => true
  | .ready (some (.error _)) => true
  | .ready (some (.ok (.trailers _))) => true
  | _ => false

namespace IrohResponseBody

variable [ToString ε] {this : IrohResponseBody τ ε}

/-- Trailers, errors and the end leave the body at its end. -/
theorem state_of_ends (h : FramePoll.ends this.pollFrame.2 = true) :
    this.pollFrame.1.state = .done := by
  induction this using pollFrame.induct with
  | case1 this this' result hround =>
      have hcases := this.round_cases
      rw [hround] at hcases
      rw [pollFrame_of_round hround] at h ⊢
      cases hcases with
      | chunk | dataPending | trailersPending => simp [FramePoll.ends] at h
      | unreleased | dataError | trailers | noTrailers | trailersError => rfl
      | done hdone => exact hdone
  | case2 this this' hround ih =>
      rw [pollFrame_of_round_none hround] at h ⊢
      exact ih h

/-- A body at its end stays there. -/
theorem pollFrame_of_done (h : this.state = .done) : this.pollFrame = (this, .ready none) := by
  apply pollFrame_of_round
  simp only [round, h]

theorem polls_of_done {i j : Nat} (hij : i ≤ j) (h : (this.polls i).2.state = .done) :
    (this.polls j).2.state = .done := by
  induction j, hij using Nat.le_induction with
  | base => exact h
  | succ j _ ih =>
      simp only [polls, pollFrame_of_done ih]
      exact ih

theorem length_polls (n : Nat) : (this.polls n).1.length = n := by
  induction n with
  | zero => rfl
  | succ n ih => simp [polls, ih]

theorem getElem?_polls {i n : Nat} (h : i < n) :
    (this.polls n).1[i]? = some (this.polls i).2.pollFrame.2 := by
  induction n with
  | zero => omega
  | succ n ih =>
      simp only [polls]
      rcases Nat.lt_succ_iff_lt_or_eq.mp h with hlt | rfl
      · rw [List.getElem?_append_left (by rw [length_polls]; exact hlt), ih hlt]
      · rw [List.getElem?_append_right (by rw [length_polls]), length_polls]
        simp

/-- A poll that ends the body leaves it at its end for good. -/
theorem polls_state_of_ends {i n : Nat} {result : FramePoll τ}
    (hi : (this.polls n).1[i]? = some result) (hends : FramePoll.ends result = true) {j : Nat}
    (hij : i < j) : (this.polls j).2.state = .done := by
  have hin : i < n := by
    rcases List.getElem?_eq_some_iff.mp hi with ⟨hlt, -⟩
    rwa [length_polls] at hlt
  rw [getElem?_polls hin, Option.some.injEq] at hi
  have hdone : (this.polls (i + 1)).2.state = .done := by
    apply state_of_ends
    rw [hi]
    exact hends
  exact polls_of_done hij hdone

/-- After a poll that ends the body every poll answers that there is nothing more. -/
theorem polls_fused {i j n : Nat} {result result' : FramePoll τ} (hij : i < j)
    (hi : (this.polls n).1[i]? = some result) (hends : FramePoll.ends result = true)
    (hj : (this.polls n).1[j]? = some result') : result' = .ready none := by
  have hjn : j < n := by
    rcases List.getElem?_eq_some_iff.mp hj with ⟨hlt, -⟩
    rwa [length_polls] at hlt
  rw [getElem?_polls hjn, Option.some.injEq] at hj
  rw [← hj, pollFrame_of_done (polls_state_of_ends hi hends hij)]

end IrohResponseBody

/-- The data frame that a poll yields. -/
@[simp] def FramePoll.data? : FramePoll τ → Option (List UInt8)
  | .ready (some (.ok (.data data))) => some data
  | _ => none

/-- Only a poll that is ready yields data. -/
theorem filterMap_data? (results : List (FramePoll τ)) :
    results.filterMap FramePoll.data?
      = (results.filterMap Poll.value?).filterMap (fun value => FramePoll.data? (.ready value)) := by
  rw [List.filterMap_filterMap]
  congr 1
  funext result
  cases result <;> rfl

/-- A body that is faithful to its stream: what the polls have answered so far, and what
the body has heard for it. -/
structure Faithful [ToString ε] (recv : RecvStream τ ε) (results : List (FramePoll τ))
    (heard : List (Heard τ ε)) : Prop where
  /-- What was heard are the first answers of the stream. -/
  follows : ∃ rest, Follows recv heard rest
  /-- The polls answer what was heard, and after it that there is nothing more. -/
  answers : ∃ k, results = heard.filterMap Heard.answer ++ List.replicate k (.ready none)
  /-- A poll that ends the body, with nothing more too, has heard the end of the stream. -/
  ended : ∀ result ∈ results, FramePoll.ends result = true →
    ∃ h, heard.getLast? = some h ∧ h.ends = true
  /-- The chunks in their order, then the trailers or the error, then nothing. -/
  frames : ∃ k, results.filterMap Poll.value?
    = (heard.filterMap Heard.delivered).map (fun data => some (.ok (.data data)))
      ++ (heard.filterMap Heard.last).map some ++ List.replicate k none
  /-- No chunk is lost but one that could not be released, the last thing heard. -/
  received : heard.filterMap Heard.received = heard.filterMap Heard.delivered ∨
    ∃ data e, heard.getLast? = some (.chunk data data.length (.error e)) ∧
      heard.filterMap Heard.received = heard.filterMap Heard.delivered ++ [data]
  last : (heard.filterMap Heard.last).length ≤ 1
  fused : ∀ (i j : Nat) (result result' : FramePoll τ), i < j → results[i]? = some result →
    FramePoll.ends result = true → results[j]? = some result' → result' = .ready none
  inOrder : InOrder heard
  released : (heard.filterMap Heard.released).sum
    = ((results.filterMap FramePoll.data?).map List.length).sum

/-- The frames of data are the chunks that were delivered. -/
theorem Told.data?_results [ToString ε] {recv : RecvStream τ ε} {results : List (FramePoll τ)}
    {body : IrohResponseBody τ ε} (htold : Told recv results body) :
    results.filterMap FramePoll.data? = body.heard.filterMap Heard.delivered := by
  rcases htold.yielded with ⟨k, -, hresults⟩
  have hlast : ∀ item ∈ body.heard.filterMap Heard.last,
      FramePoll.data? (.ready (some item)) = none := by
    intro item hitem
    rcases List.mem_filterMap.mp hitem with ⟨h, -, hh⟩
    cases h with
    | chunk data len release =>
        cases release with
        | ok released => simp at hh
        | error e =>
            simp only [Heard.last, Option.some.injEq] at hh
            simp [← hh]
    | dataError | trailers | trailersError =>
        simp only [Heard.last, Option.some.injEq] at hh
        simp [← hh]
    | dataEnd | dataPending | noTrailers | trailersPending => simp at hh
  rw [filterMap_data?, hresults]
  simp only [List.filterMap_append, List.filterMap_map, Function.comp_def]
  rw [List.filterMap_eq_nil_iff.mpr hlast]
  simp

/-- However often a response body is polled, and whatever h2 answers, the polls yield the
chunks of data and then the end of the stream once, as h2 has given it, no method is called
out of its turn, the capacity of the yielded data has been given back, and no poll takes more
than three rounds. -/
theorem response_body_is_faithful [ToString ε] (recv : RecvStream τ ε) (n : Nat) :
    Faithful recv ((IrohResponseBody.new recv).polls n).1
        ((IrohResponseBody.new recv).polls n).2.heard ∧
      ∀ body : IrohResponseBody τ ε, body.loop 3 = some body.pollFrame := by
  have htold := told_polls recv n
  refine ⟨?_, IrohResponseBody.loop_three⟩
  constructor
  case follows =>
    rcases htold.follows with ⟨rest, hrest, -⟩
    exact ⟨rest, hrest⟩
  case frames =>
    rcases htold.yielded with ⟨k, -, hresults⟩
    exact ⟨k, hresults⟩
  case answers =>
    rcases htold.answered with ⟨k, -, hresults⟩
    exact ⟨k, hresults⟩
  case ended =>
    intro result hmem hends
    rcases List.getElem?_of_mem hmem with ⟨i, hi⟩
    have hin : i < n := by
      rcases List.getElem?_eq_some_iff.mp hi with ⟨hlt, -⟩
      rwa [IrohResponseBody.length_polls] at hlt
    exact htold.ended (IrohResponseBody.polls_state_of_ends hi hends hin)
  case received => exact htold.received
  case last => exact htold.last
  case fused =>
    intro i j result result' hij hi hends hj
    exact IrohResponseBody.polls_fused hij hi hends hj
  case inOrder => exact htold.inOrder
  case released => rw [htold.data?_results, htold.released]

end IrohTransport.Client
