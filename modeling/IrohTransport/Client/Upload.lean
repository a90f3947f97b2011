import IrohTransport.Client.Duplex

/-!
# The request body on its stream

{lit}`IrohChannel::call` and {lit}`pump_body` share the work of ending the request stream:
the headers end it for a body that is at its end already, the pump ends it with the
trailers or with an empty frame, and the call resets it when the pump fails.  The module
fixes a body, the sequence of what its polls yield, and says what any run of the call has
handed to the stream.

Main results:

- Theorem {lit}`Call.Stage.step`: the stages of an upload, move by move.
- Theorem {lit}`Call.exists_polling`: a pump that meets no error and no empty data frame
  goes on.
- Theorem {lit}`Call.Stalled.step`: a pump that meets an empty data frame does not.
- Theorem {lit}`request_stream_carries_body`: the stream carries the body exactly if none of
  the data frames that the pump comes to is empty.
-/

namespace IrohTransport.Client

variable {τ ρ ε : Type}

/-! ## Bodies -/

/-- The data of a data frame. -/
def itemData : BodyItem τ → Option (List UInt8)
  | some (.ok (.data data)) => some data
  | _ => none

/-- The frames that the pump goes on after: data, and frames of other kinds. -/
def goesOn : BodyItem τ → Bool
  | some (.ok (.data _)) | some (.ok .other) => true
  | _ => false

/-- What ends the stream at the end of a body or at its trailers. -/
def closing : BodyItem τ → Option (Sent τ)
  | none => some (.data [] true)
  | some (.ok (.trailers trailers)) => some (.trailers trailers)
  | _ => none

/-- The data frames among the first items of a body. -/
def dataFrames (body : Nat → BodyItem τ) (n : Nat) : List (List UInt8) :=
  ((List.range n).map body).filterMap itemData

theorem dataFrames_succ (body : Nat → BodyItem τ) (n : Nat) :
    dataFrames body (n + 1) = dataFrames body n ++ (itemData (body n)).toList := by
  simp only [dataFrames, List.range_succ, List.map_append, List.filterMap_append]
  cases hdata : itemData (body n) <;> simp [hdata]

theorem goesOn_of_closing {item : BodyItem τ} {last : Sent τ} (h : closing item = some last) :
    goesOn item = false := by
  rcases item with _ | _ | _ | _ | _ <;> first | rfl | cases h

theorem closing_ne_reset {item : BodyItem τ} {last : Sent τ} (h : closing item = some last) :
    last ≠ .resetInternalError := by
  rcases item with _ | _ | _ | _ | _ <;> cases h <;> simp

/-- The pump hands the end of the stream to its last send. -/
theorem pumpFrame_of_closing {item : BodyItem τ} {last : Sent τ} (h : closing item = some last)
    (sent : Except ε Unit) : pumpFrame item sent = Pump.ofLast last sent := by
  rcases item with _ | _ | _ | _ | _ <;> cases h <;> rfl

/-- The payload of a DATA frame that does not end the stream. -/
def Sent.payload : Sent τ → Option (List UInt8)
  | .data bytes false => some bytes
  | _ => none

theorem payload_of_closing {item : BodyItem τ} {last : Sent τ} (h : closing item = some last) :
    last.payload = none := by
  rcases item with _ | _ | _ | _ | _ <;> cases h <;> rfl

/-- The headers and these data frames, with the stream still open. -/
def upload (uri : UriParts) (frames : List (List UInt8)) : List (Sent τ) :=
  .headers uri false :: frames.map fun data => .data data false

theorem upload_concat (uri : UriParts) (frames : List (List UInt8)) (data : List UInt8) :
    (upload uri (frames ++ [data]) : List (Sent τ)) = upload uri frames ++ [.data data false] := by
  simp [upload]

theorem reset_notMem_upload (uri : UriParts) (frames : List (List UInt8)) :
    (.resetInternalError : Sent τ) ∉ upload uri frames := by
  simp [upload]

namespace Call

/-- The moves of a call that draws its frames from this body. -/
def Draws (body : Nat → BodyItem τ) (s : Call τ ρ ε) : CallAction τ ρ ε → Prop
  | .frame item _ => item = body s.yielded.length
  | _ => True

/-- The call has nothing more to send. -/
def allSent (s : Call τ ρ ε) : Bool :=
  match s.pc with
  | .awaitResponse | .done _ => true
  | _ => false

/-- A move in which a step of the pump fails, with its error. -/
inductive PumpFails (s : Call τ ρ ε) : CallAction τ ρ ε → CallError ε → Prop
  | body (error : String) (sent : Except ε Unit) : s.pc = .pollFrame →
      PumpFails s (.frame (some (.error error)) sent)
        (.connection ("request body error: " ++ error))
  | last (item : BodyItem τ) (last : Sent τ) (error : ε) : s.pc = .pollFrame →
      closing item = some last → PumpFails s (.frame item (.error error)) (.h2 error)
  | capacity (data : List UInt8) (error : ε) (sent : Except ε Unit) :
      s.pc = .pollCapacity data → PumpFails s (.capacity (some (.error error)) sent) (.h2 error)
  | streamClosed (data : List UInt8) (sent : Except ε Unit) : s.pc = .pollCapacity data →
      PumpFails s (.capacity none sent) (.connection "stream closed while reserving capacity")
  | data (data : List UInt8) (granted : Nat) (error : ε) : s.pc = .pollCapacity data →
      PumpFails s (.capacity (some (.ok granted)) (.error error)) (.h2 error)

/-! ## The stages of an upload -/

/-- How far a call is with its request: what it has sent of the body, and where it is. -/
inductive Stage (body : Nat → BodyItem τ) (bodyIsEmpty : Bool) (s : Call τ ρ ε) : Prop
  | start : s.pc = .start → s.sent = [] → s.yielded = [] → Stage body bodyIsEmpty s
  | refused (error : CallError ε) : s.pc = .done (.error error) → s.sent = [] →
      Stage body bodyIsEmpty s
  | whole (uri : UriParts) : bodyIsEmpty = true → s.allSent = true →
      s.sent = [.headers uri true] → Stage body bodyIsEmpty s
  | polling (uri : UriParts) : bodyIsEmpty = false → s.pc = .pollFrame →
      (∀ i < s.yielded.length, goesOn (body i) = true) →
      s.sent = upload uri (dataFrames body s.yielded.length) → Stage body bodyIsEmpty s
  | reserving (uri : UriParts) (data : List UInt8) (n : Nat) : bodyIsEmpty = false →
      s.pc = .pollCapacity data → s.yielded.length = n + 1 →
      (∀ i < n, goesOn (body i) = true) → body n = some (.ok (.data data)) →
      s.sent = upload uri (dataFrames body n) → Stage body bodyIsEmpty s
  | finished (uri : UriParts) (n : Nat) (last : Sent τ) : bodyIsEmpty = false →
      s.allSent = true → (∀ i < n, goesOn (body i) = true) → closing (body n) = some last →
      s.sent = upload uri (dataFrames body n) ++ [last] → Stage body bodyIsEmpty s
  | failed (uri : UriParts) (n : Nat) (error : CallError ε) : bodyIsEmpty = false →
      s.pc = .done (.error error) → (∀ i < n, goesOn (body i) = true) →
      s.sent = upload uri (dataFrames body n) ++ [.resetInternalError] →
      Stage body bodyIsEmpty s

section Stages

variable {body : Nat → BodyItem τ} {bodyIsEmpty : Bool} {s s' : Call τ ρ ε}
  {fromParts : UriParts → Except String UriParts} {origin : UriParts} {request : Request}

theorem Stage.of_start (h : Stage body bodyIsEmpty s) (hpc : s.pc = .start) :
    s.sent = [] ∧ s.yielded = [] := by
  cases h with
  | start _ hsent hyielded => exact ⟨hsent, hyielded⟩
  | refused _ hdone | polling _ _ hdone | reserving _ _ _ _ hdone | failed _ _ _ _ hdone =>
      rw [hpc] at hdone
      contradiction
  | whole _ _ hall | finished _ _ _ _ hall => simp [allSent, hpc] at hall

theorem Stage.of_pollFrame (h : Stage body bodyIsEmpty s) (hpc : s.pc = .pollFrame) :
    bodyIsEmpty = false ∧ (∀ i < s.yielded.length, goesOn (body i) = true) ∧
      ∃ uri, s.sent = upload uri (dataFrames body s.yielded.length) := by
  cases h with
  | polling uri hbody _ hgoes hsent => exact ⟨hbody, hgoes, uri, hsent⟩
  | start hdone | refused _ hdone | reserving _ _ _ _ hdone | failed _ _ _ _ hdone =>
      rw [hpc] at hdone
      contradiction
  | whole _ _ hall | finished _ _ _ _ hall => simp [allSent, hpc] at hall

theorem Stage.of_pollCapacity (h : Stage body bodyIsEmpty s) {data : List UInt8}
    (hpc : s.pc = .pollCapacity data) :
    bodyIsEmpty = false ∧ ∃ n uri, s.yielded.length = n + 1 ∧
      (∀ i < n, goesOn (body i) = true) ∧ body n = some (.ok (.data data)) ∧
      s.sent = upload uri (dataFrames body n) := by
  cases h with
  | reserving uri data' n hbody hdata hlength hgoes hitem hsent =>
      rw [hpc, Pc.pollCapacity.injEq] at hdata
      exact ⟨hbody, n, uri, hlength, hgoes, hdata ▸ hitem, hsent⟩
  | start hdone | refused _ hdone | polling _ _ hdone | failed _ _ _ _ hdone =>
      rw [hpc] at hdone
      contradiction
  | whole _ _ hall | finished _ _ _ _ hall => simp [allSent, hpc] at hall

/-- A call that awaits its response keeps to its stage, whatever it goes on to. -/
theorem Stage.of_awaitResponse (h : Stage body bodyIsEmpty s) (hpc : s.pc = .awaitResponse)
    (hall : s'.allSent = true) (hsent : s'.sent = s.sent) : Stage body bodyIsEmpty s' := by
  cases h with
  | whole uri hbody _ hwas => exact .whole uri hbody hall (hsent.trans hwas)
  | finished uri n last hbody _ hgoes hlast hwas =>
      exact .finished uri n last hbody hall hgoes hlast (hsent.trans hwas)
  | start hdone | refused _ hdone | polling _ _ hdone | reserving _ _ _ _ hdone
  | failed _ _ _ _ hdone =>
      rw [hpc] at hdone
      contradiction

/-- The stage does not depend on what the peer does. -/
theorem Stage.congr (h : Stage body bodyIsEmpty s) (hpc : s'.pc = s.pc)
    (hsent : s'.sent = s.sent) (hyielded : s'.yielded = s.yielded) :
    Stage body bodyIsEmpty s' := by
  have hall : s'.allSent = s.allSent := by simp only [allSent, hpc]
  cases h with
  | start hstart hnil hnone =>
      exact .start (hpc.trans hstart) (hsent.trans hnil) (hyielded.trans hnone)
  | refused error hdone hnil => exact .refused error (hpc.trans hdone) (hsent.trans hnil)
  | whole uri hbody hwas hheaders =>
      exact .whole uri hbody (hall.trans hwas) (hsent.trans hheaders)
  | polling uri hbody hpoll hgoes hwas =>
      refine .polling uri hbody (hpc.trans hpoll) ?_ ?_
      · rw [hyielded]
        exact hgoes
      · rw [hsent, hyielded]
        exact hwas
  | reserving uri data n hbody hpoll hlength hgoes hitem hwas =>
      exact .reserving uri data n hbody (hpc.trans hpoll) (hyielded ▸ hlength) hgoes hitem
        (hsent.trans hwas)
  | finished uri n last hbody hwas hgoes hlast hwhole =>
      exact .finished uri n last hbody (hall.trans hwas) hgoes hlast (hsent.trans hwhole)
  | failed uri n error hbody hdone hgoes hpart =>
      exact .failed uri n error hbody (hpc.trans hdone) hgoes (hsent.trans hpart)

/-- One more item that the pump goes on after. -/
theorem goesOn_succ {n : Nat} (hgoes : ∀ i < n, goesOn (body i) = true)
    (hitem : goesOn (body n) = true) : ∀ i < n + 1, goesOn (body i) = true := by
  intro i hi
  rcases Nat.lt_succ_iff_lt_or_eq.mp hi with hlt | rfl
  · exact hgoes i hlt
  · exact hitem

/-- The last send of a pump ends the stream, or it fails. -/
theorem Stage.last {item : BodyItem τ} {last : Sent τ} {uri : UriParts}
    (hbody : bodyIsEmpty = false) (hgoes : ∀ i < s.yielded.length, goesOn (body i) = true)
    (hitem : body s.yielded.length = item) (hlast : closing item = some last)
    (hsent : s.sent = upload uri (dataFrames body s.yielded.length)) (sent : Except ε Unit) :
    Stage body bodyIsEmpty
      (pump { s with yielded := s.yielded ++ [item] } (Pump.ofLast last sent)) := by
  cases sent with
  | ok _ =>
      refine .finished uri _ last hbody rfl hgoes (hitem ▸ hlast) ?_
      simp only [pump, Pump.ofLast, hsent]
  | error e =>
      refine .failed uri _ (.h2 e) hbody rfl hgoes ?_
      simp only [pump, Pump.ofLast, hsent]

/-- A half turn of the pump with the next item of the body. -/
theorem Stage.frame (h : Stage body bodyIsEmpty s) (hpc : s.pc = .pollFrame)
    (sent : Except ε Unit) :
    Stage body bodyIsEmpty
      (pump { s with yielded := s.yielded ++ [body s.yielded.length] }
        (pumpFrame (body s.yielded.length) sent)) := by
  rcases h.of_pollFrame hpc with ⟨hbody, hgoes, uri, hsent⟩
  cases hitem : body s.yielded.length with
  | none => exact Stage.last hbody hgoes hitem rfl hsent sent
  | some result =>
      cases result with
      | error e =>
          refine .failed uri _ _ hbody rfl hgoes ?_
          simp only [pump, pumpFrame, hsent]
      | ok frame =>
          cases frame with
          | trailers t => exact Stage.last hbody hgoes hitem rfl hsent sent
          | data data =>
              refine .reserving uri data s.yielded.length hbody rfl ?_ hgoes hitem hsent
              simp [pump, pumpFrame]
          | other =>
              have hlength : ∀ item, (s.yielded ++ [item]).length = s.yielded.length + 1 := by simp
              refine .polling uri hbody rfl ?_ ?_
              · simp only [pump, pumpFrame, hlength]
                exact goesOn_succ hgoes (by rw [hitem]; rfl)
              · simp only [pump, pumpFrame, hlength, dataFrames_succ, hitem, itemData, hsent,
                  Option.toList_none, List.append_nil]

/-- A half turn of the pump with the capacity for a data frame. -/
theorem Stage.capacity (h : Stage body bodyIsEmpty s) {data : List UInt8}
    (hpc : s.pc = .pollCapacity data) (capacity : Option (Except ε Nat))
    (sent : Except ε Unit) :
    Stage body bodyIsEmpty (s.pump (pumpCapacity data capacity sent)) := by
  rcases h.of_pollCapacity hpc with ⟨hbody, n, uri, hlength, hgoes, hitem, hsent⟩
  have hfailed : ∀ error, Stage body bodyIsEmpty (s.pump (.failed error)) := by
    intro error
    refine .failed uri n error hbody rfl hgoes ?_
    simp only [pump, hsent]
  rcases capacity with _ | e | granted
  · exact hfailed _
  · exact hfailed _
  · cases sent with
    | error e => exact hfailed _
    | ok _ =>
        refine .polling uri hbody rfl ?_ ?_
        · simp only [pump, pumpCapacity, hlength]
          exact goesOn_succ hgoes (by rw [hitem]; rfl)
        · simp only [pump, pumpCapacity, hlength, dataFrames_succ, hitem, itemData,
            Option.toList_some, upload_concat, hsent]

/-- Every move of a call that draws from its body keeps to the stages. -/
theorem Stage.step {action : CallAction τ ρ ε} (h : Stage body request.bodyIsEmpty s)
    (hdraws : s.Draws body action) (hstep : Step fromParts origin request s action s') :
    Stage body request.bodyIsEmpty s' := by
  cases hstep with
  | sendRequest sent hpc =>
      rcases h.of_start hpc with ⟨hsent, hyielded⟩
      cases applyOrigin fromParts request.uri origin with
      | error e => exact .refused e rfl hsent
      | ok uri =>
          cases sent with
          | error e => exact .refused (.h2 e) rfl hsent
          | ok _ =>
              cases hbody : request.bodyIsEmpty with
              | true => exact .whole uri rfl rfl (by simp [sendRequest, hsent])
              | false =>
                  refine .polling uri rfl rfl ?_ ?_
                  · simp [sendRequest, hyielded]
                  · simp [sendRequest, hyielded, hsent, upload, dataFrames]
  | frame item sent hpc =>
      obtain rfl : item = body s.yielded.length := hdraws
      exact h.frame hpc sent
  | capacity data capacity sent hpc => exact h.capacity hpc capacity sent
  | pollResponse response hpc | failResponse error hpc => exact h.of_awaitResponse hpc rfl rfl
  | respond | reset => exact h.congr rfl rfl rfl

/-! ## A pump that fails -/

theorem PumpFails.pumping {action : CallAction τ ρ ε} {error : CallError ε}
    (hfails : PumpFails s action error) : s.pumping = true := by
  cases hfails with
  | body _ _ hpc | last _ _ _ hpc | capacity _ _ _ hpc | streamClosed _ _ hpc
  | data _ _ _ hpc => simp [Call.pumping, hpc]

/-- The stream has not been reset while the body is pumped. -/
theorem Stage.reset_notMem (h : Stage body bodyIsEmpty s) (hpumping : s.pumping = true) :
    .resetInternalError ∉ s.sent := by
  cases h with
  | polling uri _ _ _ hsent | reserving uri _ _ _ _ _ _ _ hsent =>
      rw [hsent]
      exact reset_notMem_upload uri _
  | start hpc | refused _ hpc | failed _ _ _ _ hpc => simp [pumping, hpc] at hpumping
  | whole _ _ hall | finished _ _ _ _ hall =>
      cases hpc : s.pc <;> simp [pumping, allSent, hpc] at hpumping hall

/-- A move that fails resets the stream and returns its error. -/
theorem PumpFails.step {action : CallAction τ ρ ε} {error : CallError ε}
    (hfails : PumpFails s action error) (hstep : Step fromParts origin request s action s') :
    s'.pc = .done (.error error) ∧ s'.sent = s.sent ++ [.resetInternalError] := by
  cases hfails with
  | body | capacity | streamClosed | data =>
      cases hstep
      exact ⟨rfl, rfl⟩
  | last item last e hpc hlast =>
      cases hstep
      rw [pumpFrame_of_closing hlast]
      exact ⟨rfl, rfl⟩

/-- Only a move that fails resets the stream. -/
theorem pumpFails_of_reset {action : CallAction τ ρ ε}
    (hstep : Step fromParts origin request s action s')
    (hwas : .resetInternalError ∉ s.sent) (hreset : .resetInternalError ∈ s'.sent) :
    ∃ error, PumpFails s action error := by
  cases hstep with
  | sendRequest sent hpc =>
      exfalso
      revert hreset
      cases applyOrigin fromParts request.uri origin with
      | error e => exact hwas
      | ok uri => cases sent <;> simp [sendRequest, hwas]
  | frame item sent hpc =>
      cases hlast : closing item with
      | some last =>
          cases sent with
          | error e => exact ⟨_, .last item last e hpc hlast⟩
          | ok _ =>
              rw [pumpFrame_of_closing hlast] at hreset
              have hne : last ≠ .resetInternalError := closing_ne_reset hlast
              simp [Pump.ofLast, pump, hwas, hne.symm] at hreset
      | none =>
          rcases item with _ | e | data | t | _
          · cases hlast
          · exact ⟨_, .body e sent hpc⟩
          · exact (hwas hreset).elim
          · cases hlast
          · exact (hwas hreset).elim
  | capacity data capacity sent hpc =>
      rcases capacity with _ | e | granted
      · exact ⟨_, .streamClosed data sent hpc⟩
      · exact ⟨_, .capacity data e sent hpc⟩
      · cases sent with
        | error e => exact ⟨_, .data data granted e hpc⟩
        | ok _ => simp [pump, pumpCapacity, hwas] at hreset
  | pollResponse | failResponse | respond | reset => exact (hwas hreset).elim

/-- Nothing moves once the call has returned. -/
theorem eq_of_reaches_of_done {result : Except (CallError ε) ρ} (hdone : s.pc = .done result)
    (h : (channel fromParts origin request).Reaches s s') : s' = s := by
  induction h with
  | refl => rfl
  | tail _ hnext ih =>
      subst ih
      rcases hnext with ⟨action, haction⟩
      cases step_sound haction with
      | sendRequest _ hpc | frame _ _ hpc | capacity _ _ _ hpc | pollResponse _ hpc
      | failResponse _ hpc =>
          rw [hdone] at hpc
          contradiction
      | respond _ hstream | reset hstream => simp [onStream, hdone] at hstream

/-! ## A pump that meets no error -/

/-- The moves that h2 can come to.  {lit}`poll_capacity` is ready when the capacity of the stream
has increased; to reserve nothing increases nothing, and a stream that was reset gets none. -/
def Possible (s : Call τ ρ ε) : CallAction τ ρ ε → Prop
  | .capacity (some (.ok _)) _ => s.pc ≠ .pollCapacity [] ∧ s.peerReset = false
  | _ => True

/-- The moves of a call that draws its frames from this body, as far as h2 can come to them. -/
def Moves (body : Nat → BodyItem τ) (s : Call τ ρ ε) (action : CallAction τ ρ ε) : Prop :=
  s.Draws body action ∧ s.Possible action

theorem step_frame (fromParts : UriParts → Except String UriParts) (origin : UriParts)
    (request : Request) (item : BodyItem τ) (hpc : s.pc = .pollFrame) :
    (channel fromParts origin request).step s (.frame item (.ok ()))
      = some (pump { s with yielded := s.yielded ++ [item] } (pumpFrame item (.ok ()))) := by
  simp only [channel, step, hpc]

theorem step_capacity (fromParts : UriParts → Except String UriParts) (origin : UriParts)
    (request : Request) {data : List UInt8} (hpc : s.pc = .pollCapacity data) :
    (channel fromParts origin request).step s (.capacity (some (.ok data.length)) (.ok ()))
      = some (s.pump (.next data)) := by
  simp only [channel, step, hpc]
  rfl

/-- A turn of the pump for an item that it goes on after, and that is no empty data frame. -/
theorem exists_turn (fromParts : UriParts → Except String UriParts) (origin : UriParts)
    (request : Request) (hitem : goesOn (body s.yielded.length) = true)
    (hfull : body s.yielded.length ≠ some (.ok (.data []))) (hpc : s.pc = .pollFrame)
    (hopen : s.peerReset = false) :
    ∃ s', (channel fromParts origin request).ReachesWhen (Moves body) s s' ∧
      s'.pc = .pollFrame ∧ s'.yielded.length = s.yielded.length + 1 ∧ s'.peerReset = false := by
  have hframe := step_frame fromParts origin request (body s.yielded.length) hpc
  have hmoves : s.Moves body (.frame (body s.yielded.length) (.ok ())) := ⟨rfl, trivial⟩
  rcases hbody : body s.yielded.length with _ | e | data | t | _
  · simp [hbody, goesOn] at hitem
  · simp [hbody, goesOn] at hitem
  · rw [hbody] at hframe hmoves hfull
    let reserved : Call τ ρ ε :=
      { s with pc := .pollCapacity data, yielded := s.yielded ++ [some (.ok (.data data))] }
    have hcapacity := step_capacity fromParts origin request (s := reserved) rfl
    have hpossible : reserved.Moves body (.capacity (some (.ok data.length)) (.ok ())) := by
      refine ⟨trivial, ?_, hopen⟩
      simpa [reserved] using hfull
    exact ⟨_, .tail (.single ⟨_, hmoves, hframe⟩) ⟨_, hpossible, hcapacity⟩, rfl,
      by simp [pump, reserved], hopen⟩
  · simp [hbody, goesOn] at hitem
  · rw [hbody] at hframe hmoves
    exact ⟨_, .single ⟨_, hmoves, hframe⟩, rfl, by simp [pump, pumpFrame], hopen⟩

/-- A pump that meets no error and no empty data frame comes to any item that it goes on to. -/
theorem exists_polling (fromParts : UriParts → Except String UriParts) (origin : UriParts)
    (request : Request) {n : Nat} (hgoes : ∀ i < n, goesOn (body i) = true)
    (hfull : ∀ i < n, body i ≠ some (.ok (.data []))) (hpc : s.pc = .pollFrame)
    (hopen : s.peerReset = false) (hle : s.yielded.length ≤ n) :
    ∃ s', (channel fromParts origin request).ReachesWhen (Moves body) s s' ∧
      s'.pc = .pollFrame ∧ s'.yielded.length = n := by
  -- The induction is on the number of items that the body has yet to yield.
  induction hrest : n - s.yielded.length generalizing s with
  | zero => exact ⟨s, .refl, hpc, by omega⟩
  | succ rest ih =>
      have hlt : s.yielded.length < n := by omega
      obtain ⟨t, hturn, hpc', hlength, hopen'⟩ :=
        exists_turn fromParts origin request (hgoes _ hlt) (hfull _ hlt) hpc hopen
      obtain ⟨s', hs', hend⟩ := ih hpc' hopen' (by omega) (by omega)
      exact ⟨s', hturn.trans hs', hend⟩

/-- One more poll of the body: the pump draws the item, and ends if the item is the last. -/
theorem exists_drawn (fromParts : UriParts → Except String UriParts) (origin : UriParts)
    (request : Request) {n : Nat} (hgoes : ∀ i < n, goesOn (body i) = true)
    (hfull : ∀ i < n, body i ≠ some (.ok (.data []))) (hpc : s.pc = .pollFrame)
    (hopen : s.peerReset = false) (hle : s.yielded.length ≤ n) :
    ∃ s', (channel fromParts origin request).ReachesWhen (Moves body) s s' ∧
      n < s'.yielded.length ∧ ((closing (body n)).isSome = true → s'.pc = .awaitResponse) := by
  obtain ⟨t, ht, hpoll, hlength⟩ :=
    exists_polling fromParts origin request hgoes hfull hpc hopen hle
  have hframe := step_frame fromParts origin request (body n) hpoll
  have hdraws : t.Draws body (.frame (body n) (.ok ())) := by rw [← hlength]; rfl
  refine ⟨_, ht.tail ⟨_, ⟨hdraws, trivial⟩, hframe⟩, ?_, ?_⟩
  · cases hturn : (pumpFrame (body n) (.ok ()) : Pump τ ε) <;> simp [pump, hlength]
  · intro hlast
    obtain ⟨last, hlast⟩ := Option.isSome_iff_exists.mp hlast
    rw [pumpFrame_of_closing hlast]
    rfl

/-- The items before the end of a body are all that a pump goes on after. -/
theorem le_of_goesOn {n m : Nat} {last : Sent τ} (hlast : closing (body n) = some last)
    (hgoes : ∀ i < m, goesOn (body i) = true) : m ≤ n := by
  refine Nat.le_of_not_lt fun hlt => ?_
  have htrue := hgoes n hlt
  rw [goesOn_of_closing hlast] at htrue
  contradiction

theorem Stage.yielded_le (h : Stage body bodyIsEmpty s) {n : Nat} {last : Sent τ}
    (hlast : closing (body n) = some last) (hpumping : s.pumping = true) :
    s.yielded.length ≤ n := by
  cases hpc : s.pc with
  | pollFrame => exact le_of_goesOn hlast (h.of_pollFrame hpc).2.1
  | pollCapacity data =>
      rcases h.of_pollCapacity hpc with ⟨-, m, uri, hlength, hgone, hitem, -⟩
      rw [hlength]
      exact le_of_goesOn hlast (goesOn_succ hgone (by rw [hitem]; rfl))
  | start | awaitResponse | done => simp [pumping, hpc] at hpumping

/-- Of the frames that the pump comes to, none is an empty data frame. -/
def NoEmptyFrame (body : Nat → BodyItem τ) : Prop :=
  ∀ n, (∀ i < n, goesOn (body i) = true) → body n ≠ some (.ok (.data []))

theorem NoEmptyFrame.before (hfull : NoEmptyFrame body) {n : Nat}
    (hgoes : ∀ i < n, goesOn (body i) = true) : ∀ i < n, body i ≠ some (.ok (.data [])) :=
  fun i hi => hfull i fun j hj => hgoes j (Nat.lt_trans hj hi)

/-- A pump that meets no error draws any item that it goes on to, wherever it is. -/
theorem Stage.exists_drawn (hstage : Stage body bodyIsEmpty s) (hfull : NoEmptyFrame body)
    (hpumping : s.pumping = true) (hopen : s.peerReset = false) {n : Nat}
    (hgoes : ∀ i < n, goesOn (body i) = true) (hle : s.yielded.length ≤ n) :
    ∃ s', (channel fromParts origin request).ReachesWhen (Moves body) s s' ∧
      n < s'.yielded.length ∧ ((closing (body n)).isSome = true → s'.pc = .awaitResponse) := by
  cases hpc : s.pc with
  | pollFrame =>
      exact Call.exists_drawn fromParts origin request hgoes (hfull.before hgoes) hpc hopen hle
  | pollCapacity data =>
      rcases hstage.of_pollCapacity hpc with ⟨-, m, uri, -, hgone, hitem, -⟩
      have hdata : data ≠ [] := fun hnil => hfull m hgone (hnil ▸ hitem)
      have hnext := step_capacity fromParts origin request hpc
      obtain ⟨s', hs', hdrawn⟩ := Call.exists_drawn fromParts origin request
        (s := s.pump (.next data)) hgoes (hfull.before hgoes) rfl hopen hle
      have hpossible : s.Possible (.capacity (some (.ok data.length)) (.ok ())) := by
        refine ⟨?_, hopen⟩
        rw [hpc]
        exact fun heq => hdata (Pc.pollCapacity.inj heq)
      have hmoves : s.Moves body (.capacity (some (.ok data.length)) (.ok ())) :=
        ⟨trivial, hpossible⟩
      exact ⟨s', .head ⟨_, hmoves, hnext⟩ hs', hdrawn⟩
  | start | awaitResponse | done => simp [pumping, hpc] at hpumping

/-! ## A pump that meets an empty frame -/

/-- The call has not come to the item at {lit}`n` yet, or it waits for the capacity for that
empty frame, or it has failed there. -/
def Stalled (n : Nat) (s : Call τ ρ ε) : Prop :=
  s.yielded.length ≤ n ∨
    s.yielded.length = n + 1 ∧ (s.pc = .pollCapacity [] ∨ ∃ error, s.pc = .done (.error error))

/-- It has not come to the item where it neither waits for capacity nor has returned. -/
theorem Stalled.yielded_le {n : Nat} (h : s.Stalled n) (hwaits : ∀ data, s.pc ≠ .pollCapacity data)
    (hreturned : ∀ result, s.pc ≠ .done result) : s.yielded.length ≤ n := by
  rcases h with hle | ⟨-, hpc | ⟨error, hpc⟩⟩
  · exact hle
  · exact (hwaits _ hpc).elim
  · exact (hreturned _ hpc).elim

/-- The call never comes past an empty frame. -/
theorem Stalled.step {n : Nat} (hitem : body n = some (.ok (.data [])))
    {action : CallAction τ ρ ε} (h : s.Stalled n) (hmoves : s.Moves body action)
    (hstep : Step fromParts origin request s action s') : s'.Stalled n := by
  rcases hmoves with ⟨hdraws, hpossible⟩
  cases hstep with
  | sendRequest sent hpc =>
      have hle := h.yielded_le (by simp [hpc]) (by simp [hpc])
      left
      cases applyOrigin fromParts request.uri origin <;> cases sent <;> exact hle
  | frame item sent hpc =>
      obtain rfl : item = body s.yielded.length := hdraws
      rcases Nat.lt_or_eq_of_le (h.yielded_le (by simp [hpc]) (by simp [hpc])) with hlt | rfl
      · left
        cases (pumpFrame (body s.yielded.length) sent : Pump τ ε) <;> simp [pump] <;> omega
      · right
        rw [hitem]
        exact ⟨by simp [pump, pumpFrame], .inl rfl⟩
  | capacity data capacity sent hpc =>
      rcases h with hle | ⟨hlength, hwaits | ⟨_, hfailed⟩⟩
      · left
        cases (pumpCapacity data capacity sent : Pump τ ε) <;> exact hle
      · obtain rfl : data = [] := Pc.pollCapacity.inj (hpc.symm.trans hwaits)
        -- Capacity for nothing does not come: the reservation can only fail.
        rcases capacity with _ | e | granted
        · exact .inr ⟨hlength, .inr ⟨_, rfl⟩⟩
        · exact .inr ⟨hlength, .inr ⟨_, rfl⟩⟩
        · exact (hpossible.1 hpc).elim
      · simp [hpc] at hfailed
  | pollResponse response hpc | failResponse error hpc =>
      exact .inl (h.yielded_le (by simp [hpc]) (by simp [hpc]))
  | respond | reset => exact h

/-! ## What the stream carries -/

/-- What a call has sent of the body's data frames is a prefix of them. -/
theorem Stage.sent_in_order (h : Stage body bodyIsEmpty s) :
    s.sent = [] ∨ ∃ uri rest n, s.sent = .headers uri bodyIsEmpty :: rest ∧
      rest.filterMap Sent.payload <+: dataFrames body n := by
  have hpayload : ∀ frames : List (List UInt8),
      (frames.map fun data => (.data data false : Sent τ)).filterMap Sent.payload = frames := by
    intro frames
    simp [List.filterMap_map, Function.comp_def, Sent.payload]
  cases h with
  | start _ hsent | refused _ _ hsent => exact .inl hsent
  | whole uri hbody _ hsent =>
      subst hbody
      exact .inr ⟨uri, [], 0, hsent, List.nil_prefix⟩
  | polling uri hbody _ _ hsent =>
      subst hbody
      refine .inr ⟨uri, _, s.yielded.length, hsent, ?_⟩
      simp [hpayload]
  | reserving uri _ n hbody _ _ _ _ hsent =>
      subst hbody
      refine .inr ⟨uri, _, n, hsent, ?_⟩
      simp [hpayload]
  | finished uri n last hbody _ _ hlast hsent =>
      subst hbody
      refine .inr ⟨uri, _, n, hsent, ?_⟩
      have hnone : Sent.payload last = none := payload_of_closing hlast
      simp [hpayload, hnone]
  | failed uri n _ hbody _ _ hsent =>
      subst hbody
      refine .inr ⟨uri, _, n, hsent, ?_⟩
      have hnone : Sent.payload (.resetInternalError : Sent τ) = none := rfl
      simp [hpayload, hnone]

/-- A call that has sent its headers, is not in the pump and has not reset the stream has
sent the whole body and closed the stream. -/
theorem Stage.sent_whole (h : Stage body bodyIsEmpty s)
    (hempty : bodyIsEmpty = true → body 0 = none) (hsent : s.sent ≠ [])
    (hpumping : s.pumping = false) (hreset : .resetInternalError ∉ s.sent) :
    ∃ uri n last, (∀ i < n, goesOn (body i) = true) ∧ closing (body n) = some last ∧
      s.sent = if bodyIsEmpty then [.headers uri true]
        else upload uri (dataFrames body n) ++ [last] := by
  cases h with
  | start _ hnil | refused _ _ hnil => exact (hsent hnil).elim
  | whole uri hbody _ hheaders =>
      refine ⟨uri, 0, .data [] true, by simp, ?_, ?_⟩
      · rw [hempty hbody]
        rfl
      · rw [hbody, if_pos rfl]
        exact hheaders
  | polling _ _ hpc | reserving _ _ _ _ hpc => simp [pumping, hpc] at hpumping
  | finished uri n last hbody _ hgoes hlast hall =>
      refine ⟨uri, n, last, hgoes, hlast, ?_⟩
      rw [hbody, if_neg Bool.false_ne_true]
      exact hall
  | failed _ _ _ _ _ _ hall => simp [hall] at hreset

end Stages

end Call

open Call

/-- The stages of an upload are all that a call goes through. -/
theorem stage_of_reachable {fromParts : UriParts → Except String UriParts} {origin : UriParts}
    {request : Request} {body : Nat → BodyItem τ} {s : Call τ ρ ε}
    (hs : (channel fromParts origin request).ReachableWhen (Draws body) s) :
    Stage body request.bodyIsEmpty s := by
  apply hs.invariant
  · exact .start rfl rfl rfl
  · intro s s' action _ hstage hdraws hnext
    exact hstage.step hdraws (step_sound hnext)

/-- A call that pumps its body has a URI that was accepted. -/
theorem accepted_of_pumping {fromParts : UriParts → Except String UriParts} {origin : UriParts}
    {request : Request} {body : Nat → BodyItem τ} {s : Call τ ρ ε}
    (hs : (channel fromParts origin request).ReachableWhen (Draws body) s)
    (hpumping : s.pumping = true) :
    ∃ uri, applyOrigin (ε := ε) fromParts request.uri origin = .ok uri := by
  refine hs.invariant (I := fun s => s.pumping = true →
    ∃ uri, applyOrigin (ε := ε) fromParts request.uri origin = .ok uri) ?_ ?_ hpumping
  · intro hinit
    exact absurd hinit Bool.false_ne_true
  · intro s s' action _ haccepted _ hnext hpumping
    cases step_sound hnext with
    | sendRequest sent _ =>
        cases huri : applyOrigin (ε := ε) fromParts request.uri origin with
        | error e => simp [sendRequest, huri, pumping] at hpumping
        | ok uri => exact ⟨uri, rfl⟩
    | frame _ _ hpc | capacity _ _ _ hpc => exact haccepted (by simp [pumping, hpc])
    | pollResponse | failResponse => simp [pumping] at hpumping
    | respond | reset => exact haccepted hpumping

/-- Every run of a call with this body carries the body, or what there is of it when it fails. -/
structure CarriesBody (ρ ε : Type) (fromParts : UriParts → Except String UriParts)
    (origin : UriParts) (request : Request) (body : Nat → BodyItem τ) : Prop where
  /-- The data sent after the headers is a prefix of the body's data frames. -/
  sent_in_order {s : Call τ ρ ε} :
    (channel fromParts origin request).ReachableWhen (Draws body) s →
    s.sent = [] ∨ ∃ uri rest n, s.sent = .headers uri request.bodyIsEmpty :: rest ∧
      rest.filterMap Sent.payload <+: dataFrames body n
  /-- Once the pump is over without a failure, the stream carries the data frames up to the
  first trailers or the end, and one end of stream after them. -/
  sent_whole {s : Call τ ρ ε} :
    (channel fromParts origin request).ReachableWhen (Draws body) s →
    s.sent ≠ [] → s.pumping = false → .resetInternalError ∉ s.sent →
    ∃ uri n last, (∀ i < n, goesOn (body i) = true) ∧ closing (body n) = some last ∧
      s.sent = if request.bodyIsEmpty then [.headers uri true]
        else upload uri (dataFrames body n) ++ [last]
  /-- A step of the pump that fails, and no other move, resets the stream; the call returns
  the error and nothing more is sent. -/
  failure {s s' : Call τ ρ ε} {action : CallAction τ ρ ε} :
    (channel fromParts origin request).ReachableWhen (Draws body) s →
    s.step fromParts origin request action = some s' →
    (∀ error, PumpFails s action error →
      .resetInternalError ∉ s.sent ∧ s'.sent = s.sent ++ [.resetInternalError] ∧
        s'.pc = .done (.error error) ∧
        ∀ t, (channel fromParts origin request).Reaches s' t → t = s') ∧
    (.resetInternalError ∉ s.sent → .resetInternalError ∈ s'.sent →
      ∃ error, PumpFails s action error)
  /-- A pump that meets no error draws every item up to the first that ends it. -/
  draws {s : Call τ ρ ε} :
    (channel fromParts origin request).ReachableWhen (Draws body) s →
    s.pumping = true → s.peerReset = false →
    ∀ n, (∀ i < n, goesOn (body i) = true) →
      ∃ s', (channel fromParts origin request).ReachesWhen (Moves body) s s' ∧
        n < s'.yielded.length
  /-- A pump that meets no error ends with its body. -/
  ends {s : Call τ ρ ε} :
    (channel fromParts origin request).ReachableWhen (Draws body) s →
    s.pumping = true → s.peerReset = false →
    ∀ n last, (∀ i < n, goesOn (body i) = true) → closing (body n) = some last →
      ∃ s', (channel fromParts origin request).ReachesWhen (Moves body) s s' ∧
        s'.pc = .awaitResponse

section CarriesBody

variable {fromParts : UriParts → Except String UriParts} {origin : UriParts}
  {request : Request} {body : Nat → BodyItem τ}

/-- A body without empty frames is carried. -/
theorem carriesBody_of_noEmptyFrame
    (hempty : request.bodyIsEmpty = true → body 0 = none)
    (hfull : (∃ uri, applyOrigin (ε := ε) fromParts request.uri origin = .ok uri) →
      NoEmptyFrame body) : CarriesBody ρ ε fromParts origin request body where
  sent_in_order hs := (stage_of_reachable hs).sent_in_order
  sent_whole hs := (stage_of_reachable hs).sent_whole hempty
  failure hs hnext := by
    have hstep := step_sound hnext
    refine ⟨?_, pumpFails_of_reset hstep⟩
    intro error hfails
    rcases hfails.step hstep with ⟨hdone, hsent⟩
    refine ⟨(stage_of_reachable hs).reset_notMem hfails.pumping, hsent, hdone, ?_⟩
    intro t ht
    exact eq_of_reaches_of_done hdone ht
  draws {s} hs hpumping hopen n hgoes := by
    rcases Nat.lt_or_ge n s.yielded.length with hlt | hle
    · exact ⟨s, .refl, hlt⟩
    · obtain ⟨s', hs', hdrawn, -⟩ := (stage_of_reachable hs).exists_drawn
        (hfull (accepted_of_pumping hs hpumping)) hpumping hopen hgoes hle
      exact ⟨s', hs', hdrawn⟩
  ends hs hpumping hopen n last hgoes hlast := by
    have hstage := stage_of_reachable hs
    obtain ⟨s', hs', -, hends⟩ := hstage.exists_drawn
      (hfull (accepted_of_pumping hs hpumping)) hpumping hopen hgoes
      (hstage.yielded_le hlast hpumping)
    exact ⟨s', hs', hends (by rw [hlast]; rfl)⟩

/-- A body with an empty frame among those that the pump comes to is not carried: the call
waits for capacity for it, for ever. -/
theorem not_carriesBody {n : Nat} {uri : UriParts}
    (hempty : request.bodyIsEmpty = true → body 0 = none)
    (huri : applyOrigin (ε := ε) fromParts request.uri origin = .ok uri)
    (hgoes : ∀ i < n, goesOn (body i) = true) (hitem : body n = some (.ok (.data []))) :
    ¬CarriesBody ρ ε fromParts origin request body := by
  intro hcarries
  have hbody : request.bodyIsEmpty = false := by
    rw [Bool.eq_false_iff]
    intro htrue
    have hnone := hempty htrue
    cases n with
    | zero => simp [hitem] at hnone
    | succ n =>
        have hgone := hgoes 0 (Nat.succ_pos n)
        simp [hnone, goesOn] at hgone
  let polling : Call τ ρ ε :=
    { (Call.initial : Call τ ρ ε) with pc := .pollFrame, sent := [.headers uri false] }
  have hheaders : (channel fromParts origin request).step (.initial : Call τ ρ ε)
      (.sendRequest (.ok ())) = some polling := by
    simp only [channel, step, initial, sendRequest, huri, hbody]
    rfl
  have hpolling : (channel fromParts origin request).ReachableWhen (Draws body) polling :=
    .step (a := .sendRequest (.ok ())) .init trivial hheaders
  obtain ⟨s', hs', hdrawn⟩ := hcarries.draws hpolling rfl rfl (n + 1)
    (goesOn_succ hgoes (by rw [hitem]; rfl))
  have hstalled : s'.Stalled n := System.ReachesWhen.invariant hs' (.inl (Nat.zero_le n))
    fun _ _ _ h hmoves hnext => h.step hitem hmoves (step_sound hnext)
  rcases hstalled with hle | ⟨hlength, -⟩ <;> omega

end CarriesBody

/-- The stream of a request carries its body exactly if no data frame that the pump comes to is
empty: capacity for nothing is never granted, so after an empty frame nothing more is sent,
the end of the stream included, and no error is returned. -/
theorem request_stream_carries_body (fromParts : UriParts → Except String UriParts)
    (origin : UriParts) (request : Request) (body : Nat → BodyItem τ)
    (hempty : request.bodyIsEmpty = true → body 0 = none) :
    CarriesBody ρ ε fromParts origin request body ↔
      ((∃ uri, applyOrigin (ε := ε) fromParts request.uri origin = .ok uri) →
        NoEmptyFrame body) := by
  refine ⟨?_, carriesBody_of_noEmptyFrame hempty⟩
  rintro hcarries ⟨uri, huri⟩ n hgoes hitem
  exact not_carriesBody hempty huri hgoes hitem hcarries

/-- A body with data, a frame of another kind, trailers, and more data after them. -/
def trailingBody : Nat → BodyItem Unit
  | 0 => some (.ok (.data [1]))
  | 1 => some (.ok .other)
  | 2 => some (.ok (.trailers ()))
  | _ => some (.ok (.data []))

/-- Such a body is carried up to its trailers, whatever comes after them. -/
theorem request_stream_carries_body_trailers :
    CarriesBody Nat String .ok pooledOrigin streamingRequest trailingBody := by
  refine (request_stream_carries_body .ok pooledOrigin streamingRequest trailingBody nofun).mpr ?_
  rintro - n hgoes hitem
  match n with
  | 0 | 1 | 2 => simp [trailingBody] at hitem
  | n + 3 => exact absurd (hgoes 2 (by omega)) Bool.false_ne_true

/-- A body of one empty data frame. -/
def emptyFrameBody : Nat → BodyItem Unit
  | 0 => some (.ok (.data []))
  | _ => none

/-- The end of such a body is never sent, although nothing fails. -/
theorem empty_frame_is_not_carried :
    ¬CarriesBody Nat String .ok pooledOrigin streamingRequest emptyFrameBody :=
  not_carriesBody (n := 0) nofun rfl (by simp) rfl

end IrohTransport.Client
