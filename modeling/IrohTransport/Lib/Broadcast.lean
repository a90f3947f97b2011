import IrohTransport.Lib.Merge

/-!
# Broadcast channels

A channel with many senders and many receivers, each of which gets every value that is
sent after it has subscribed.  The channel retains a fixed number of values.  A receiver
that has more than these left to read is told how many it has missed, and goes on with the
oldest value that is left.

Main results:

- Theorem {lit}`Broadcast.Heard.poll`: values and gaps of a receiver account for all that was
  sent since it subscribed, in this order.
- Theorem {lit}`Broadcast.read_of_poll`: a receiver that goes on polling gets what
  {lit}`Broadcast.read` says.
- Theorem {lit}`Broadcast.values_read`: these are the last values that it has not read, as many
  as the channel retains.
-/

namespace IrohTransport

/-- The values a channel retains and the number of all values that were sent. -/
structure Broadcast (α : Type) (capacity : Nat) where
  retained : List α
  tail : Nat
  length_retained : retained.length = min tail capacity

namespace Broadcast

variable {α : Type} {capacity : Nat}

def empty : Broadcast α capacity where
  retained := []
  tail := 0
  length_retained := (Nat.zero_min capacity).symm

/-- The position of the oldest value that is left. -/
def oldest (self : Broadcast α capacity) : Nat := self.tail - capacity

/-- Retain one more value, if need be instead of the oldest. -/
def push (self : Broadcast α capacity) (a : α) : Broadcast α capacity where
  retained := (self.retained ++ [a]).drop (self.retained.length + 1 - capacity)
  tail := self.tail + 1
  length_retained := by
    have hlength := self.length_retained
    simp only [List.length_drop, List.length_append, List.length_singleton]
    omega

/-- Send a value, which fails if there is no receiver. -/
def send (receivers : Nat) (self : Broadcast α capacity) (a : α) : Option (Broadcast α capacity) :=
  if receivers = 0 then none else some (self.push a)

/-- A new receiver reads from the tail on. -/
def subscribe (self : Broadcast α capacity) : Nat := self.tail

/-- What a receiver gets that reads at a position, and where it reads next: a value, the number
of values it has missed, or at the tail nothing as long as there are senders. -/
def poll (senders : Nat) (self : Broadcast α capacity) (next : Nat) :
    Poll (Option (Except Nat α)) × Nat :=
  if next < self.oldest then (.ready (some (.error (self.oldest - next))), self.oldest)
  else
    match self.retained[next - self.oldest]? with
    | some a => (.ready (some (.ok a)), next + 1)
    | none => (if senders = 0 then .ready none else .pending, next)

/-! ## The values that were sent -/

/-- A channel over which these values were sent. -/
structure Holds (channel : Broadcast α capacity) (sent : List α) : Prop where
  tail_eq : channel.tail = sent.length
  retained_eq : channel.retained = sent.drop channel.oldest

variable {self : Broadcast α capacity} {sent : List α}

theorem holds_empty : (empty : Broadcast α capacity).Holds [] := ⟨rfl, List.drop_nil.symm⟩

theorem Holds.push (h : self.Holds sent) (a : α) : (self.push a).Holds (sent ++ [a]) := by
  constructor
  · rw [List.length_append, ← h.tail_eq]
    rfl
  · have hlength := self.length_retained
    have htail := h.tail_eq
    have holdest : self.oldest ≤ sent.length := by
      rw [← htail]
      exact Nat.sub_le _ _
    have hshift : self.oldest + (self.retained.length + 1 - capacity) = (self.push a).oldest := by
      simp only [oldest, Broadcast.push]
      omega
    calc (self.push a).retained
      _ = (sent.drop self.oldest ++ [a]).drop (self.retained.length + 1 - capacity) := by
          rw [Broadcast.push, ← h.retained_eq]
      _ = ((sent ++ [a]).drop self.oldest).drop (self.retained.length + 1 - capacity) := by
          rw [List.drop_append_of_le_length holdest]
      _ = (sent ++ [a]).drop (self.push a).oldest := by
          rw [List.drop_drop, hshift]

/-- What one poll can give: a notice of the values that are not retained any more, the value at
the position, or nothing. -/
theorem Holds.poll_cases (h : self.Holds sent) (senders next : Nat) (hnext : next ≤ sent.length) :
    (next < self.oldest ∧
        self.poll senders next = (.ready (some (.error (self.oldest - next))), self.oldest)) ∨
      (∃ a, self.oldest ≤ next ∧ sent[next]? = some a ∧
        self.poll senders next = (.ready (some (.ok a)), next + 1)) ∨
      (next = self.tail ∧
        self.poll senders next = (if senders = 0 then .ready none else .pending, next)) := by
  unfold poll
  split <;> rename_i hlagging
  · exact .inl ⟨hlagging, rfl⟩
  · have hread : self.retained[next - self.oldest]? = sent[next]? := by
      rw [h.retained_eq, List.getElem?_drop, Nat.add_sub_cancel' (Nat.le_of_not_lt hlagging)]
    rw [hread]
    split <;> rename_i hvalue
    · exact .inr (.inl ⟨_, Nat.le_of_not_lt hlagging, hvalue, rfl⟩)
    · have hend := List.getElem?_eq_none_iff.mp hvalue
      exact .inr (.inr ⟨by rw [h.tail_eq]; omega, rfl⟩)

/-! ## What a receiver has heard -/

/-- Values and gaps account for a list of values. -/
inductive Accounts : List (Except Nat α) → List α → Prop
  | nil : Accounts [] []
  | value {results : List (Except Nat α)} {l : List α} (a : α) :
      Accounts results l → Accounts (results ++ [.ok a]) (l ++ [a])
  | gap {results : List (Except Nat α)} {l : List α} (missed : List α) :
      Accounts results l → Accounts (results ++ [.error missed.length]) (l ++ missed)

/-- The value among the results. -/
def value? : Except Nat α → Option α
  | .ok a => some a
  | .error _ => none

/-- Without gaps a receiver has heard everything. -/
theorem Accounts.values_eq {results : List (Except Nat α)} {l : List α} (h : Accounts results l)
    (hvalues : ∀ result ∈ results, (value? result).isSome = true) :
    results.filterMap value? = l := by
  induction h with
  | nil => rfl
  | value a _ ih =>
      have hbefore := ih fun result hresult => hvalues result (List.mem_append_left _ hresult)
      rw [List.filterMap_append, hbefore]
      rfl
  | gap missed _ _ =>
      have hgap := hvalues (.error missed.length) (List.mem_append_right _ List.mem_cons_self)
      contradiction

/-- A receiver hears values in the order in which they were sent. -/
theorem Accounts.sublist {results : List (Except Nat α)} {l : List α} (h : Accounts results l) :
    (results.filterMap value?).Sublist l := by
  induction h with
  | nil => exact List.Sublist.slnil
  | value a _ ih =>
      rw [List.filterMap_append]
      exact ih.append (List.Sublist.refl [a])
  | gap missed _ ih =>
      rw [List.filterMap_append]
      exact ih.append (List.nil_sublist missed)

/-- The values that were sent from one position to another. -/
def between (sent : List α) (start next : Nat) : List α := (sent.take next).drop start

/-- A receiver that has read from a position on, and what it got. -/
structure Heard (sent : List α) (start next : Nat) (results : List (Except Nat α)) : Prop where
  start_le : start ≤ next
  le_length : next ≤ sent.length
  accounts : Accounts results (between sent start next)

/-- A new receiver has heard nothing. -/
theorem Holds.heard_subscribe (h : self.Holds sent) :
    Heard sent self.subscribe self.subscribe [] where
  start_le := Nat.le_refl _
  le_length := Nat.le_of_eq h.tail_eq
  accounts := by
    have hnone : between sent self.subscribe self.subscribe = [] := by simp [between]
    rw [hnone]
    exact .nil

variable {start next next' senders : Nat} {results : List (Except Nat α)}

/-- More values do not change what was heard. -/
theorem Heard.append (h : Heard sent start next results) (more : List α) :
    Heard (sent ++ more) start next results where
  start_le := h.start_le
  le_length := by
    rw [List.length_append]
    exact Nat.le_add_right_of_le h.le_length
  accounts := by
    rw [between, List.take_append_of_le_length h.le_length]
    exact h.accounts

theorem between_append_of_le {middle : Nat} (hmiddle : start ≤ middle) (hnext : middle ≤ next) :
    between sent start middle ++ between sent middle next = between sent start next := by
  simp only [between, List.drop_take]
  rw [show next - start = (middle - start) + (next - middle) by omega, List.take_add,
    List.drop_drop, Nat.add_sub_cancel' hmiddle]

/-- What a receiver has read and what it has left to read is what was sent since it
subscribed. -/
theorem Heard.split (h : Heard sent start next results) :
    between sent start next ++ sent.drop next = sent.drop start := by
  have hall (position : Nat) : between sent position sent.length = sent.drop position := by
    rw [between, List.take_length]
  rw [← hall next, between_append_of_le h.start_le h.le_length, hall]

/-- Values and gaps go on accounting for what was sent. -/
theorem Heard.poll (h : Heard sent start next results) (hholds : self.Holds sent)
    {result : Except Nat α} (hpoll : self.poll senders next = (.ready (some result), next')) :
    Heard sent start next' (results ++ [result]) := by
  have hgrow {stop : Nat} (hstop : next ≤ stop) :
      between sent start next ++ between sent next stop = between sent start stop :=
    between_append_of_le h.start_le hstop
  rcases hholds.poll_cases senders next h.le_length with
    ⟨hlagging, heq⟩ | ⟨a, -, hvalue, heq⟩ | ⟨-, heq⟩
  · obtain ⟨hresult, rfl⟩ := Prod.mk.inj (heq.symm.trans hpoll)
    obtain rfl := Option.some.inj (Poll.ready.inj hresult)
    have holdest : self.oldest ≤ sent.length := by
      rw [← hholds.tail_eq]
      exact Nat.sub_le _ _
    have hlength : (between sent next self.oldest).length = self.oldest - next := by
      simp only [between, List.length_drop, List.length_take]
      omega
    refine ⟨Nat.le_trans h.start_le (Nat.le_of_lt hlagging), holdest, ?_⟩
    rw [← hgrow (Nat.le_of_lt hlagging), ← hlength]
    exact .gap _ h.accounts
  · obtain ⟨hresult, rfl⟩ := Prod.mk.inj (heq.symm.trans hpoll)
    obtain rfl := Option.some.inj (Poll.ready.inj hresult)
    rcases List.getElem?_eq_some_iff.mp hvalue with ⟨hlt, rfl⟩
    have hone : between sent next (next + 1) = [sent[next]] := by
      rw [between, List.drop_take, Nat.add_sub_cancel_left, List.drop_eq_getElem_cons hlt]
      rfl
    refine ⟨Nat.le_succ_of_le h.start_le, hlt, ?_⟩
    rw [← hgrow (Nat.le_succ next), hone]
    exact .value _ h.accounts
  · have hresult := (Prod.mk.inj (heq.symm.trans hpoll)).1
    split at hresult <;> simp at hresult

/-- Nothing is missed by a receiver that has no more left to read than is retained. -/
theorem Holds.value_of_poll (h : self.Holds sent) (hnext : next ≤ sent.length)
    (hkeeps : self.tail ≤ next + capacity) {result : Except Nat α}
    (hpoll : self.poll senders next = (.ready (some result), next')) :
    (value? result).isSome = true ∧ next' = next + 1 := by
  rcases h.poll_cases senders next hnext with ⟨hlagging, -⟩ | ⟨a, -, -, heq⟩ | ⟨-, heq⟩
  · simp only [oldest] at hlagging
    omega
  · obtain ⟨hresult, rfl⟩ := Prod.mk.inj (heq.symm.trans hpoll)
    obtain rfl := Option.some.inj (Poll.ready.inj hresult)
    exact ⟨rfl, rfl⟩
  · have hresult := (Prod.mk.inj (heq.symm.trans hpoll)).1
    split at hresult <;> simp at hresult

/-! ## Reading all there is -/

/-- What a receiver gets that goes on polling. -/
def read (self : Broadcast α capacity) (next : Nat) : List (Except Nat α) :=
  (if next < self.oldest then [.error (self.oldest - next)] else []) ++
    (self.retained.drop (next - self.oldest)).map .ok

theorem read_of_poll (h : self.Holds sent) (senders : Nat) (hnext : next ≤ sent.length) :
    (∃ result next', self.poll senders next = (.ready (some result), next') ∧
        next' ≤ sent.length ∧ self.read next = result :: self.read next') ∨
      (next = self.tail ∧ self.read next = []) := by
  have holdest : self.oldest ≤ sent.length := by
    rw [← h.tail_eq]
    exact Nat.sub_le _ _
  rcases h.poll_cases senders next hnext with
    ⟨hlagging, heq⟩ | ⟨a, hold, hvalue, heq⟩ | ⟨htail, -⟩
  · refine .inl ⟨_, _, heq, holdest, ?_⟩
    rw [read, if_pos hlagging, read, if_neg (Nat.lt_irrefl _), Nat.sub_eq_zero_of_le
      (Nat.le_of_lt hlagging), Nat.sub_self]
    rfl
  · rcases List.getElem?_eq_some_iff.mp hvalue with ⟨hlt, rfl⟩
    refine .inl ⟨_, _, heq, hlt, ?_⟩
    have hnever : ¬next < self.oldest := Nat.not_lt_of_le hold
    have hnever' : ¬next + 1 < self.oldest := by omega
    rw [read, if_neg hnever, read, if_neg hnever', h.retained_eq, List.drop_drop, List.drop_drop,
      Nat.add_sub_cancel' hold, Nat.add_sub_cancel' (Nat.le_succ_of_le hold),
      List.drop_eq_getElem_cons hlt]
    rfl
  · refine .inr ⟨htail, ?_⟩
    have hnever : ¬next < self.oldest := by
      rw [htail]
      exact Nat.not_lt_of_le (Nat.sub_le _ _)
    rw [read, if_neg hnever, h.retained_eq, List.drop_drop, List.drop_eq_nil_of_le]
    · rfl
    · rw [← h.tail_eq]
      omega

/-- No more than one notice and the values that are retained. -/
theorem length_read_le (self : Broadcast α capacity) (next : Nat) :
    (self.read next).length ≤ capacity + 1 := by
  have hlength := self.length_retained
  rw [read, List.length_append, List.length_map, List.length_drop]
  split <;> simp only [List.length_singleton, List.length_nil] <;> omega

/-- The values read are the last that are retained of those not read yet. -/
theorem values_read (h : self.Holds sent) (next : Nat) :
    (self.read next).filterMap value? =
      (sent.drop next).drop ((sent.drop next).length - capacity) := by
  have hvalues (l : List α) : (l.map (.ok : α → Except Nat α)).filterMap value? = l := by
    rw [List.filterMap_map]
    exact List.filterMap_some
  have hdrop : self.oldest + (next - self.oldest) = next + ((sent.drop next).length - capacity) := by
    have htail := h.tail_eq
    simp only [oldest, List.length_drop]
    omega
  rw [read, List.filterMap_append, hvalues, h.retained_eq, List.drop_drop, List.drop_drop, hdrop]
  split <;> rfl

end Broadcast

end IrohTransport
