import Mathlib.Data.List.Basic

/-!
# Bounded channels with permits

A channel with many senders and one receiver.  A sender first reserves one of a fixed
number of places and then puts its value there, which always succeeds.  A place is free
again when the receiver takes the value out.  When the receiver is dropped, the values
that are still queued go with it, and nothing can be reserved any more.

Main results:

- Theorem {lit}`Channel.tryReserve_ok`: a reservation takes a free place of an open channel.
- Theorem {lit}`Channel.tryReserve_error`: a reservation is refused only without a free
  place or without a receiver.
-/

namespace IrohTransport

universe u

/-- Queued values, places that are reserved but not filled yet, and whether the receiver
is gone. -/
structure Channel (α : Type u) where
  queue : List α
  permits : Nat
  closed : Bool

/-- Why nothing could be reserved. -/
inductive TrySendError where
  | full
  | closed
deriving DecidableEq

namespace Channel

variable {α : Type u}

def empty : Channel α where
  queue := []
  permits := 0
  closed := false

/-- Places that are not free. -/
def occupied (self : Channel α) : Nat := self.queue.length + self.permits

/-- Reserve a place. -/
def tryReserve (capacity : Nat) (self : Channel α) : Except TrySendError (Channel α) :=
  if self.closed then .error .closed
  else if self.occupied < capacity then .ok { self with permits := self.permits + 1 }
  else .error .full

/-- Fill a reserved place; without a receiver the value is dropped. -/
def send (self : Channel α) (a : α) : Channel α × List α :=
  if self.closed then ({ self with permits := self.permits - 1 }, [a])
  else ({ self with queue := self.queue ++ [a], permits := self.permits - 1 }, [])

/-- Take the oldest value out. -/
def recv (self : Channel α) : Option (α × Channel α) :=
  match self.queue with
  | a :: rest => some (a, { self with queue := rest })
  | [] => none

/-- Drop the receiver, and with it what is queued. -/
def dropReceiver (self : Channel α) : Channel α × List α :=
  ({ self with queue := [], closed := true }, self.queue)

variable {self self' : Channel α} {capacity : Nat}

/-- What a reservation changes. -/
theorem tryReserve_ok (h : self.tryReserve capacity = .ok self') :
    self' = { self with permits := self.permits + 1 } ∧ self.closed = false ∧
      self.occupied < capacity := by
  unfold tryReserve at h
  split at h <;> rename_i hclosed
  · contradiction
  · split at h <;> rename_i hroom
    · exact ⟨(Except.ok.inj h).symm, by simpa using hclosed, hroom⟩
    · contradiction

/-- A reservation is refused only without a receiver or without a free place. -/
theorem tryReserve_error {err : TrySendError} (h : self.tryReserve capacity = .error err) :
    err = .closed ∧ self.closed = true ∨
      err = .full ∧ self.closed = false ∧ capacity ≤ self.occupied := by
  unfold tryReserve at h
  split at h <;> rename_i hclosed
  · exact .inl ⟨(Except.error.inj h).symm, hclosed⟩
  · split at h <;> rename_i hroom
    · contradiction
    · exact .inr ⟨(Except.error.inj h).symm, by simpa using hclosed, Nat.le_of_not_lt hroom⟩

/-- Filling a reserved place occupies nothing more. -/
theorem occupied_send (hpermit : 0 < self.permits) (a : α) :
    (self.send a).1.occupied ≤ self.occupied := by
  unfold send occupied
  split
  · exact Nat.add_le_add_left (Nat.sub_le _ _) _
  · simp only [List.length_append, List.length_singleton]
    omega

@[simp] theorem permits_send (self : Channel α) (a : α) :
    (self.send a).1.permits = self.permits - 1 := by
  unfold send
  split <;> rfl

@[simp] theorem closed_send (self : Channel α) (a : α) : (self.send a).1.closed = self.closed := by
  unfold send
  split <;> rfl

/-- A value that is sent is queued last or dropped. -/
theorem queue_send (self : Channel α) (a : α) :
    (self.closed = false ∧ (self.send a).1.queue = self.queue ++ [a] ∧ (self.send a).2 = []) ∨
      (self.closed = true ∧ (self.send a).1.queue = self.queue ∧ (self.send a).2 = [a]) := by
  unfold send
  split <;> rename_i hclosed
  · exact .inr ⟨hclosed, rfl, rfl⟩
  · exact .inl ⟨by simpa using hclosed, rfl, rfl⟩

/-- What is received was queued first. -/
theorem recv_eq_some {a : α} (h : self.recv = some (a, self')) :
    self.queue = a :: self'.queue ∧ self' = { self with queue := self'.queue } := by
  unfold recv at h
  split at h <;> rename_i hqueue
  · rcases Prod.mk.inj (Option.some.inj h) with ⟨rfl, rfl⟩
    exact ⟨hqueue, rfl⟩
  · contradiction

end Channel

end IrohTransport
