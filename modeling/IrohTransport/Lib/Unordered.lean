import Mathlib.Data.List.Perm.Subperm

/-!
# Bounded concurrent jobs

Jobs are taken from a list in order, a bounded number of them are in progress at a time,
and their results are delivered as they complete.  A poll first starts as many jobs as
there is room for and then delivers the result of one job that has completed, if any.
The account of a buffer says where each job is.

Main results:

- Theorem {lit}`Buffer.Account.poll`: a poll moves jobs on and neither loses nor repeats
  one.
- Theorem {lit}`Buffer.perm_of_ended`: when a buffer has ended, its results are those of
  all jobs in some order.
- Theorem {lit}`Buffer.isSome_poll`: a buffer that has not ended can go on.
-/

namespace IrohTransport.Unordered

variable {ι ρ : Type*}

/-- Jobs that wait to be started, jobs in progress, and the results delivered so far. -/
structure Buffer (ι ρ : Type*) where
  waiting : List ι
  inProgress : List ι
  delivered : List (ι × ρ)
  ended : Bool

/-- What a poll meets after it has started jobs. -/
inductive Turn (ρ : Type*) where
  /-- A job in progress has completed. -/
  | completed (i : Nat) (result : ρ)
  /-- No job in progress has completed yet. -/
  | pending
  /-- There is nothing left to do. -/
  | exhausted

namespace Buffer

/-- A buffer of which nothing was polled yet. -/
def new (jobs : List ι) : Buffer ι ρ where
  waiting := jobs
  inProgress := []
  delivered := []
  ended := false

/-- Start as many jobs as there is room for. -/
def fill (limit : Nat) (buffer : Buffer ι ρ) : Buffer ι ρ :=
  { buffer with
    waiting := buffer.waiting.drop (limit - buffer.inProgress.length)
    inProgress := buffer.inProgress ++ buffer.waiting.take (limit - buffer.inProgress.length) }

/-- Deliver what the poll meets.  A buffer that has ended is not polled again. -/
def deliver (buffer : Buffer ι ρ) : Turn ρ → Option (Buffer ι ρ)
  | .completed i result =>
      (buffer.inProgress[i]?).map fun job =>
        { buffer with
          inProgress := buffer.inProgress.eraseIdx i
          delivered := buffer.delivered ++ [(job, result)] }
  | .pending => if buffer.inProgress = [] then none else some buffer
  | .exhausted =>
      if buffer.inProgress = [] ∧ buffer.waiting = [] then some { buffer with ended := true } else none

/-- One poll. -/
def poll (limit : Nat) (buffer : Buffer ι ρ) (turn : Turn ρ) : Option (Buffer ι ρ) :=
  if buffer.ended then none else (buffer.fill limit).deliver turn

/-- Where each job is: the jobs that were started are the first ones, each of them is in
progress or delivered, and no more are in progress than the limit allows. -/
structure Account (limit : Nat) (jobs : List ι) (buffer : Buffer ι ρ) : Prop where
  started : ∃ begun, jobs = begun ++ buffer.waiting ∧
    begun.Perm (buffer.delivered.map Prod.fst ++ buffer.inProgress)
  bounded : buffer.inProgress.length ≤ limit
  drained : buffer.ended = true → buffer.inProgress = [] ∧ buffer.waiting = []

namespace Account

variable {limit : Nat} {jobs : List ι} {buffer : Buffer ι ρ}

theorem new (limit : Nat) (jobs : List ι) : Account limit jobs (Buffer.new jobs : Buffer ι ρ) where
  started := ⟨[], rfl, List.Perm.nil⟩
  bounded := Nat.zero_le _
  drained h := nomatch h

/-- Starting jobs keeps the account. -/
theorem fill (h : Account limit jobs buffer) (hgoing : buffer.ended = false) :
    Account limit jobs (buffer.fill limit) where
  started := by
    rcases h.started with ⟨begun, hjobs, hperm⟩
    refine ⟨begun ++ buffer.waiting.take (limit - buffer.inProgress.length), ?_, ?_⟩
    · rw [List.append_assoc, Buffer.fill, List.take_append_drop]
      exact hjobs
    · rw [Buffer.fill, ← List.append_assoc]
      exact hperm.append_right _
  bounded := by
    have hbounded := h.bounded
    simp only [Buffer.fill, List.length_append, List.length_take]
    omega
  drained hended := by
    rw [Buffer.fill, hgoing] at hended
    contradiction

/-- Delivering keeps the account. -/
theorem deliver (h : Account limit jobs buffer) (hgoing : buffer.ended = false)
    {turn : Turn ρ} {buffer' : Buffer ι ρ} (hturn : buffer.deliver turn = some buffer') :
    Account limit jobs buffer' := by
  cases turn with
  | completed i result =>
      rcases Option.map_eq_some_iff.mp hturn with ⟨job, hjob, rfl⟩
      rcases h.started with ⟨begun, hjobs, hperm⟩
      refine ⟨⟨begun, hjobs, hperm.trans ?_⟩, ?_, ?_⟩
      · have hmoved : buffer.inProgress.Perm (job :: buffer.inProgress.eraseIdx i) := by
          rw [List.getElem?_eq_some_iff] at hjob
          rcases hjob with ⟨hi, rfl⟩
          exact (List.getElem_cons_eraseIdx_perm hi).symm
        simpa using (hmoved.append_left (buffer.delivered.map Prod.fst))
      · exact Nat.le_trans (List.length_eraseIdx_le _ _) h.bounded
      · intro hended
        rw [hgoing] at hended
        contradiction
  | pending =>
      simp only [Buffer.deliver] at hturn
      split at hturn
      · contradiction
      · exact Option.some.inj hturn ▸ h
  | exhausted =>
      simp only [Buffer.deliver] at hturn
      split at hturn <;> rename_i hempty
      · obtain rfl := Option.some.inj hturn
        exact ⟨h.started, h.bounded, fun _ => hempty⟩
      · contradiction

/-- A poll keeps the account. -/
theorem poll (h : Account limit jobs buffer) {turn : Turn ρ} {buffer' : Buffer ι ρ}
    (hturn : buffer.poll limit turn = some buffer') : Account limit jobs buffer' := by
  unfold Buffer.poll at hturn
  split at hturn <;> rename_i hended
  · contradiction
  · rw [Bool.not_eq_true] at hended
    exact (h.fill hended).deliver hended hturn

end Account

variable {limit : Nat} {jobs : List ι} {buffer : Buffer ι ρ}

/-- A poll adds to what was delivered, and the poll that ends the buffer adds nothing. -/
theorem delivered_poll {turn : Turn ρ} {buffer' : Buffer ι ρ}
    (h : buffer.poll limit turn = some buffer') :
    ∃ more, buffer'.delivered = buffer.delivered ++ more ∧ (buffer'.ended = true → more = []) := by
  unfold poll at h
  split at h <;> rename_i hended
  · contradiction
  · cases turn with
    | completed i result =>
        rcases Option.map_eq_some_iff.mp h with ⟨job, -, rfl⟩
        exact ⟨[(job, result)], rfl, fun h => absurd h hended⟩
    | pending =>
        simp only [deliver] at h
        split at h
        · contradiction
        · obtain rfl := Option.some.inj h
          exact ⟨[], (List.append_nil _).symm, fun _ => rfl⟩
    | exhausted =>
        simp only [deliver] at h
        split at h
        · obtain rfl := Option.some.inj h
          exact ⟨[], (List.append_nil _).symm, fun _ => rfl⟩
        · contradiction

/-- When a buffer has ended, every job has delivered its result, in some order. -/
theorem perm_of_ended (h : Account limit jobs buffer) (hended : buffer.ended = true) :
    (buffer.delivered.map Prod.fst).Perm jobs := by
  rcases h.started with ⟨begun, hjobs, hperm⟩
  rcases h.drained hended with ⟨hprogress, hwaiting⟩
  rw [hjobs, hwaiting, List.append_nil]
  rw [hprogress, List.append_nil] at hperm
  exact hperm.symm

/-- If the results are those of a function of the jobs, a buffer that has ended has
delivered this function's results on all jobs, in some order. -/
theorem perm_map_of_ended (answer : ι → ρ) (h : Account limit jobs buffer)
    (hended : buffer.ended = true) (hanswer : ∀ d ∈ buffer.delivered, d.2 = answer d.1) :
    buffer.delivered.Perm (jobs.map fun job => (job, answer job)) := by
  have hdelivered : buffer.delivered =
      (buffer.delivered.map Prod.fst).map fun job => (job, answer job) := by
    rw [List.map_map]
    refine (List.map_id _).symm.trans (List.map_congr_left ?_)
    intro d hd
    exact Prod.ext rfl (hanswer d hd)
  rw [hdelivered]
  exact (perm_of_ended h hended).map _

/-- A buffer with room for a job can go on until it has ended: some job completes, or
there is nothing left to do. -/
theorem isSome_poll (hlimit : 0 < limit) (hgoing : buffer.ended = false) (result : ρ) :
    (buffer.poll limit (.completed 0 result)).isSome = true ∨
      (buffer.poll limit .exhausted).isSome = true := by
  unfold poll
  rw [hgoing]
  cases hprogress : (buffer.fill limit).inProgress with
  | cons job rest =>
      left
      simp [deliver, hprogress]
  | nil =>
      right
      have hboth := hprogress
      simp only [fill, List.append_eq_nil_iff, List.take_eq_nil_iff] at hboth
      rcases hboth with ⟨hnone, hroom | hwaiting⟩
      · rw [hnone, List.length_nil] at hroom
        omega
      · have hrest : (buffer.fill limit).waiting = [] := by simp [fill, hwaiting]
        simp [deliver, hprogress, hrest]

end Buffer

end IrohTransport.Unordered
