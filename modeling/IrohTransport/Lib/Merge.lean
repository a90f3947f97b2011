import Mathlib.Data.List.Forall2
import Mathlib.Data.Seq.Basic

/-!
# Merging sequences

Several sequences, finite or not, are merged by polling: a poll delivers the next
element of any one of them, or has nothing to deliver yet, or reports the end.  Which
source is served is left open; what is fixed is that each source keeps its order, that
nothing is lost or delivered twice, and that the end is reported when all sources have
ended and only then.

Main results:

- Theorem {lit}`Merge.Account.deliver`: what has arrived from a source, followed by
  what it still holds, is always the whole source.
- Theorem {lit}`Merge.Account.perm_of_exhausted`: when the end is reported, the
  arrivals are the sources put together, in some order.
-/

namespace IrohTransport

/-- The answer of a poll. -/
inductive Poll (α : Type) where
  | ready (a : α)
  | pending
deriving DecidableEq

namespace Merge

open Stream' (Seq)

variable {α : Type}

/-- Who is served by a poll. -/
inductive Turn where
  | deliver (source : Nat)
  | pending
  | finish

/-- All sources have ended. -/
def exhausted (sources : List (Seq α)) : Bool :=
  sources.all fun source => source.head.isNone

theorem exhausted_iff {sources : List (Seq α)} :
    exhausted sources = true ↔ ∀ source ∈ sources, source = Seq.nil := by
  simp [exhausted, Seq.head_eq_none_iff]

/-- One poll of a merge, with what the sources hold afterwards. -/
def poll (sources : List (Seq α)) : Turn → Option (Poll (Option α) × List (Seq α))
  | .deliver i =>
      (sources[i]?).bind fun source =>
        source.destruct.map fun x => (.ready (some x.1), sources.set i x.2)
  | .pending => if exhausted sources then none else some (.pending, sources)
  | .finish => if exhausted sources then some (.ready none, sources) else none

/-- What a poll can do. -/
theorem poll_cases {sources sources' : List (Seq α)} {turn : Turn} {answer : Poll (Option α)}
    (h : poll sources turn = some (answer, sources')) :
    (∃ i x rest, turn = .deliver i ∧ sources[i]? = some (Seq.cons x rest) ∧
      answer = .ready (some x) ∧ sources' = sources.set i rest) ∨
    (turn = .pending ∧ exhausted sources = false ∧ answer = .pending ∧ sources' = sources) ∨
    (turn = .finish ∧ exhausted sources = true ∧ answer = .ready none ∧ sources' = sources) := by
  cases turn with
  | deliver i =>
      simp only [poll, Option.bind_eq_some_iff, Option.map_eq_some_iff, Prod.mk.injEq] at h
      rcases h with ⟨source, hsource, ⟨x, rest⟩, hnext, rfl, rfl⟩
      rw [Seq.destruct_eq_cons hnext] at hsource
      exact Or.inl ⟨i, x, rest, rfl, hsource, rfl, rfl⟩
  | pending =>
      cases hend : exhausted sources with
      | true => simp [poll, hend] at h
      | false =>
          simp only [poll, hend, Bool.false_eq_true, if_false, Option.some.injEq,
            Prod.mk.injEq] at h
          exact Or.inr (Or.inl ⟨rfl, rfl, h.1.symm, h.2.symm⟩)
  | finish =>
      cases hend : exhausted sources with
      | false => simp [poll, hend] at h
      | true =>
          simp only [poll, hend, if_true, Option.some.injEq, Prod.mk.injEq] at h
          exact Or.inr (Or.inr ⟨rfl, rfl, h.1.symm, h.2.symm⟩)

/-! ## What has arrived -/

/-- The arrivals from one source. -/
def arrivals (i : Nat) (arrived : List (Nat × α)) : List α :=
  (arrived.filter fun a => a.1 = i).map Prod.snd

theorem arrivals_concat (i j : Nat) (x : α) (arrived : List (Nat × α)) :
    arrivals i (arrived ++ [(j, x)])
      = if j = i then arrivals i arrived ++ [x] else arrivals i arrived := by
  by_cases h : j = i
  · simp [arrivals, h]
  · simp [arrivals, h]

/-- Every source is what has arrived from it, followed by what it still holds. -/
structure Account (sources rest : List (Seq α)) (arrived : List (Nat × α)) : Prop where
  length_eq : rest.length = sources.length
  source : ∀ a ∈ arrived, a.1 < sources.length
  whole : ∀ i source held, sources[i]? = some source → rest[i]? = some held →
    source = (Seq.ofList (arrivals i arrived)).append held

namespace Account

variable {sources rest : List (Seq α)} {arrived : List (Nat × α)}

theorem nil (sources : List (Seq α)) : Account sources sources [] where
  length_eq := rfl
  source := by simp
  whole i source held hsource hheld := by
    rcases Option.some.inj (hsource.symm.trans hheld) with rfl
    simp [arrivals]

/-- A delivery moves one element from what a source holds to what has arrived. -/
theorem deliver (h : Account sources rest arrived) {i : Nat} {x : α} {held : Seq α}
    (hrest : rest[i]? = some (Seq.cons x held)) :
    Account sources (rest.set i held) (arrived ++ [(i, x)]) where
  length_eq := by rw [List.length_set, h.length_eq]
  source a ha := by
    rcases List.mem_append.mp ha with ha | ha
    · exact h.source a ha
    · rcases List.mem_singleton.mp ha with rfl
      rw [← h.length_eq]
      exact (List.getElem?_eq_some_iff.mp hrest).1
  whole j source held' hsource hheld' := by
    rw [arrivals_concat]
    rcases eq_or_ne i j with rfl | hne
    · have hlt : i < rest.length := (List.getElem?_eq_some_iff.mp hrest).1
      rw [List.getElem?_set_self hlt, Option.some.injEq] at hheld'
      subst hheld'
      rw [if_pos rfl, Seq.ofList_append, Seq.append_assoc, h.whole i source _ hsource hrest]
      simp
    · rw [List.getElem?_set_ne hne] at hheld'
      rw [if_neg hne]
      exact h.whole j source held' hsource hheld'

/-- An arrival is an element of its source. -/
theorem mem_source (h : Account sources rest arrived) {a : Nat × α} (ha : a ∈ arrived) :
    ∃ source, sources[a.1]? = some source ∧ a.2 ∈ source := by
  have hlt := h.source a ha
  have hlt' : a.1 < rest.length := h.length_eq ▸ hlt
  have hwhole := h.whole a.1 _ _ (List.getElem?_eq_getElem hlt) (List.getElem?_eq_getElem hlt')
  refine ⟨_, List.getElem?_eq_getElem hlt, ?_⟩
  rw [hwhole]
  apply Seq.mem_append_left
  have hmem : a.2 ∈ arrivals a.1 arrived :=
    List.mem_map_of_mem (List.mem_filter.mpr ⟨ha, by simp⟩)
  rcases List.getElem?_of_mem hmem with ⟨n, hn⟩
  exact ⟨n, by rw [← hn]; exact (Seq.ofList_get? _ _).symm⟩

/-- When all sources have ended, each is what has arrived from it. -/
theorem eq_arrivals (h : Account sources rest arrived) (hend : exhausted rest = true) {i : Nat}
    {source : Seq α} (hsource : sources[i]? = some source) :
    source = Seq.ofList (arrivals i arrived) := by
  have hlt : i < rest.length := h.length_eq ▸ (List.getElem?_eq_some_iff.mp hsource).1
  have hnil := exhausted_iff.mp hend _ (List.getElem_mem hlt)
  have hwhole := h.whole i source _ hsource (List.getElem?_eq_getElem hlt)
  rw [hnil, Seq.append_nil] at hwhole
  exact hwhole

/-- Arrivals from numbered sources, sorted by source. -/
private theorem perm_flatMap_arrivals {arrived : List (Nat × α)} {n : Nat} (h : ∀ a ∈ arrived, a.1 < n) :
    (arrived.map Prod.snd).Perm ((List.range n).flatMap fun i => arrivals i arrived) := by
  induction n generalizing arrived with
  | zero =>
      have hnone : arrived = [] := List.eq_nil_iff_forall_not_mem.mpr fun a ha => by
        simpa using h a ha
      simp [hnone]
  | succ n ih =>
      rw [List.range_succ, List.flatMap_append]
      let below := arrived.filter fun a => decide (a.1 < n)
      have hbelow : ∀ i ∈ List.range n, arrivals i arrived = arrivals i below := by
        intro i hi
        rw [List.mem_range] at hi
        simp only [arrivals, below, List.filter_filter]
        congr 1
        apply List.filter_congr
        intro a _
        by_cases hai : a.1 = i
        · simp [hai, hi]
        · simp [hai]
      have hlast : arrivals n arrived = (arrived.filter fun a => !decide (a.1 < n)).map Prod.snd := by
        rw [arrivals]
        congr 1
        apply List.filter_congr
        intro a ha
        have := h a ha
        by_cases han : a.1 = n
        · simp [han]
        · have hlt : a.1 < n := by omega
          simp [han, hlt]
      have hsplit := (List.filter_append_perm (fun a => decide (a.1 < n)) arrived).symm.map Prod.snd
      rw [List.map_append, ← hlast] at hsplit
      apply hsplit.trans
      have hrest : (below.map Prod.snd).Perm ((List.range n).flatMap fun i => arrivals i below) :=
        ih fun a ha => of_decide_eq_true (List.mem_filter.mp ha).2
      rw [List.flatMap_congr hbelow]
      simpa [below] using hrest.append_right _

/-- When all sources have ended, they are finite and the arrivals are all their elements
in some order. -/
theorem perm_of_exhausted (h : Account sources rest arrived) (hend : exhausted rest = true) :
    ∃ lists : List (List α), List.Forall₂ (fun source l => source = Seq.ofList l) sources lists ∧
      (arrived.map Prod.snd).Perm lists.flatten := by
  refine ⟨(List.range sources.length).map fun i => arrivals i arrived, ?_, ?_⟩
  · rw [List.forall₂_iff_get]
    refine ⟨by simp, ?_⟩
    intro i hi _
    have hsource : sources[i]? = some (sources.get ⟨i, hi⟩) := List.getElem?_eq_getElem hi
    rw [h.eq_arrivals hend hsource]
    simp
  · rw [← List.flatMap_def]
    exact perm_flatMap_arrivals h.source

end Account

end Merge

end IrohTransport
