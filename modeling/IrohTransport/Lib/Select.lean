import Mathlib.Data.List.MinMax
import Mathlib.Data.List.Sort

/-!
# Keeping the best element under each key

A table holds at most one element under each key.  A new element takes the place of
the one under its key only when it strictly precedes it, so among equally good
elements the first one inserted stays.  Inserting the elements of a list one after
another leaves, under every key, the first best element of the list; sorting the
table by rank then forgets the order of insertion.

Main results:

- Theorem {lit}`find?_select`: under each key the table holds the first minimum of
  the elements with that key.
- Theorem {lit}`ranked_eq_of_mem_iff`: sorted tables with the same elements are equal.
- Theorem {lit}`ranked_append_ranked`: sorted tables merge into the sorted table of
  everything that was inserted.
- Theorem {lit}`map_rank_ranked_perm`: the ranks in the table do not depend on the order
  of insertion.
- Theorem {lit}`ranked_perm`: neither do the elements, unless two of them are best under
  one key; the first of these is the one kept, by {lit}`mem_select_cons`.
-/

namespace IrohTransport.Select

universe u v w

variable {α : Type u} {κ : Type v} {ρ : Type w} [DecidableEq κ]

section Table

variable (key : α → κ) (r : α → α → Prop) [DecidableRel r]

/-- Put an element under its key, unless the element there need not give way. -/
def upsert (x : α) : List α → List α
  | [] => [x]
  | y :: ys => if key y = key x then (if r x y then x else y) :: ys else y :: upsert x ys

/-- Insert the elements of a list one after another. -/
def select (xs : List α) : List α :=
  xs.foldl (fun table x => upsert key r x table) []

theorem select_concat (xs : List α) (x : α) :
    select key r (xs ++ [x]) = upsert key r x (select key r xs) := by
  simp [select]

/-- The keys after an insertion. -/
theorem map_key_upsert (x : α) (table : List α) :
    (upsert key r x table).map key
      = if key x ∈ table.map key then table.map key else table.map key ++ [key x] := by
  induction table with
  | nil => simp [upsert]
  | cons y ys ih =>
      unfold upsert
      by_cases hkey : key y = key x
      · have hmem : key x ∈ (y :: ys).map key := by simp [hkey]
        rw [if_pos hkey, if_pos hmem]
        by_cases hr : r x y <;> simp [hr, hkey]
      · rw [if_neg hkey, List.map_cons, ih]
        simp only [List.map_cons, List.mem_cons, Ne.symm hkey, false_or]
        split <;> simp

/-- Keys stay distinct. -/
theorem nodup_keys_upsert {x : α} {table : List α} (h : (table.map key).Nodup) :
    ((upsert key r x table).map key).Nodup := by
  rw [map_key_upsert]
  split <;> rename_i hmem
  · exact h
  · rw [← List.concat_eq_append]
    exact h.concat hmem

theorem nodup_keys_select (xs : List α) : ((select key r xs).map key).Nodup := by
  induction xs using List.reverseRecOn with
  | nil => simp [select]
  | append_singleton xs x ih =>
      rw [select_concat]
      exact nodup_keys_upsert key r ih

/-- An insertion keeps or replaces the element under its own key and leaves the
others alone. -/
theorem find?_upsert (x : α) (table : List α) (k : κ) :
    (upsert key r x table).find? (fun a => key a = k)
      = if key x = k then some ((table.find? (fun a => key a = k)).elim x
          fun y => if r x y then x else y)
        else table.find? (fun a => key a = k) := by
  induction table with
  | nil => simp [upsert, List.find?_singleton]
  | cons y ys ih =>
      unfold upsert
      by_cases hkey : key y = key x
      · by_cases hk : key x = k
        · rw [if_pos hkey, if_pos hk]
          by_cases hr : r x y <;> simp [hr, hkey, hk]
        · rw [if_pos hkey, if_neg hk]
          by_cases hr : r x y <;> simp [hr, hkey, hk]
      · rw [if_neg hkey]
        by_cases hyk : key y = k
        · have hxk : key x ≠ k := fun h => hkey (hyk.trans h.symm)
          simp [hyk, hxk]
        · simp [hyk, ih]

/-- Every element of the table after an insertion was there or is the new one. -/
theorem mem_upsert {x a : α} {table : List α} (h : a ∈ upsert key r x table) :
    a = x ∨ a ∈ table := by
  induction table with
  | nil => exact Or.inl (by simpa [upsert] using h)
  | cons y ys ih =>
      unfold upsert at h
      split at h
      · split at h
        · grind
        · exact Or.inr h
      · rcases List.mem_cons.mp h with rfl | h
        · exact Or.inr List.mem_cons_self
        · grind

/-- An insertion leaves the elements under other keys where they are. -/
theorem filter_upsert_of_ne {x : α} {k : κ} (hk : key x ≠ k) (table : List α) :
    (upsert key r x table).filter (fun a => key a = k) = table.filter fun a => key a = k := by
  induction table with
  | nil => simp [upsert, hk]
  | cons y ys ih =>
      unfold upsert
      by_cases hkey : key y = key x
      · have hy : key y ≠ k := fun h => hk (hkey.symm.trans h)
        rw [if_pos hkey]
        by_cases hr : r x y <;> simp [hr, hk, hy]
      · rw [if_neg hkey, List.filter_cons, List.filter_cons, ih]

/-- An insertion replaces an element in its place only by one that it gives way to. -/
theorem getElem?_upsert {x y : α} {table : List α} {i : Nat} (h : table[i]? = some y) :
    (upsert key r x table)[i]? = some y ∨
      (upsert key r x table)[i]? = some x ∧ key y = key x ∧ r x y := by
  induction table generalizing i with
  | nil => simp at h
  | cons z zs ih =>
      unfold upsert
      by_cases hkey : key z = key x
      · rw [if_pos hkey]
        cases i with
        | zero =>
            obtain rfl : z = y := by simpa using h
            by_cases hr : r x z <;> simp [hr, hkey]
        | succ i => exact .inl (by simpa using h)
      · rw [if_neg hkey]
        cases i with
        | zero => exact .inl (by simpa using h)
        | succ i => simpa using ih (by simpa using h)

theorem mem_of_mem_select {a : α} {xs : List α} (h : a ∈ select key r xs) : a ∈ xs := by
  induction xs using List.reverseRecOn with
  | nil => simp [select] at h
  | append_singleton xs x ih =>
      rw [select_concat] at h
      rcases mem_upsert key r h with rfl | h
      · simp
      · exact List.mem_append_left _ (ih h)

omit [DecidableRel r] in
/-- In a table with distinct keys an element is the one found under its key. -/
theorem find?_eq_some_iff_mem {table : List α} (h : (table.map key).Nodup) {a : α} :
    table.find? (fun b => key b = key a) = some a ↔ a ∈ table := by
  induction table with
  | nil => simp
  | cons y ys ih =>
      rw [List.map_cons, List.nodup_cons] at h
      by_cases hkey : key y = key a
      · have hnot : a ∉ ys := fun hmem => h.1 (hkey ▸ List.mem_map_of_mem hmem)
        simp [hkey, hnot, eq_comm]
      · have hne : a ≠ y := fun heq => hkey (by rw [heq])
        simp [hkey, hne, ih h.2]

omit [DecidableRel r] in
/-- In a table with distinct keys nothing else stands under a key. -/
theorem filter_key_of_find? {table : List α} (h : (table.map key).Nodup) {k : κ} {a : α}
    (hfind : table.find? (fun b => key b = k) = some a) :
    table.filter (fun b => key b = k) = [a] := by
  induction table with
  | nil => simp at hfind
  | cons y ys ih =>
      rw [List.map_cons, List.nodup_cons] at h
      by_cases hkey : key y = k
      · have hnone : ys.filter (fun b => key b = k) = [] := by
          rw [List.filter_eq_nil_iff]
          intro b hb hk
          exact h.1 (hkey ▸ (by simpa using hk : key b = k) ▸ List.mem_map_of_mem hb)
        rw [List.filter_cons_of_pos (by simpa using hkey), hnone]
        simpa [hkey] using hfind
      · rw [List.filter_cons_of_neg (by simpa using hkey)]
        apply ih h.2
        simpa [hkey] using hfind

end Table

/-! ## Tables ordered by rank -/

section Rank

variable [LinearOrder ρ] (key : α → κ) (rank : α → ρ)

/-- Under each key the table holds the first minimum of the elements inserted. -/
theorem find?_select (xs : List α) (k : κ) :
    (select key (fun a b => rank a < rank b) xs).find? (fun a => key a = k)
      = (xs.filter fun a => key a = k).argmin rank := by
  induction xs using List.reverseRecOn with
  | nil => simp [select]
  | append_singleton xs x ih =>
      rw [select_concat, find?_upsert, ih, List.filter_append]
      by_cases hk : key x = k
      · rw [if_pos hk, List.filter_cons_of_pos (by simpa using hk), List.filter_nil,
          List.argmin_concat]
        cases (xs.filter fun a => key a = k).argmin rank with
        | none => rfl
        | some c => by_cases hlt : rank x < rank c <;> simp [hlt]
      · simp [hk]

/-- The elements of the table are the first minima under their keys. -/
theorem mem_select_iff {xs : List α} {a : α} :
    a ∈ select key (fun a b => rank a < rank b) xs
      ↔ (xs.filter fun b => key b = key a).argmin rank = some a := by
  rw [← find?_select, find?_eq_some_iff_mem key (nodup_keys_select key _ xs)]

/-- Nothing inserted under a key ranks before the element of the table. -/
theorem rank_le_of_mem_select {xs : List α} {a b : α}
    (ha : a ∈ select key (fun a b => rank a < rank b) xs) (hb : b ∈ xs) (hkey : key b = key a) :
    rank a ≤ rank b := by
  rw [mem_select_iff] at ha
  exact List.le_of_mem_argmin (List.mem_filter.mpr ⟨hb, by simpa using hkey⟩) ha

/-- Every key inserted is in the table, under an element at least as good. -/
theorem exists_mem_select {xs : List α} {b : α} (hb : b ∈ xs) :
    ∃ a ∈ select key (fun a b => rank a < rank b) xs, key a = key b ∧ rank a ≤ rank b := by
  have hmem : b ∈ xs.filter fun c => key c = key b := List.mem_filter.mpr ⟨hb, by simp⟩
  cases hmin : (xs.filter fun c => key c = key b).argmin rank with
  | none =>
      rw [List.argmin_eq_none.mp hmin] at hmem
      simp at hmem
  | some a =>
      have hkey : key a = key b := by
        simpa using (List.mem_filter.mp (List.argmin_mem hmin)).2
      refine ⟨a, (mem_select_iff key rank).mpr (by rwa [hkey]), hkey, ?_⟩
      exact List.le_of_mem_argmin hmem hmin

/-- An insertion keeps every key, under an element at least as good. -/
theorem exists_mem_upsert {table : List α} {x b : α} (hb : b = x ∨ b ∈ table) :
    ∃ a ∈ upsert key (fun a b => rank a < rank b) x table,
      key a = key b ∧ rank a ≤ rank b := by
  induction table with
  | nil =>
      obtain rfl : b = x := by simpa using hb
      exact ⟨b, by simp [upsert], rfl, le_rfl⟩
  | cons y ys ih =>
      unfold upsert
      by_cases hkey : key y = key x
      · rw [if_pos hkey]
        rcases hb with rfl | hb
        · refine ⟨_, List.mem_cons_self, ?_, ?_⟩
          · split <;> simp [hkey]
          · split <;> rename_i hlt
            · exact le_rfl
            · exact not_lt.mp hlt
        · rcases List.mem_cons.mp hb with rfl | hb
          · refine ⟨_, List.mem_cons_self, ?_, ?_⟩
            · split <;> simp [hkey]
            · split <;> rename_i hlt
              · exact hlt.le
              · exact le_rfl
          · exact ⟨b, List.mem_cons_of_mem _ hb, rfl, le_rfl⟩
      · rw [if_neg hkey]
        rcases hb with hb | hb
        · rcases ih (Or.inl hb) with ⟨a, ha, h⟩
          exact ⟨a, List.mem_cons_of_mem _ ha, h⟩
        · rcases List.mem_cons.mp hb with rfl | hb
          · exact ⟨b, List.mem_cons_self, rfl, le_rfl⟩
          · rcases ih (Or.inr hb) with ⟨a, ha, h⟩
            exact ⟨a, List.mem_cons_of_mem _ ha, h⟩

/-- An element that nothing under its key ranks before is kept when it comes first. -/
theorem mem_select_cons {xs : List α} {a : α}
    (hbest : ∀ c ∈ xs, key c = key a → rank a ≤ rank c) :
    a ∈ select key (fun a b => rank a < rank b) (a :: xs) := by
  rw [mem_select_iff, List.filter_cons_of_pos (by simp), List.argmin_cons]
  cases hmin : (xs.filter fun b => key b = key a).argmin rank with
  | none => rfl
  | some c =>
      rcases List.mem_filter.mp (List.argmin_mem hmin) with ⟨hc, hkey⟩
      have hle := hbest c hc (by simpa using hkey)
      simp [not_lt.mpr hle]

end Rank

/-! ## First minima -/

section Argmin

variable [LinearOrder ρ] (rank : α → ρ)

/-- The first minimum of a list stands for it in front of other elements. -/
theorem argmin_toList_append (xs ys : List α) :
    ((xs.argmin rank).toList ++ ys).argmin rank = (xs ++ ys).argmin rank := by
  induction ys using List.reverseRecOn with
  | nil =>
      rw [List.append_nil, List.append_nil]
      cases xs.argmin rank <;> rfl
  | append_singleton ys y ih =>
      rw [← List.append_assoc, ← List.append_assoc, List.argmin_concat, List.argmin_concat, ih]

/-- The first minimum of a list stands for it behind other elements. -/
theorem argmin_append_toList (xs ys : List α) :
    (xs ++ (ys.argmin rank).toList).argmin rank = (xs ++ ys).argmin rank := by
  induction ys using List.reverseRecOn with
  | nil => simp
  | append_singleton ys y ih =>
      rw [← List.append_assoc, List.argmin_concat, List.argmin_concat, ← ih]
      cases ys.argmin rank with
      | none => simp [List.argmin_concat]
      | some c =>
          by_cases hlt : rank y < rank c
          · simp only [hlt, if_true, Option.toList_some, List.argmin_concat]
            cases xs.argmin rank with
            | none => simp [hlt]
            | some d =>
                by_cases hcd : rank c < rank d
                · simp [hcd, hlt, hlt.trans hcd]
                · simp [hcd]
          · simp only [hlt, if_false, Option.toList_some, List.argmin_concat]
            cases xs.argmin rank with
            | none => simp [hlt]
            | some d =>
                by_cases hcd : rank c < rank d
                · simp [hcd, hlt]
                · have hyd : ¬rank y < rank d := fun h =>
                    hlt (h.trans_le (not_lt.mp hcd))
                  simp [hcd, hyd]

end Argmin

/-! ## The order of insertion -/

section Ranked

variable [LinearOrder ρ] {key : α → κ} {rank : α → ρ}

/-- The table in the order of the ranks. -/
def ranked (key : α → κ) (rank : α → ρ) (xs : List α) : List α :=
  (select key (fun a b => rank a < rank b) xs).insertionSort fun a b => rank a ≤ rank b

@[simp] theorem mem_ranked {xs : List α} {a : α} :
    a ∈ ranked key rank xs ↔ a ∈ select key (fun a b => rank a < rank b) xs :=
  List.mem_insertionSort _

/-- The keys of a sorted table are distinct. -/
theorem nodup_keys_ranked (xs : List α) : ((ranked key rank xs).map key).Nodup := by
  have hperm := List.perm_insertionSort (fun a b => rank a ≤ rank b)
    (select key (fun a b => rank a < rank b) xs)
  exact (hperm.map key).nodup_iff.mpr (nodup_keys_select key _ xs)

/-- Under each key a sorted table has the first minimum of the elements inserted and
nothing else. -/
theorem filter_key_ranked (xs : List α) (k : κ) :
    (ranked key rank xs).filter (fun a => key a = k)
      = ((xs.filter fun a => key a = k).argmin rank).toList := by
  have hperm : ((ranked key rank xs).filter fun a => key a = k).Perm
      ((select key (fun a b => rank a < rank b) xs).filter fun a => key a = k) :=
    (List.perm_insertionSort _ _).filter _
  rw [← find?_select]
  cases hfind : (select key (fun a b => rank a < rank b) xs).find? (fun a => key a = k) with
  | none =>
      have hnil := List.filter_eq_nil_iff.mpr (List.find?_eq_none.mp hfind)
      rw [hnil] at hperm
      exact hperm.eq_nil
  | some a =>
      rw [filter_key_of_find? key (nodup_keys_select key _ xs) hfind] at hperm
      exact List.perm_singleton.mp hperm

theorem find?_ranked (xs : List α) (k : κ) :
    (ranked key rank xs).find? (fun a => key a = k)
      = (xs.filter fun a => key a = k).argmin rank := by
  rw [← List.head?_filter, filter_key_ranked, Option.head?_toList]

variable (hkey : ∀ a b, rank a = rank b → key a = key b)
include hkey

omit [DecidableEq κ] in
/-- Tables with the same elements are sorted alike. -/
theorem insertionSort_eq_of_mem_iff {s t : List α} (hs : (s.map key).Nodup)
    (ht : (t.map key).Nodup) (h : ∀ a, a ∈ s ↔ a ∈ t) :
    s.insertionSort (fun a b => rank a ≤ rank b) = t.insertionSort fun a b => rank a ≤ rank b := by
  have hst : s.Perm t := (List.perm_ext_iff_of_nodup hs.of_map ht.of_map).mpr h
  have hperm := ((List.perm_insertionSort (fun a b => rank a ≤ rank b) s).trans hst).trans
    (List.perm_insertionSort (fun a b => rank a ≤ rank b) t).symm
  refine List.Perm.eq_of_pairwise ?_ (List.pairwise_insertionSort _ s)
    (List.pairwise_insertionSort _ t) hperm
  intro a b ha hb hab hba
  have hmem : b ∈ s := (h b).mpr ((List.mem_insertionSort _).mp hb)
  exact List.inj_on_of_nodup_map hs ((List.mem_insertionSort _).mp ha) hmem
    (hkey a b (le_antisymm hab hba))

/-- When ranks tell keys apart, a sorted table is strictly sorted. -/
theorem pairwise_ranked (xs : List α) :
    (ranked key rank xs).Pairwise fun a b => rank a < rank b := by
  have hle : (ranked key rank xs).Pairwise fun a b => rank a ≤ rank b :=
    List.pairwise_insertionSort _ _
  have hne : (ranked key rank xs).Pairwise fun a b => key a ≠ key b :=
    List.pairwise_map.mp (nodup_keys_ranked xs)
  apply (hle.and hne).imp
  intro a b h
  exact lt_of_le_of_ne h.1 fun heq => h.2 (hkey a b heq)

/-- Sorted tables with the same elements are equal. -/
theorem ranked_eq_of_mem_iff {xs ys : List α}
    (h : ∀ a, a ∈ ranked key rank xs ↔ a ∈ ranked key rank ys) :
    ranked key rank xs = ranked key rank ys := by
  simp only [mem_ranked] at h
  exact insertionSort_eq_of_mem_iff hkey (nodup_keys_select key _ xs)
    (nodup_keys_select key _ ys) h

/-- Sorted tables merge into the sorted table of everything that was inserted. -/
theorem ranked_append_ranked (xs ys : List α) :
    ranked key rank (ranked key rank xs ++ ranked key rank ys) = ranked key rank (xs ++ ys) := by
  apply ranked_eq_of_mem_iff hkey
  intro a
  rw [mem_ranked, mem_ranked, mem_select_iff, mem_select_iff, List.filter_append,
    List.filter_append, filter_key_ranked, filter_key_ranked, argmin_toList_append,
    argmin_append_toList]

/-- Inserting into a sorted table and sorting again is inserting after everything
else. -/
theorem insertionSort_upsert_ranked (xs : List α) (x : α) :
    (upsert key (fun a b => rank a < rank b) x (ranked key rank xs)).insertionSort
        (fun a b => rank a ≤ rank b)
      = ranked key rank (xs ++ [x]) := by
  have hranked := nodup_keys_upsert key (fun a b => rank a < rank b) (x := x)
    (@nodup_keys_ranked _ _ _ _ _ key rank xs)
  have hselect := nodup_keys_select key (fun a b => rank a < rank b) (xs ++ [x])
  apply insertionSort_eq_of_mem_iff hkey hranked hselect
  intro a
  rw [← find?_eq_some_iff_mem key hranked, ← find?_eq_some_iff_mem key hselect, select_concat,
    find?_upsert, find?_upsert, find?_ranked, find?_select]

omit hkey in
/-- An element kept in one order of insertion has one of its rank kept in any other. -/
theorem exists_mem_ranked_of_perm {xs ys : List α} (hperm : xs.Perm ys) {a : α}
    (ha : a ∈ ranked key rank xs) :
    ∃ b ∈ ranked key rank ys, key b = key a ∧ rank b = rank a := by
  rw [mem_ranked] at ha
  have hmem := hperm.mem_iff.mp (mem_of_mem_select key _ ha)
  rcases exists_mem_select key rank hmem with ⟨b, hb, hkeyb, hle⟩
  have hback := hperm.mem_iff.mpr (mem_of_mem_select key _ hb)
  exact ⟨b, mem_ranked.mpr hb, hkeyb,
    le_antisymm hle (rank_le_of_mem_select key rank ha hback hkeyb)⟩

/-- The ranks of the table do not depend on the order of insertion. -/
theorem map_rank_ranked_perm {xs ys : List α} (hperm : xs.Perm ys) :
    (ranked key rank xs).map rank = (ranked key rank ys).map rank := by
  have hsorted : ∀ zs, ((ranked key rank zs).map rank).Pairwise (· < ·) := fun zs =>
    List.pairwise_map.mpr (pairwise_ranked hkey zs)
  have hsub : ∀ {xs ys : List α}, xs.Perm ys → ∀ t ∈ (ranked key rank xs).map rank,
      t ∈ (ranked key rank ys).map rank := by
    intro xs ys hperm t ht
    rcases List.mem_map.mp ht with ⟨a, ha, rfl⟩
    rcases exists_mem_ranked_of_perm hperm ha with ⟨b, hb, -, hrank⟩
    exact List.mem_map.mpr ⟨b, hb, hrank⟩
  refine List.Perm.eq_of_pairwise ?_ (hsorted xs) (hsorted ys) ?_
  · intro a b _ _ hab hba
    exact absurd hba hab.asymm
  · apply (List.perm_ext_iff_of_nodup (hsorted xs).nodup (hsorted ys).nodup).mpr
    intro t
    exact ⟨hsub hperm t, hsub hperm.symm t⟩

/-- Without two different best elements under one key, neither do its elements. -/
theorem ranked_perm {xs ys : List α} (hperm : xs.Perm ys)
    (hunique : ∀ a ∈ xs, ∀ b ∈ xs, rank a = rank b →
      (∀ c ∈ xs, key c = key a → rank a ≤ rank c) → a = b) :
    ranked key rank xs = ranked key rank ys := by
  have hmem : ∀ {zs}, zs.Perm xs → ∀ a ∈ ranked key rank zs, a ∈ xs := fun hzs a ha =>
    hzs.mem_iff.mp (mem_of_mem_select key _ (mem_ranked.mp ha))
  refine ranked_eq_of_mem_iff hkey fun a => ⟨fun ha => ?_, fun ha => ?_⟩
  · rcases exists_mem_ranked_of_perm hperm ha with ⟨b, hb, hkeyb, hrank⟩
    have hbest := fun c hc => rank_le_of_mem_select key rank (mem_ranked.mp ha) (b := c) hc
    rw [hunique a (hmem (.refl _) a ha) b (hmem hperm.symm b hb) hrank.symm hbest]
    exact hb
  · rcases exists_mem_ranked_of_perm hperm.symm ha with ⟨b, hb, hkeyb, hrank⟩
    have hbest := fun c hc => rank_le_of_mem_select key rank (mem_ranked.mp hb) (b := c) hc
    rw [← hunique b (hmem (.refl _) b hb) a (hmem hperm.symm a ha) hrank hbest]
    exact hb

end Ranked

end IrohTransport.Select
