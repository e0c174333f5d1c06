import Mathlib.Data.List.Sort
import Mathlib.Order.Defs.LinearOrder

/-!
# The greatest element of a list

Elements have a rank in a linear order. `Selects rank l r`: `r` is an element of the list with the
greatest rank, or nothing if the list is empty. If no two elements have the same rank, the list
selects one thing (`Selects.unique`), whatever the order in which it is searched:

* `selects_head?`: sort by decreasing rank and take the first;
* `selects_foldl`: go through the list and keep what is greater than all before it.
-/

namespace Greatest

variable {α R : Type} {rank : α → R} {l m : List α}

/-- No two elements have the same rank. -/
def Ranked (rank : α → R) (l : List α) : Prop := ∀ a ∈ l, ∀ b ∈ l, rank a = rank b → a = b

theorem Ranked.subset (h : Ranked rank l) (hm : m ⊆ l) : Ranked rank m :=
  fun a ha b hb => h a (hm ha) b (hm hb)

variable [LinearOrder R]

/-- An element of a list with the greatest rank, or nothing. -/
def Selects (rank : α → R) (l : List α) : Option α → Prop
  | none => l = []
  | some a => a ∈ l ∧ ∀ b ∈ l, rank b ≤ rank a

theorem Selects.unique (h : Ranked rank l) {r s : Option α} (hr : Selects rank l r)
    (hs : Selects rank l s) : r = s := by
  cases r with
  | none =>
    cases s with
    | none => rfl
    | some b =>
      rw [show l = [] from hr] at hs
      simpa using hs.1
  | some a =>
    cases s with
    | none =>
      rw [show l = [] from hs] at hr
      simpa using hr.1
    | some b => rw [h a hr.1 b hs.1 (le_antisymm (hs.2 a hr.1) (hr.2 b hs.1))]

/-- What is selected depends on the members only. -/
theorem Selects.congr {r : Option α} (h : Selects rank l r) (hlm : ∀ a, a ∈ l ↔ a ∈ m) :
    Selects rank m r := by
  cases r with
  | none =>
    rw [Selects, List.eq_nil_iff_forall_not_mem] at h ⊢
    exact fun a ha => h a ((hlm a).mpr ha)
  | some a => exact ⟨(hlm a).mp h.1, fun b hb => h.2 b ((hlm b).mpr hb)⟩

theorem Selects.isSome_iff {r : Option α} (h : Selects rank l r) : r.isSome ↔ ∃ a, a ∈ l := by
  cases r with
  | none =>
    rw [show l = [] from h]
    simp
  | some a => exact iff_of_true rfl ⟨a, h.1⟩

/-- The first element after sorting by decreasing rank. -/
theorem selects_head? {le : α → α → Bool} (hle : ∀ a b, le a b = true ↔ rank b ≤ rank a) :
    Selects rank l (l.mergeSort le).head? := by
  have hperm := List.mergeSort_perm l le
  have hsorted : (l.mergeSort le).Pairwise fun a b => le a b = true := by
    apply List.pairwise_mergeSort
    · intro a b c hab hbc
      rw [hle] at hab hbc ⊢
      exact hbc.trans hab
    · intro a b
      simp only [Bool.or_eq_true, hle]
      exact le_total _ _
  cases hsort : l.mergeSort le with
  | nil =>
    rw [hsort] at hperm
    exact hperm.nil_eq.symm
  | cons a rest =>
    rw [hsort] at hperm hsorted
    refine ⟨hperm.subset List.mem_cons_self, fun b hb => ?_⟩
    rcases List.mem_cons.mp (hperm.symm.subset hb) with rfl | hmem
    · exact le_rfl
    · exact (hle a b).mp (List.rel_of_pairwise_cons hsorted hmem)

/-- What is kept of the best so far and the next element. -/
def better (newer : α → α → Bool) (best : Option α) (a : α) : Option α :=
  match best with
  | none => some a
  | some b => if newer a b then some a else some b

/-- What a run through the list keeps. -/
theorem selects_foldl {newer : α → α → Bool} (hnewer : ∀ a b, newer a b = true ↔ rank b < rank a) :
    Selects rank l (l.foldl (better newer) none) := by
  suffices ∀ (done : List α) (best : Option α), Selects rank done best →
      Selects rank (done ++ l) (l.foldl (better newer) best) from this [] none rfl
  induction l with
  | nil =>
    intro done best h
    rw [List.append_nil]
    exact h
  | cons a rest ih =>
    intro done best h
    rw [List.foldl_cons, List.append_cons]
    refine ih (done ++ [a]) (better newer best a) ?_
    cases best with
    | none =>
      rw [show done = [] from h]
      exact ⟨List.mem_singleton_self a, fun b hb => by rw [List.mem_singleton.mp hb]⟩
    | some b =>
      simp only [better]
      split
      · rename_i hab
        have hlt := (hnewer a b).mp hab
        refine ⟨List.mem_append_right _ (List.mem_singleton_self a), fun c hc => ?_⟩
        rcases List.mem_append.mp hc with hc | hc
        · exact (h.2 c hc).trans hlt.le
        · rw [List.mem_singleton.mp hc]
      · rename_i hab
        refine ⟨List.mem_append_left _ h.1, fun c hc => ?_⟩
        rcases List.mem_append.mp hc with hc | hc
        · exact h.2 c hc
        · rw [List.mem_singleton.mp hc]
          exact not_lt.mp fun hlt => hab ((hnewer a b).mpr hlt)

end Greatest
