import Mathlib.Data.List.Nodup
import Mathlib.Order.Lattice

/-!
# Pages of a changing set of keys

Pages of the keys of a linear order are read one after the other; each ends at a place in the order
where the next one begins, and the set of visible keys may change between two reads.

* `Position`: a place in the order. `Segment`: the visible keys between two places, in order.
* `page_segment`, `Segment.take`: the first keys of a list are a segment, and so is the first part
  of a segment.
* `Covers`: what has been returned up to a place. `Covers.segment`: a segment extends it, whatever
  the set of visible keys was before.
* `ReadUpTo`: the same, with the read that each key has been looked at in.
-/

namespace Keyset

variable {K : Type} [LinearOrder K]

/-- A place in the order of the keys. -/
inductive Position (K : Type) where
  | start
  | before (key : K)
  | finish

/-- The keys that come before a place. -/
def Position.Passed : Position K → K → Prop
  | start, _ => False
  | before key, k => k < key
  | finish, _ => True

theorem Position.Passed.mono {p : Position K} {k k' : K} (h : p.Passed k) (hk : k' ≤ k) :
    p.Passed k' := by
  cases p with
  | start => exact h
  | before key => exact lt_of_le_of_lt hk h
  | finish => exact h

/-- The visible keys between two places, in their order. -/
structure Segment (visible : K → Prop) (p q : Position K) (keys : List K) : Prop where
  sorted : keys.Pairwise (· < ·)
  mem_iff : ∀ k, k ∈ keys ↔ visible k ∧ ¬ p.Passed k ∧ q.Passed k
  passed : ∀ k, p.Passed k → q.Passed k

/-- The place before the `n`-th key of a list, or `last` if there is none. -/
def placeBefore (keys : List K) (n : Nat) (last : Position K) : Position K :=
  match keys[n]? with
  | some key => .before key
  | none => last

/-- The first keys of a sorted list are those before the place of the next one. -/
theorem mem_take_iff {keys : List K} (hsorted : keys.Pairwise (· < ·)) {n : Nat} {key : K}
    (hn : keys[n]? = some key) (k : K) : k ∈ keys.take n ↔ k ∈ keys ∧ k < key := by
  obtain ⟨hlt, rfl⟩ := List.getElem?_eq_some_iff.mp hn
  rw [List.pairwise_iff_getElem] at hsorted
  constructor
  · intro hk
    obtain ⟨i, hi, rfl⟩ := List.mem_take_iff_getElem.mp hk
    exact ⟨List.getElem_mem _, hsorted i n (by omega) hlt (by omega)⟩
  · rintro ⟨hk, hlt'⟩
    obtain ⟨i, hi, rfl⟩ := List.mem_iff_getElem.mp hk
    have hin : i < n := by
      by_contra hle
      rcases Nat.lt_or_eq_of_le (Nat.le_of_not_lt hle) with hni | rfl
      · exact absurd (hsorted n i hlt hi hni) (not_lt_of_gt hlt')
      · exact absurd hlt' (lt_irrefl _)
    exact List.mem_take_iff_getElem.mpr ⟨i, by omega, rfl⟩

/-- The first part of a segment. -/
theorem Segment.take {visible : K → Prop} {p q : Position K} {keys : List K}
    (h : Segment visible p q keys) (n : Nat) :
    Segment visible p (placeBefore keys n q) (keys.take n) := by
  unfold placeBefore
  cases hn : keys[n]? with
  | none =>
    rw [List.take_of_length_le (List.getElem?_eq_none_iff.mp hn)]
    exact h
  | some key =>
    have hkey := (h.mem_iff key).mp (List.mem_of_getElem? hn)
    refine ⟨h.sorted.take, fun k => ?_, fun k hk => ?_⟩
    · rw [mem_take_iff h.sorted hn, h.mem_iff]
      constructor
      · rintro ⟨⟨hv, hp, -⟩, hlt⟩
        exact ⟨hv, hp, hlt⟩
      · rintro ⟨hv, hp, hlt⟩
        exact ⟨⟨hv, hp, hkey.2.2.mono (le_of_lt hlt)⟩, hlt⟩
    · by_contra hle
      exact hkey.2.1 (hk.mono (not_lt.mp hle))

/-- All visible keys from a place on are a segment that ends at the end. -/
theorem segment_rest {visible : K → Prop} {p : Position K} {keys : List K}
    (hsorted : keys.Pairwise (· < ·)) (hmem : ∀ k, k ∈ keys ↔ visible k ∧ ¬ p.Passed k) :
    Segment visible p .finish keys :=
  ⟨hsorted, fun k => by rw [hmem k]; exact ⟨fun h => ⟨h.1, h.2, trivial⟩, fun h => ⟨h.1, h.2.1⟩⟩,
    fun _ _ => trivial⟩

/-- The visible keys from a place on, cut off after `limit` of them. -/
theorem page_segment {visible : K → Prop} {p : Position K} {keys : List K}
    (hsorted : keys.Pairwise (· < ·)) (hmem : ∀ k, k ∈ keys ↔ visible k ∧ ¬ p.Passed k)
    (limit : Nat) : Segment visible p (placeBefore keys limit .finish) (keys.take limit) :=
  (segment_rest hsorted hmem).take limit

/-- The first key after the `n`-th one is the next. -/
theorem find?_after {keys : List K} (hsorted : keys.Pairwise (· < ·)) {n : Nat} {key : K}
    (hn : keys[n]? = some key) : keys.find? (fun k => decide (key < k)) = keys[n + 1]? := by
  obtain ⟨hlt, rfl⟩ := List.getElem?_eq_some_iff.mp hn
  rw [List.pairwise_iff_getElem] at hsorted
  cases hnext : keys[n + 1]? with
  | none =>
    rw [List.find?_eq_none]
    intro k hk
    obtain ⟨i, hi, rfl⟩ := List.mem_iff_getElem.mp hk
    have hlast := List.getElem?_eq_none_iff.mp hnext
    rcases Nat.lt_or_eq_of_le (show i ≤ n by omega) with hin | rfl
    · simpa using le_of_lt (hsorted i n hi hlt hin)
    · simp
  | some next =>
    obtain ⟨hlt', rfl⟩ := List.getElem?_eq_some_iff.mp hnext
    rw [List.find?_eq_some_iff_getElem]
    refine ⟨by simpa using hsorted n (n + 1) hlt hlt' (by omega), n + 1, hlt', rfl, ?_⟩
    intro j hj
    rcases Nat.lt_or_eq_of_le (show j ≤ n by omega) with hjn | rfl
    · simpa using le_of_lt (hsorted j n (by omega) hlt hjn)
    · simp

/-- What has been returned up to a place: keys in their order, among them all steady ones. -/
structure Covers (steady : K → Prop) (returned : List K) (p : Position K) : Prop where
  sorted : returned.Pairwise (· < ·)
  passed : ∀ k ∈ returned, p.Passed k
  covered : ∀ k, steady k → p.Passed k → k ∈ returned

theorem Covers.start (steady : K → Prop) : Covers steady [] .start :=
  ⟨.nil, by simp, fun _ _ h => h.elim⟩

theorem Covers.mono {steady steady' : K → Prop} {returned : List K} {p : Position K}
    (h : Covers steady returned p) (hs : ∀ k, steady' k → steady k) :
    Covers steady' returned p :=
  ⟨h.sorted, h.passed, fun k hk => h.covered k (hs k hk)⟩

/-- A segment of the keys that are visible now extends what has been returned. -/
theorem Covers.segment {steady visible : K → Prop} {returned keys : List K} {p q : Position K}
    (h : Covers steady returned p) (hs : Segment visible p q keys)
    (hsteady : ∀ k, steady k → visible k) : Covers steady (returned ++ keys) q := by
  refine ⟨?_, fun k hk => ?_, fun k hk hq => ?_⟩
  · rw [List.pairwise_append]
    refine ⟨h.sorted, hs.sorted, fun a ha b hb => ?_⟩
    by_contra hle
    exact ((hs.mem_iff b).mp hb).2.1 ((h.passed a ha).mono (not_lt.mp hle))
  · rcases List.mem_append.mp hk with hk | hk
    · exact hs.passed k (h.passed k hk)
    · exact ((hs.mem_iff k).mp hk).2.2
  · by_cases hp : p.Passed k
    · exact List.mem_append_left _ (h.covered k hk hp)
    · exact List.mem_append_right _ ((hs.mem_iff k).mpr ⟨hsteady k hk, hp, hq⟩)

/-- At the end, every steady key has been returned exactly once. -/
theorem Covers.count_eq_one [BEq K] [LawfulBEq K] {steady : K → Prop} {returned : List K}
    (h : Covers steady returned .finish) {k : K} (hk : steady k) : returned.count k = 1 :=
  List.count_eq_one_of_mem (h.sorted.imp fun hlt => ne_of_lt hlt) (h.covered k hk trivial)

/-- What has been read up to a place while the visible keys change from read to read: the `n`-th
read sees `visible n`, and the part of the order that holds a key is read once. -/
structure ReadUpTo (visible : Nat → K → Prop) (returned : List K) (p : Position K) (reads : Nat)
    (readAt : K → Nat) : Prop where
  sorted : returned.Pairwise (· < ·)
  mem_iff : ∀ k, k ∈ returned ↔ p.Passed k ∧ visible (readAt k) k
  before : ∀ k, p.Passed k → readAt k < reads
  mono : ∀ k k', p.Passed k' → k ≤ k' → readAt k ≤ readAt k'

theorem ReadUpTo.start (visible : Nat → K → Prop) : ReadUpTo visible [] .start 0 fun _ => 0 where
  sorted := .nil
  mem_iff _ := iff_of_false List.not_mem_nil fun h => h.1.elim
  before _ h := h.elim
  mono _ _ h := h.elim

open Classical in
/-- The next read goes on where the last one has ended. -/
theorem ReadUpTo.segment {visible : Nat → K → Prop} {returned keys : List K} {p q : Position K}
    {reads : Nat} {readAt : K → Nat} (h : ReadUpTo visible returned p reads readAt)
    (hs : Segment (visible reads) p q keys) :
    ReadUpTo visible (returned ++ keys) q (reads + 1)
      fun k => if p.Passed k then readAt k else reads where
  sorted := by
    rw [List.pairwise_append]
    refine ⟨h.sorted, hs.sorted, fun a ha b hb => ?_⟩
    by_contra hle
    exact ((hs.mem_iff b).mp hb).2.1 (((h.mem_iff a).mp ha).1.mono (not_lt.mp hle))
  mem_iff k := by
    rw [List.mem_append, h.mem_iff, hs.mem_iff]
    by_cases hp : p.Passed k
    · simp [hp, hs.passed k hp]
    · simp [hp, and_comm]
  before k hq := by
    split
    · rename_i hp
      exact Nat.lt_succ_of_lt (h.before k hp)
    · exact Nat.lt_succ_self reads
  mono k k' hq hle := by
    by_cases hp' : p.Passed k'
    · rw [if_pos hp', if_pos (hp'.mono hle)]
      exact h.mono k k' hp' hle
    · rw [if_neg hp']
      split
      · rename_i hp
        exact (h.before k hp).le
      · exact le_rfl

end Keyset
