import Mathlib.Computability.RegularExpressions

/-!
# Regular expressions by what they match

Expressions that patterns are written with, and the lists they match:

* `anyOf`: one of some symbols. `between r m n`: from `m` to `n` times `r`. `many r`: at least once.
* `behind sep r`: a separator and then `r`. What matches such expressions one after the other is
  `separated sep parts`, the parts behind a separator each.
-/

namespace Regular

open RegularExpression

variable {α : Type}

def anyOf (symbols : List α) : RegularExpression α :=
  symbols.foldr (fun a r => char a + r) 0

def between (r : RegularExpression α) (m n : Nat) : RegularExpression α :=
  (List.range' m (n + 1 - m)).foldr (fun k s => r ^ k + s) 0

def many (r : RegularExpression α) : RegularExpression α := r * r.star

def behind (sep : α) (r : RegularExpression α) : RegularExpression α := char sep * r

/-- Each part behind a separator. -/
def separated (sep : α) (parts : List (List α)) : List α := parts.flatMap (sep :: ·)

@[simp] theorem separated_nil (sep : α) : separated sep [] = [] := rfl

@[simp] theorem separated_cons (sep : α) (part : List α) (parts : List (List α)) :
    separated sep (part :: parts) = sep :: part ++ separated sep parts := by
  rw [separated, List.flatMap_cons, separated]

@[simp] theorem separated_append (sep : α) (parts more : List (List α)) :
    separated sep (parts ++ more) = separated sep parts ++ separated sep more :=
  List.flatMap_append

/-- A list of values that are made of something is made of a list. -/
theorem forall_mem_exists_iff {β γ : Type} {f : β → γ} {p : β → Prop} {l : List γ} :
    (∀ y ∈ l, ∃ b, p b ∧ y = f b) ↔ ∃ bs : List β, (∀ b ∈ bs, p b) ∧ l = bs.map f := by
  constructor
  · intro h
    induction l with
    | nil => exact ⟨[], by simp, rfl⟩
    | cons y l ih =>
      rw [List.forall_mem_cons] at h
      obtain ⟨bs, hbs, rfl⟩ := ih h.2
      obtain ⟨b, hb, rfl⟩ := h.1
      exact ⟨b :: bs, List.forall_mem_cons.mpr ⟨hb, hbs⟩, rfl⟩
  · rintro ⟨bs, hbs, rfl⟩ y hy
    obtain ⟨b, hb, rfl⟩ := List.mem_map.mp hy
    exact ⟨b, hbs b hb, rfl⟩

section Matches

variable {r s : RegularExpression α} {x : List α} {sep : α}

theorem mem_add : x ∈ (r + s).matches' ↔ x ∈ r.matches' ∨ x ∈ s.matches' := by
  rw [matches'_add]
  exact Language.mem_add _ _ x

theorem mem_mul : x ∈ (r * s).matches' ↔ ∃ a ∈ r.matches', ∃ b ∈ s.matches', a ++ b = x := by
  rw [matches'_mul, Language.mem_mul]

theorem mem_foldr_add {ι : Type} {f : ι → RegularExpression α} {l : List ι} :
    x ∈ (l.foldr (fun i t => f i + t) 0).matches' ↔ ∃ i ∈ l, x ∈ (f i).matches' := by
  induction l with
  | nil =>
    rw [List.foldr_nil, matches'_zero]
    constructor
    · exact fun h => absurd h (Language.notMem_zero x)
    · rintro ⟨i, hi, -⟩
      simp at hi
  | cons i l ih =>
    rw [List.foldr_cons, mem_add, ih]
    simp

@[simp] theorem mem_anyOf {symbols : List α} :
    x ∈ (anyOf symbols).matches' ↔ ∃ a ∈ symbols, x = [a] := by
  rw [anyOf, mem_foldr_add]
  refine exists_congr fun a => and_congr_right fun _ => ?_
  rw [matches'_char]
  exact Set.mem_singleton_iff

theorem mem_between {m n : Nat} : x ∈ (between r m n).matches' ↔
    ∃ l : List (List α), m ≤ l.length ∧ l.length ≤ n ∧ (∀ y ∈ l, y ∈ r.matches') ∧
      x = l.flatten := by
  rw [between, mem_foldr_add]
  constructor
  · rintro ⟨k, hk, hx⟩
    rw [matches'_pow, Language.mem_pow] at hx
    obtain ⟨l, rfl, rfl, hl⟩ := hx
    rw [List.mem_range'_1] at hk
    exact ⟨l, hk.1, by omega, hl, rfl⟩
  · rintro ⟨l, hm, hn, hl, rfl⟩
    refine ⟨l.length, List.mem_range'_1.mpr ⟨hm, by omega⟩, ?_⟩
    rw [matches'_pow, Language.mem_pow]
    exact ⟨l, rfl, rfl, hl⟩

theorem mem_star : x ∈ r.star.matches' ↔
    ∃ l : List (List α), (∀ y ∈ l, y ∈ r.matches') ∧ x = l.flatten := by
  rw [matches'_star, Language.mem_kstar]
  exact exists_congr fun l => and_comm

theorem mem_many : x ∈ (many r).matches' ↔
    ∃ l : List (List α), l ≠ [] ∧ (∀ y ∈ l, y ∈ r.matches') ∧ x = l.flatten := by
  rw [many, mem_mul]
  constructor
  · rintro ⟨a, ha, b, hb, rfl⟩
    obtain ⟨l, hl, rfl⟩ := mem_star.mp hb
    exact ⟨a :: l, by simp, List.forall_mem_cons.mpr ⟨ha, hl⟩, rfl⟩
  · rintro ⟨l, hne, hl, rfl⟩
    cases l with
    | nil => exact absurd rfl hne
    | cons a l =>
      rw [List.forall_mem_cons] at hl
      exact ⟨a, hl.1, l.flatten, mem_star.mpr ⟨l, hl.2, rfl⟩, rfl⟩

/-- Words over some symbols, by their length. -/
theorem mem_word {symbols : List α} {m n : Nat} :
    x ∈ (between (anyOf symbols) m n).matches' ↔
      m ≤ x.length ∧ x.length ≤ n ∧ ∀ a ∈ x, a ∈ symbols := by
  rw [mem_between]
  constructor
  · rintro ⟨l, hm, hn, hl, rfl⟩
    have hsingle : l.flatten.length = l.length ∧ ∀ a ∈ l.flatten, a ∈ symbols := by
      clear hm hn
      induction l with
      | nil => simp
      | cons y l ih =>
        rw [List.forall_mem_cons] at hl
        obtain ⟨a, ha, rfl⟩ := mem_anyOf.mp hl.1
        obtain ⟨hlen, hmem⟩ := ih hl.2
        refine ⟨by simp [← hlen], ?_⟩
        simpa [ha] using hmem
    rw [hsingle.1]
    exact ⟨hm, hn, hsingle.2⟩
  · rintro ⟨hm, hn, hmem⟩
    refine ⟨x.map fun a => [a], by simpa using hm, by simpa using hn, ?_, ?_⟩
    · intro y hy
      obtain ⟨a, ha, rfl⟩ := List.mem_map.mp hy
      exact mem_anyOf.mpr ⟨a, hmem a ha, rfl⟩
    · clear hm hn hmem
      induction x with
      | nil => rfl
      | cons a x ih => rw [List.map_cons, List.flatten_cons, ← ih, List.singleton_append]

@[simp] theorem mem_behind : x ∈ (behind sep r).matches' ↔ ∃ y ∈ r.matches', x = sep :: y := by
  rw [behind, mem_mul]
  constructor
  · rintro ⟨a, ha, b, hb, rfl⟩
    rw [matches'_char] at ha
    obtain rfl := Set.mem_singleton_iff.mp ha
    exact ⟨b, hb, rfl⟩
  · rintro ⟨y, hy, rfl⟩
    refine ⟨[sep], ?_, y, hy, rfl⟩
    rw [matches'_char]
    exact Set.mem_singleton _

/-- Lists of matches behind separators. -/
theorem forall_mem_behind {l : List (List α)} : (∀ y ∈ l, y ∈ (behind sep r).matches') ↔
    ∃ parts : List (List α), (∀ y ∈ parts, y ∈ r.matches') ∧ l = parts.map (sep :: ·) := by
  rw [← forall_mem_exists_iff]
  exact forall₂_congr fun y _ => mem_behind

theorem mem_between_behind {m n : Nat} : x ∈ (between (behind sep r) m n).matches' ↔
    ∃ parts : List (List α), m ≤ parts.length ∧ parts.length ≤ n ∧
      (∀ y ∈ parts, y ∈ r.matches') ∧ x = separated sep parts := by
  rw [mem_between]
  constructor
  · rintro ⟨l, hm, hn, hl, rfl⟩
    obtain ⟨parts, hparts, rfl⟩ := forall_mem_behind.mp hl
    rw [List.length_map] at hm hn
    exact ⟨parts, hm, hn, hparts, rfl⟩
  · rintro ⟨parts, hm, hn, hparts, rfl⟩
    exact ⟨parts.map (sep :: ·), by simpa using hm, by simpa using hn,
      forall_mem_behind.mpr ⟨parts, hparts, rfl⟩, rfl⟩

/-- At most one match behind a separator. -/
theorem mem_maybe_behind : x ∈ (between (behind sep r) 0 1).matches' ↔
    ∃ part : Option (List α), (∀ y ∈ part, y ∈ r.matches') ∧ x = separated sep part.toList := by
  rw [mem_between_behind]
  constructor
  · rintro ⟨parts, -, hlen, hparts, rfl⟩
    match parts, hlen with
    | [], _ => exact ⟨none, by simp, rfl⟩
    | [part], _ => exact ⟨some part, by simpa using hparts, rfl⟩
  · rintro ⟨part, hpart, rfl⟩
    refine ⟨part.toList, by simp, ?_, by simpa using hpart, rfl⟩
    cases part <;> simp

theorem mem_star_behind : x ∈ (behind sep r).star.matches' ↔
    ∃ parts : List (List α), (∀ y ∈ parts, y ∈ r.matches') ∧ x = separated sep parts := by
  rw [mem_star]
  constructor
  · rintro ⟨l, hl, rfl⟩
    obtain ⟨parts, hparts, rfl⟩ := forall_mem_behind.mp hl
    exact ⟨parts, hparts, rfl⟩
  · rintro ⟨parts, hparts, rfl⟩
    exact ⟨parts.map (sep :: ·), forall_mem_behind.mpr ⟨parts, hparts, rfl⟩, rfl⟩

theorem mem_many_behind : x ∈ (many (behind sep r)).matches' ↔
    ∃ parts : List (List α), parts ≠ [] ∧ (∀ y ∈ parts, y ∈ r.matches') ∧
      x = separated sep parts := by
  rw [mem_many]
  constructor
  · rintro ⟨l, hne, hl, rfl⟩
    obtain ⟨parts, hparts, rfl⟩ := forall_mem_behind.mp hl
    exact ⟨parts, by simpa using hne, hparts, rfl⟩
  · rintro ⟨parts, hne, hparts, rfl⟩
    exact ⟨parts.map (sep :: ·), by simpa using hne, forall_mem_behind.mpr ⟨parts, hparts, rfl⟩, rfl⟩

end Matches

end Regular
