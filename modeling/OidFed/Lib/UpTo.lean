import Mathlib

/-!
# Lists as finite sets, up to a Boolean relation

Membership, inclusion, union and intersection of lists where "the same element" is a Boolean
relation `r` given by a program. Nothing about `r` is assumed in the definitions; the laws of
sets need `r` to be an equivalence on the elements that occur (`EquivOn`).

* `Covers r l m`: every element of `m` has one of `l` that `r` relates to it (`m ⊆ l`).
* `Within r l m`: every element of `l` is related to one of `m` (`l ⊆ m`).
* `union`, `inter`: `union l m` keeps `l` and covers both; `inter l m` is the part of `l` within
  `m`. They leave `l` alone when it covers, or is within, `m` already.
-/

namespace UpTo

variable {α : Type}

/-- `r` is reflexive on `U`, and symmetric and transitive on the elements of `U` with `p`. -/
structure EquivOn (r : α → α → Bool) (p : α → Bool) (U : Set α) : Prop where
  refl : ∀ x ∈ U, r x x = true
  symm : ∀ x ∈ U, ∀ y ∈ U, p x = true → p y = true → r x y = true → r y x = true
  trans : ∀ x ∈ U, ∀ y ∈ U, ∀ z ∈ U, p x = true → p y = true → p z = true →
    r x y = true → r y z = true → r x z = true

variable (r : α → α → Bool)

/-- Some element of `l` is related to `x`. -/
def contains (l : List α) (x : α) : Bool := l.any fun y => r y x

/-- Every element of `l` is related to one of `m`. -/
def subset (l m : List α) : Bool := l.all fun x => m.any fun y => r x y

/-- Append to `l` the elements of `m` to which none is related yet. -/
def union (l m : List α) : List α :=
  m.foldl (fun acc x => if acc.any (fun y => r y x) then acc else acc ++ [x]) l

/-- The elements of `l` related to one of `m`. -/
def inter (l m : List α) : List α := l.filter fun x => m.any fun y => r x y

def Covers (l m : List α) : Prop := ∀ x ∈ m, ∃ y ∈ l, r y x = true

def Within (l m : List α) : Prop := ∀ x ∈ l, ∃ y ∈ m, r x y = true

variable {r}

theorem contains_iff {l : List α} {x : α} : contains r l x = true ↔ ∃ y ∈ l, r y x = true := by
  simp [contains]

theorem subset_iff {l m : List α} : subset r l m = true ↔ Within r l m := by
  simp [subset, Within]

theorem Within.of_sublist {l l' m : List α} (h : Within r l m) (hs : ∀ x ∈ l', x ∈ l) :
    Within r l' m := fun x hx => h x (hs x hx)

theorem Covers.mono {l l' m : List α} (h : Covers r l m) (hs : ∀ x ∈ l, x ∈ l') : Covers r l' m := by
  intro x hx
  obtain ⟨y, hy, hr⟩ := h x hx
  exact ⟨y, hs y hy, hr⟩

theorem covers_self {l : List α} (h : ∀ x ∈ l, r x x = true) : Covers r l l :=
  fun x hx => ⟨x, hx, h x hx⟩

theorem within_self {l : List α} (h : ∀ x ∈ l, r x x = true) : Within r l l :=
  fun x hx => ⟨x, hx, h x hx⟩

/-! ## Union -/

theorem mem_union_left {l m : List α} {x : α} (h : x ∈ l) : x ∈ union r l m := by
  unfold union
  induction m generalizing l with
  | nil => exact h
  | cons a m ih =>
    rw [List.foldl_cons]
    apply ih
    split
    · exact h
    · exact List.mem_append_left _ h

theorem mem_union {l m : List α} {x : α} (h : x ∈ union r l m) : x ∈ l ∨ x ∈ m := by
  unfold union at h
  induction m generalizing l with
  | nil => exact .inl h
  | cons a m ih =>
    rw [List.foldl_cons] at h
    rcases ih h with h | h
    · split at h
      · exact .inl h
      · rcases List.mem_append.mp h with h | h
        · exact .inl h
        · exact .inr (by simp_all)
    · exact .inr (List.mem_cons_of_mem _ h)

theorem covers_union_right {l m : List α} (h : ∀ x ∈ m, r x x = true) : Covers r (union r l m) m := by
  unfold union
  induction m generalizing l with
  | nil => intro x hx; simp at hx
  | cons a m ih =>
    intro x hx
    rw [List.foldl_cons]
    rcases List.mem_cons.mp hx with rfl | hx
    · split
      · rename_i hany
        obtain ⟨y, hy, hr⟩ := List.any_eq_true.mp hany
        exact ⟨y, mem_union_left hy, hr⟩
      · exact ⟨x, mem_union_left (by simp), h x (by simp)⟩
    · exact ih (fun z hz => h z (List.mem_cons_of_mem _ hz)) x hx

theorem Covers.union_left {l k : List α} (h : Covers r l k) (m : List α) :
    Covers r (union r l m) k := h.mono fun _ => mem_union_left

/-- What covers both of two lists covers their union. -/
theorem covers_union {l m k : List α} (hl : Covers r k l) (hm : Covers r k m) :
    Covers r k (union r l m) :=
  fun x hx => (mem_union hx).elim (hl x) (hm x)

/-- Nothing is appended to a list that covers `m`. -/
theorem union_eq_left {l m : List α} (h : Covers r l m) : union r l m = l := by
  unfold union
  induction m with
  | nil => rfl
  | cons a m ih =>
    have ha : l.any (fun y => r y a) = true := List.any_eq_true.mpr (h a (by simp))
    rw [List.foldl_cons, if_pos ha]
    exact ih fun x hx => h x (List.mem_cons_of_mem _ hx)

/-! ## Intersection -/

theorem mem_inter {l m : List α} {x : α} :
    x ∈ inter r l m ↔ x ∈ l ∧ ∃ y ∈ m, r x y = true := by
  simp [inter]

theorem inter_within (l m : List α) : Within r (inter r l m) m :=
  fun _ hx => (mem_inter.mp hx).2

/-- Nothing is dropped from a list within `m`. -/
theorem inter_eq_left {l m : List α} (h : Within r l m) : inter r l m = l := by
  unfold inter
  refine List.filter_eq_self.mpr fun x hx => ?_
  simpa using h x hx

/-! ## With an equivalence -/

namespace EquivOn

variable {p : α → Bool} {U : Set α} (he : EquivOn r p U) {l m k : List α}
include he

/-- An equivalence is one on fewer elements. -/
theorem mono {q : α → Bool} (hq : ∀ x, q x = true → p x = true) : EquivOn r q U where
  refl := he.refl
  symm x hx y hy hqx hqy h := he.symm x hx y hy (hq x hqx) (hq y hqy) h
  trans x hx y hy z hz hqx hqy hqz h h' :=
    he.trans x hx y hy z hz (hq x hqx) (hq y hqy) (hq z hqz) h h'

/-- Inclusion read from either side is the same. -/
theorem covers_of_within (hl : ∀ x ∈ l, x ∈ U ∧ p x = true) (hm : ∀ x ∈ m, x ∈ U ∧ p x = true)
    (h : Within r l m) : Covers r m l := by
  intro x hx
  obtain ⟨y, hy, hr⟩ := h x hx
  exact ⟨y, hy, he.symm x (hl x hx).1 y (hm y hy).1 (hl x hx).2 (hm y hy).2 hr⟩

theorem within_of_covers (hl : ∀ x ∈ l, x ∈ U ∧ p x = true) (hm : ∀ x ∈ m, x ∈ U ∧ p x = true)
    (h : Covers r l m) : Within r m l := by
  intro x hx
  obtain ⟨y, hy, hr⟩ := h x hx
  exact ⟨y, hy, he.symm y (hl y hy).1 x (hm x hx).1 (hl y hy).2 (hm x hx).2 hr⟩

theorem covers_trans (hl : ∀ x ∈ l, x ∈ U ∧ p x = true) (hm : ∀ x ∈ m, x ∈ U ∧ p x = true)
    (hk : ∀ x ∈ k, x ∈ U ∧ p x = true) (h : Covers r l m) (h' : Covers r m k) : Covers r l k := by
  intro x hx
  obtain ⟨y, hy, hr⟩ := h' x hx
  obtain ⟨z, hz, hr'⟩ := h y hy
  exact ⟨z, hz, he.trans z (hl z hz).1 y (hm y hy).1 x (hk x hx).1 (hl z hz).2 (hm y hy).2
    (hk x hx).2 hr' hr⟩

theorem within_trans (hl : ∀ x ∈ l, x ∈ U ∧ p x = true) (hm : ∀ x ∈ m, x ∈ U ∧ p x = true)
    (hk : ∀ x ∈ k, x ∈ U ∧ p x = true) (h : Within r l m) (h' : Within r m k) : Within r l k := by
  intro x hx
  obtain ⟨y, hy, hr⟩ := h x hx
  obtain ⟨z, hz, hr'⟩ := h' y hy
  exact ⟨z, hz, he.trans x (hl x hx).1 y (hm y hy).1 z (hk z hz).1 (hl x hx).2 (hm y hy).2
    (hk z hz).2 hr hr'⟩

/-- Cutting `l` down to `m` keeps covering what lies within `m`. -/
theorem covers_inter (hl : ∀ x ∈ l, x ∈ U ∧ p x = true) (hm : ∀ x ∈ m, x ∈ U ∧ p x = true)
    (hk : ∀ x ∈ k, x ∈ U ∧ p x = true) (hc : Covers r l k) (hw : Within r k m) :
    Covers r (inter r l m) k := by
  intro x hx
  obtain ⟨y, hy, hr⟩ := hc x hx
  obtain ⟨z, hz, hr'⟩ := hw x hx
  refine ⟨y, mem_inter.mpr ⟨hy, z, hz, ?_⟩, hr⟩
  exact he.trans y (hl y hy).1 x (hk x hx).1 z (hm z hz).1 (hl y hy).2 (hk x hx).2 (hm z hz).2 hr hr'

/-- What lies within both of two lists lies within their intersection. -/
theorem within_inter (hl : ∀ x ∈ l, x ∈ U ∧ p x = true) (hm : ∀ x ∈ m, x ∈ U ∧ p x = true)
    (hk : ∀ x ∈ k, x ∈ U ∧ p x = true) (hkl : Within r k l) (hkm : Within r k m) :
    Within r k (inter r l m) := by
  intro x hx
  obtain ⟨y, hy, hxy⟩ := hkl x hx
  obtain ⟨z, hz, hxz⟩ := hkm x hx
  have hyx : r y x = true := he.symm x (hk x hx).1 y (hl y hy).1 (hk x hx).2 (hl y hy).2 hxy
  refine ⟨y, mem_inter.mpr ⟨hy, z, hz, ?_⟩, hxy⟩
  exact he.trans y (hl y hy).1 x (hk x hx).1 z (hm z hz).1 (hl y hy).2 (hk x hx).2 (hm z hz).2 hyx
    hxz

end EquivOn

end UpTo
