import Mathlib.Data.Nat.Digits.Defs

/-!
# Digits of a fixed number

`placeDigits b k n` are the last `k` digits of `n` in the base `b`, the first the highest.

* `placeDigits_add`: the first digits, then the others. `placeDigits_pow`: the digits of each digit of a power
  of the base.
* `placeDigits_ofDigits`: the digits of a number that is made of digits.
* `placeDigits_inj`, `placeDigits_prefix_iff`: what the digits tell of a number.
-/

namespace Positional

def placeDigits (b : Nat) : Nat → Nat → List Nat
  | 0, _ => []
  | k + 1, n => placeDigits b k (n / b) ++ [n % b]

variable {b : Nat}

@[simp] theorem length_placeDigits (k n : Nat) : (placeDigits b k n).length = k := by
  induction k generalizing n with
  | zero => rfl
  | succ k ih => rw [placeDigits, List.length_append, ih, List.length_singleton]

theorem mem_placeDigits_lt (hb : 0 < b) {k n d : Nat} (h : d ∈ placeDigits b k n) : d < b := by
  induction k generalizing n with
  | zero => simp [placeDigits] at h
  | succ k ih =>
    rw [placeDigits, List.mem_append, List.mem_singleton] at h
    rcases h with h | rfl
    · exact ih h
    · exact Nat.mod_lt n hb

theorem placeDigits_add (j k n : Nat) : placeDigits b (j + k) n = placeDigits b j (n / b ^ k) ++ placeDigits b k n := by
  induction k generalizing n with
  | zero => rw [Nat.add_zero, Nat.pow_zero, Nat.div_one, placeDigits, List.append_nil]
  | succ k ih =>
    rw [← Nat.add_assoc, placeDigits, placeDigits, ih, Nat.div_div_eq_div_mul, ← Nat.pow_succ', List.append_assoc]

theorem placeDigits_succ (k n : Nat) : placeDigits b (k + 1) n = n / b ^ k % b :: placeDigits b k n := by
  rw [Nat.add_comm, placeDigits_add]
  rfl

theorem placeDigits_zero (k : Nat) : placeDigits b k 0 = List.replicate k 0 := by
  induction k with
  | zero => rfl
  | succ k ih => rw [placeDigits, Nat.zero_div, Nat.zero_mod, ih, List.replicate_succ']

/-- The digits in a power of the base, and of each the digits in the base. -/
theorem placeDigits_pow (w k n : Nat) : placeDigits b (k * w) n = (placeDigits (b ^ w) k n).flatMap (placeDigits b w) := by
  have hmod : ∀ w n, placeDigits b w (n % b ^ w) = placeDigits b w n := by
    intro w
    induction w with
    | zero => exact fun _ => rfl
    | succ w ih =>
      intro n
      rw [placeDigits, placeDigits, Nat.pow_succ', Nat.mod_mul_right_div_self, ih, Nat.mod_mul_right_mod]
  induction k generalizing n with
  | zero => rw [Nat.zero_mul]; rfl
  | succ k ih =>
    rw [Nat.succ_mul, placeDigits_add, placeDigits, ih, List.flatMap_append, List.flatMap_singleton, hmod]

/-- The digits of what is made of digits, the first the lowest. -/
theorem placeDigits_ofDigits {l : List Nat} (h : ∀ d ∈ l, d < b) :
    placeDigits b l.length (Nat.ofDigits b l) = l.reverse := by
  induction l with
  | nil => rfl
  | cons d l ih =>
    have hd : d < b := h d List.mem_cons_self
    have hrest := ih fun e he => h e (List.mem_cons_of_mem _ he)
    rw [List.length_cons, placeDigits, Nat.ofDigits_cons, Nat.add_mul_div_left _ _ (by omega),
      Nat.div_eq_of_lt hd, Nat.zero_add, hrest, Nat.add_mul_mod_self_left, Nat.mod_eq_of_lt hd,
      List.reverse_cons]

theorem ofDigits_placeDigits {k n : Nat} (hn : n < b ^ k) :
    Nat.ofDigits b (placeDigits b k n).reverse = n := by
  induction k generalizing n with
  | zero =>
    rw [Nat.pow_zero] at hn
    simp [placeDigits]
    omega
  | succ k ih =>
    have hdiv : n / b < b ^ k := Nat.div_lt_of_lt_mul (by rwa [← Nat.pow_succ'])
    rw [placeDigits, List.reverse_append, List.reverse_singleton, List.singleton_append,
      Nat.ofDigits_cons, ih hdiv]
    exact Nat.mod_add_div n b

theorem placeDigits_inj {k m n : Nat} (hm : m < b ^ k) (hn : n < b ^ k) :
    placeDigits b k m = placeDigits b k n ↔ m = n := by
  refine ⟨fun h => ?_, congrArg _⟩
  rw [← ofDigits_placeDigits hm, h, ofDigits_placeDigits hn]

/-- The first digits tell the number without its last ones. -/
theorem placeDigits_prefix_iff {j k m n : Nat} (hm : m < b ^ j) (hn : n < b ^ (j + k)) :
    placeDigits b j m <+: placeDigits b (j + k) n ↔ n / b ^ k = m := by
  have hdiv : n / b ^ k < b ^ j := Nat.div_lt_of_lt_mul (by rwa [← Nat.pow_add, Nat.add_comm k j])
  rw [placeDigits_add, List.prefix_iff_eq_take, List.take_left' (by rw [length_placeDigits, length_placeDigits])]
  exact (placeDigits_inj hm hdiv).trans eq_comm

end Positional
