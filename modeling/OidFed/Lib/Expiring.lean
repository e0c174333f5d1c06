import Mathlib.Order.Lattice
import Mathlib.Data.List.Basic

/-!
# Registers of expiring records

A register remembers each key it grants until a time, so that it grants the key only once while
the record lives.

* `Use`: one use of a register: the key asked for, the time until which it would be remembered,
  the register's own time, and whether it was granted.
* `UseStep`: what a use may do. Records that have expired may be dropped, the others are kept; a
  key is granted only where no live record has it, and is recorded then.
* `Run.granted_again`: over any sequence of uses whose times do not decrease, a key is granted
  again only when the earlier record has expired by the register's time.
-/

namespace Expiring

variable {κ τ : Type}

/-- A key, and the time until which it is remembered. -/
abbrev Records (κ τ : Type) := List (κ × τ)

structure Use (κ τ : Type) where
  key : κ
  expiry : τ
  now : τ
  granted : Bool

section Order

variable [LinearOrder τ]

structure UseStep (before : Records κ τ) (u : Use κ τ) (after : Records κ τ) : Prop where
  kept : ∀ e ∈ before, u.now < e.2 → e ∈ after
  fresh : u.granted = true → ∀ e ∈ before, u.now < e.2 → e.1 ≠ u.key
  recorded : u.granted = true → (u.key, u.expiry) ∈ after

/-- A sequence of steps, of which those without a use leave the register as it is. -/
inductive Run : Records κ τ → List (Option (Use κ τ)) → Records κ τ → Prop
  | nil (r : Records κ τ) : Run r [] r
  | skip {r r' : Records κ τ} {us : List (Option (Use κ τ))} : Run r us r' → Run r (none :: us) r'
  | use {r r₁ r' : Records κ τ} {u : Use κ τ} {us : List (Option (Use κ τ))} :
      UseStep r u r₁ → Run r₁ us r' → Run r (some u :: us) r'

/-- The times of a sequence do not decrease. -/
def Nondecreasing (us : List (Option (Use κ τ))) : Prop :=
  us.Pairwise fun u v => ∀ a ∈ u, ∀ b ∈ v, a.now ≤ b.now

/-- A use that grants the key of a record comes after the record's expiry. -/
theorem Run.granted_after {r r' : Records κ τ} {us : List (Option (Use κ τ))} (h : Run r us r')
    (hnow : Nondecreasing us) {e : κ × τ} (he : e ∈ r) {v : Use κ τ} (hv : some v ∈ us)
    (hgranted : v.granted = true) (hkey : v.key = e.1) : e.2 ≤ v.now := by
  induction h with
  | nil => simp at hv
  | skip _ ih =>
    have hv' := (List.mem_cons.mp hv).resolve_left (by simp)
    exact ih (List.Pairwise.of_cons hnow) he hv'
  | @use r r₁ r' u us hstep _ ih =>
    obtain ⟨hhead, htail⟩ := List.pairwise_cons.mp hnow
    by_cases hlive : u.now < e.2
    · rcases List.mem_cons.mp hv with heq | hv'
      · obtain rfl : v = u := Option.some.inj heq
        exact absurd hkey.symm (hstep.fresh hgranted e he hlive)
      · exact ih htail (hstep.kept e he hlive) hv'
    · -- the record has expired at the head, and time goes on
      have hexpired : e.2 ≤ u.now := le_of_not_gt hlive
      rcases List.mem_cons.mp hv with heq | hv'
      · obtain rfl : v = u := Option.some.inj heq
        exact hexpired
      · exact le_trans hexpired (hhead (some v) hv' u rfl v rfl)

/-- A key that is granted twice is granted the second time after the first record's expiry. -/
theorem Run.granted_again {r r' : Records κ τ} {us : List (Option (Use κ τ))} (h : Run r us r')
    (hnow : Nondecreasing us) :
    us.Pairwise fun u v => ∀ a ∈ u, ∀ b ∈ v, a.granted = true → b.granted = true →
      a.key = b.key → a.expiry ≤ b.now := by
  induction h with
  | nil => exact List.Pairwise.nil
  | skip _ ih =>
    exact List.pairwise_cons.mpr ⟨by simp, ih (List.Pairwise.of_cons hnow)⟩
  | @use r r₁ r' u us hstep hrun ih =>
    have htail := List.Pairwise.of_cons hnow
    refine List.pairwise_cons.mpr ⟨?_, ih htail⟩
    intro v hv a ha b hb hga hgb hkey
    obtain rfl : u = a := by simpa using ha
    obtain rfl : v = some b := hb
    exact hrun.granted_after htail (hstep.recorded hga) hv hgb hkey.symm

end Order

end Expiring
