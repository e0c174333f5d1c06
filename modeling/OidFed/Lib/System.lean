/-!
# Systems and their reachable states

A system is a type of states with its initial states and its steps. What holds at first and is
kept by every step holds in every reachable state (`Reach.invariant`), and what holds in one and is
kept holds in all later ones (`Later.keeps`); what relates every state to the next, and is reflexive
and transitive, relates the states of a run (`Later.relates`). What every step makes smaller bounds the
length of a run (`Steps.length_le`).
-/

/-- States, those a run starts in, and the steps between them. -/
structure System where
  St : Type
  init : St → Prop
  step : St → St → Prop

namespace System

variable (S : System)

/-- The states that a run reaches. -/
inductive Reach : S.St → Prop
  | init {s : S.St} : S.init s → Reach s
  | step {s s' : S.St} : Reach s → S.step s s' → Reach s'

/-- A run leads from one state to another. -/
inductive Later (s : S.St) : S.St → Prop
  | refl : Later s s
  | step {s' s'' : S.St} : Later s s' → S.step s' s'' → Later s s''

variable {S}

theorem Reach.invariant {I : S.St → Prop} (hinit : ∀ s, S.init s → I s)
    (hstep : ∀ s s', I s → S.step s s' → I s') {s : S.St} (h : S.Reach s) : I s := by
  induction h with
  | init hs => exact hinit _ hs
  | step _ hs ih => exact hstep _ _ ih hs

theorem Reach.later {s s' : S.St} (h : S.Reach s) (hs : S.Later s s') : S.Reach s' := by
  induction hs with
  | refl => exact h
  | step _ hs ih => exact ih.step hs

/-- What every step keeps holds later. -/
theorem Later.keeps {I : S.St → Prop} (hstep : ∀ s s', I s → S.step s s' → I s') {s s' : S.St}
    (hI : I s) (hs : S.Later s s') : I s' := by
  induction hs with
  | refl => exact hI
  | step _ hst ih => exact hstep _ _ ih hst

/-- A relation of each reachable state to the next relates the states of a run. -/
theorem Later.relates {R : S.St → S.St → Prop} (hrefl : ∀ s, R s s)
    (htrans : ∀ s₁ s₂ s₃, R s₁ s₂ → R s₂ s₃ → R s₁ s₃)
    (hstep : ∀ s s', S.Reach s → S.step s s' → R s s') {s s' : S.St} (h : S.Reach s)
    (hs : S.Later s s') : R s s' := by
  induction hs with
  | refl => exact hrefl s
  | step hs hst ih => exact htrans _ _ _ ih (hstep _ _ (h.later hs) hst)

/-- A run of so many steps leads from one state to another. -/
inductive Steps (s : S.St) : Nat → S.St → Prop
  | refl : Steps s 0 s
  | step {n : Nat} {s' s'' : S.St} : Steps s n s' → S.step s' s'' → Steps s (n + 1) s''

theorem Steps.reach {s s' : S.St} {n : Nat} (h : S.Reach s) (hs : S.Steps s n s') : S.Reach s' := by
  induction hs with
  | refl => exact h
  | step _ hst ih => exact ih.step hst

theorem Steps.length_le {measure : S.St → Nat}
    (hstep : ∀ s s', S.Reach s → S.step s s' → measure s' < measure s) {s s' : S.St} {n : Nat}
    (h : S.Reach s) (hs : S.Steps s n s') : n + measure s' ≤ measure s := by
  induction hs with
  | refl => omega
  | step hs hst ih =>
    have hlt := hstep _ _ (hs.reach h) hst
    omega

end System
