import OidFed.Js.Dict

/-!
# Runs of steps that may stop

A list of steps `f · a`, each of which may fail, is run from a state. `run_establishes` is the
rule for steps with a postcondition each: if a step establishes its own postcondition, and keeps
those of the steps before it that `R` relates it to, then after the whole run every postcondition
holds. The order of the steps enters through `List.Pairwise R` only. `foldrM_induct` is induction
over a run from the last element, and `ErrorsIn P` says that a run stops with errors in `P` only.
-/

namespace Pipeline

open Js

variable {σ α ε : Type} {f : σ → α → Except ε σ}

/-- What every step keeps, the run keeps. -/
theorem run_invariant (Inv : σ → Prop) {l : List α}
    (hstep : ∀ a ∈ l, ∀ s s', Inv s → f s a = .ok s' → Inv s') {s s' : σ} (hs : Inv s)
    (h : l.foldlM f s = .ok s') : Inv s' := by
  induction l generalizing s with
  | nil =>
    obtain rfl : s = s' := Except.ok.inj h
    exact hs
  | cons a l ih =>
    rw [List.foldlM_cons] at h
    obtain ⟨s₁, ha, hl⟩ := bind_eq_ok.mp h
    exact ih (fun b hb => hstep b (List.mem_cons_of_mem _ hb))
      (hstep a List.mem_cons_self s s₁ hs ha) hl

/-- A run goes through if every step does, and keeps what the next one needs. -/
theorem run_isOk (Inv : σ → Prop) {l : List α}
    (hstep : ∀ a ∈ l, ∀ s, Inv s → ∃ s', f s a = .ok s' ∧ Inv s') {s : σ} (hs : Inv s) :
    ∃ s', l.foldlM f s = .ok s' ∧ Inv s' := by
  induction l generalizing s with
  | nil => exact ⟨s, rfl, hs⟩
  | cons a l ih =>
    obtain ⟨s₁, ha, hs₁⟩ := hstep a List.mem_cons_self s hs
    obtain ⟨s', hl, hs'⟩ := ih (fun b hb => hstep b (List.mem_cons_of_mem _ hb)) hs₁
    refine ⟨s', ?_, hs'⟩
    rw [List.foldlM_cons]
    exact bind_eq_ok.mpr ⟨s₁, ha, hl⟩

/-- Every step's postcondition holds at the end. -/
theorem run_establishes {Inv : σ → Prop} (Post : α → σ → Prop) {R : α → α → Prop} {l : List α}
    (hR : l.Pairwise R)
    (hinv : ∀ a ∈ l, ∀ s s', Inv s → f s a = .ok s' → Inv s')
    (hpost : ∀ a ∈ l, ∀ s s', Inv s → f s a = .ok s' → Post a s')
    (hkeep : ∀ a ∈ l, ∀ b ∈ l, R a b → ∀ s s', Inv s → Post a s → f s b = .ok s' → Post a s')
    {s s' : σ} (hs : Inv s) (h : l.foldlM f s = .ok s') : ∀ a ∈ l, Post a s' := by
  induction l generalizing s with
  | nil => simp
  | cons a l ih =>
    rw [List.foldlM_cons] at h
    obtain ⟨s₁, ha, hl⟩ := bind_eq_ok.mp h
    have hmem : ∀ b ∈ l, b ∈ a :: l := fun b hb => List.mem_cons_of_mem _ hb
    obtain ⟨hRa, hRl⟩ := List.pairwise_cons.mp hR
    have hs₁ := hinv a List.mem_cons_self s s₁ hs ha
    intro b hb
    rcases List.mem_cons.mp hb with rfl | hb
    · -- the run from `s₁` on keeps both the invariant and this postcondition
      have hrun := run_invariant (fun s => Inv s ∧ Post b s) (fun c hc t t' ht hc' =>
        ⟨hinv c (hmem c hc) t t' ht.1 hc',
          hkeep b List.mem_cons_self c (hmem c hc) (hRa c hc) t t' ht.1 ht.2 hc'⟩)
        ⟨hs₁, hpost b List.mem_cons_self s s₁ hs ha⟩ hl
      exact hrun.2
    · exact ih hRl (fun c hc => hinv c (hmem c hc)) (fun c hc => hpost c (hmem c hc))
        (fun c hc d hd => hkeep c (hmem c hc) d (hmem d hd)) hs₁ hl b hb

/-- A run on states that represent others goes as the run on these. -/
theorem foldlM_map {τ : Type} {f' : τ → α → Except ε τ} (g : σ → τ) {l : List α}
    (h : ∀ a ∈ l, ∀ s, f' (g s) a = (f s a).map g) (s : σ) :
    l.foldlM f' (g s) = (l.foldlM f s).map g := by
  induction l generalizing s with
  | nil => rfl
  | cons a l ih =>
    rw [List.foldlM_cons, List.foldlM_cons, h a List.mem_cons_self s]
    cases f s a with
    | error e => rfl
    | ok s' => exact ih (fun b hb => h b (List.mem_cons_of_mem _ hb)) s'

/-- What holds at the start, and passes from each step of a run from the last element to the
next, holds at the end. -/
theorem foldrM_induct {g : α → σ → Except ε σ} (Inv : List α → σ → Prop) {init : σ}
    (hinit : Inv [] init)
    (hstep : ∀ a done s s', Inv done s → g a s = .ok s' → Inv (a :: done) s') {l : List α} {s : σ}
    (h : l.foldrM g init = .ok s) : Inv l s := by
  induction l generalizing s with
  | nil =>
    obtain rfl : init = s := Except.ok.inj h
    exact hinit
  | cons a rest ih =>
    rw [List.foldrM_cons] at h
    obtain ⟨s₀, hrest, ha⟩ := bind_eq_ok.mp h
    exact hstep a rest s₀ s (ih hrest) ha

/-- Every step of a loop for its effect has gone through. -/
theorem forM_eq_ok {f : α → Except ε Unit} {l : List α} (h : l.forM f = .ok ()) :
    ∀ a ∈ l, f a = .ok () := by
  induction l with
  | nil => simp
  | cons a l ih =>
    obtain ⟨⟨⟩, ha, hl⟩ := bind_eq_ok.mp (show (f a >>= fun _ => l.forM f) = .ok () from h)
    intro b hb
    rcases List.mem_cons.mp hb with rfl | hb
    · exact ha
    · exact ih hl b hb

/-- And it goes through as a whole exactly then. -/
theorem forM_eq_ok_iff {f : α → Except ε Unit} {l : List α} :
    l.forM f = .ok () ↔ ∀ a ∈ l, f a = .ok () := by
  refine ⟨forM_eq_ok, fun h => ?_⟩
  induction l with
  | nil => rfl
  | cons a l ih =>
    have hrest := ih fun b hb => h b (List.mem_cons_of_mem _ hb)
    exact bind_eq_ok.mpr ⟨(), h a List.mem_cons_self, hrest⟩

/-! ## Errors -/

/-- `x` fails only with errors in `P`. -/
def ErrorsIn (P : ε → Prop) (x : Except ε σ) : Prop := ∀ e, x = .error e → P e

variable {P : ε → Prop}

theorem ErrorsIn.ok (s : σ) : ErrorsIn P (.ok s) := fun e h => by simp at h

theorem ErrorsIn.error {e : ε} (h : P e) : ErrorsIn P (.error e : Except ε σ) :=
  fun _ h' => Except.error.inj h' ▸ h

theorem ErrorsIn.bind {τ : Type} {x : Except ε σ} {g : σ → Except ε τ} (hx : ErrorsIn P x)
    (hg : ∀ s, x = .ok s → ErrorsIn P (g s)) : ErrorsIn P (x >>= g) := by
  intro e h
  cases x with
  | error e' =>
    obtain rfl : e' = e := Except.error.inj h
    exact hx e' rfl
  | ok s => exact hg s rfl e h

theorem ErrorsIn.foldlM {l : List α} (h : ∀ a ∈ l, ∀ s, ErrorsIn P (f s a)) (s : σ) :
    ErrorsIn P (l.foldlM f s) := by
  induction l generalizing s with
  | nil => exact .ok s
  | cons a l ih =>
    rw [List.foldlM_cons]
    exact (h a List.mem_cons_self s).bind fun s' _ =>
      ih (fun b hb => h b (List.mem_cons_of_mem _ hb)) s'

theorem ErrorsIn.foldrM {g : α → σ → Except ε σ} {l : List α}
    (h : ∀ a ∈ l, ∀ s, ErrorsIn P (g a s)) (s : σ) : ErrorsIn P (l.foldrM g s) := by
  induction l with
  | nil => exact .ok s
  | cons a l ih =>
    rw [List.foldrM_cons]
    exact (ih fun b hb => h b (List.mem_cons_of_mem _ hb)).bind fun s' _ =>
      h a List.mem_cons_self s'

theorem ErrorsIn.forM {f : α → Except ε Unit} {l : List α} (h : ∀ a ∈ l, ErrorsIn P (f a)) :
    ErrorsIn P (l.forM f) := by
  induction l with
  | nil => exact .ok ()
  | cons a l ih =>
    have hrest := ih fun b hb => h b (List.mem_cons_of_mem _ hb)
    exact (h a List.mem_cons_self).bind fun _ _ => hrest

theorem ErrorsIn.updateM {κ β γ : Type} [DecidableEq κ]
    {f : κ → β → Option γ → Except ε (Option γ)} {entries : List (κ × β)}
    (h : ∀ e ∈ entries, ∀ cur, ErrorsIn P (f e.1 e.2 cur)) (d : Dict κ γ) :
    ErrorsIn P (Dict.updateM f entries d) :=
  .foldlM (fun e he _ => (h e he _).bind fun _ _ => .ok _) d

end Pipeline
