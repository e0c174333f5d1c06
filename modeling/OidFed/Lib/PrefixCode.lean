import Mathlib.Data.List.Basic

/-!
# Texts that can be read back

`Readable rests text a`: when a rest of some kind follows, the text of `a` tells where it ends and
what it is the text of. What is put together from readable texts is readable:

* `Readable.pair`: one text after another.
* `readable_closed`: the texts of a list, one after the other, and a closing character.
* `readable_separated`: the texts of a list with separators, and a closing character.
-/

namespace PrefixCode

variable {α β τ : Type}

/-- Followed by rests of a kind, the text of `a` is the text of nothing else. -/
def Readable (rests : List τ → Prop) (text : α → List τ) (a : α) : Prop :=
  ∀ b r s, rests r → rests s → text a ++ r = text b ++ s → a = b ∧ r = s

/-- Any rest may follow. -/
def anyRest : List τ → Prop := fun _ => True

theorem Readable.mono {rests rests' : List τ → Prop} {text : α → List τ} {a : α}
    (h : Readable rests text a) (hr : ∀ r, rests' r → rests r) : Readable rests' text a :=
  fun b r s hrest hrest' => h b r s (hr r hrest) (hr s hrest')

/-- A readable text is the text of one value only. -/
theorem Readable.eq {rests : List τ → Prop} {text : α → List τ} {a b : α}
    (h : Readable rests text a) (hnil : rests []) (heq : text a = text b) : a = b := by
  refine (h b [] [] hnil hnil ?_).1
  rw [heq]

/-- Two texts with a separator, where the first may be followed by it. -/
theorem Readable.pair {rests : List τ → Prop} {first : α → List τ} {second : β → List τ} {sep : τ}
    {a : α} {b : β} (ha : Readable anyRest first a) (hb : Readable rests second b) :
    Readable rests (fun p : α × β => first p.1 ++ sep :: second p.2) (a, b) := by
  rintro ⟨a', b'⟩ r s hr hs h
  simp only [List.append_assoc, List.cons_append] at h
  obtain ⟨rfl, hrest⟩ := ha _ _ _ trivial trivial h
  obtain ⟨rfl, rfl⟩ := hb _ _ _ hr hs (List.cons.inj hrest).2
  exact ⟨rfl, rfl⟩

section Lists

variable {rests : List τ → Prop} {code : α → List τ} {close : τ}

/-- The texts of a list one after the other, closed by a character that no text begins with. -/
theorem readable_closed (hrests : ∀ (m : List α) s, rests (m.flatMap code ++ close :: s))
    (hhead : ∀ a, ∃ c t, code a = c :: t ∧ c ≠ close) {l : List α}
    (hl : ∀ a ∈ l, Readable rests code a) :
    Readable anyRest (fun l => l.flatMap code ++ [close]) l := by
  intro m r s _ _ h
  simp only [List.append_assoc, List.singleton_append] at h
  induction l generalizing m with
  | nil =>
    cases m with
    | nil => exact ⟨rfl, (List.cons.inj h).2⟩
    | cons b m =>
      obtain ⟨c, t, hb, hc⟩ := hhead b
      rw [List.flatMap_cons, hb] at h
      exact absurd (List.cons.inj h).1.symm hc
  | cons a l ih =>
    cases m with
    | nil =>
      obtain ⟨c, t, ha, hc⟩ := hhead a
      rw [List.flatMap_cons, ha] at h
      exact absurd (List.cons.inj h).1 hc
    | cons b m =>
      rw [List.flatMap_cons, List.flatMap_cons, List.append_assoc, List.append_assoc] at h
      obtain ⟨rfl, hrest⟩ := hl a (.head l) b _ _ (hrests l r) (hrests m s) h
      obtain ⟨rfl, rfl⟩ := ih (fun a ha => hl a (.tail _ ha)) m hrest
      exact ⟨rfl, rfl⟩

/-- Texts with a separator between them. -/
def separated (sep : τ) : List (List τ) → List τ
  | [] => []
  | [text] => text
  | text :: rest => text ++ sep :: separated sep rest

theorem separated_map_cons (sep : τ) (text : α → List τ) (a : α) (l : List α) :
    separated sep ((a :: l).map text) = text a ++ l.flatMap fun a => sep :: text a := by
  induction l generalizing a with
  | nil => simp [separated]
  | cons b l ih =>
    rw [List.map_cons, List.map_cons, separated, ← List.map_cons, ih]
    · simp
    · simp

/-- The texts of a list with a separator between them, closed by a character. The texts may be
followed by the separator and by the closing character, and begin with neither. -/
theorem readable_separated {text : α → List τ} {sep close : τ} (hsep : sep ≠ close)
    (hrests : ∀ s, rests (sep :: s) ∧ rests (close :: s))
    (hhead : ∀ a, ∃ c t, text a = c :: t ∧ c ≠ close) {l : List α}
    (hl : ∀ a ∈ l, Readable rests text a) :
    Readable anyRest (fun l => separated sep (l.map text) ++ [close]) l := by
  have hfollow : ∀ (m : List α) s, rests ((m.flatMap fun a => sep :: text a) ++ close :: s) := by
    intro m s
    cases m with
    | nil => exact (hrests s).2
    | cons b m => exact (hrests _).1
  have hcode : ∀ a, Readable rests text a → Readable rests (fun a => sep :: text a) a := by
    intro a ha b r s hr hs h
    exact ha b r s hr hs (List.cons.inj h).2
  intro m r s _ _ h
  cases l with
  | nil =>
    cases m with
    | nil => exact ⟨rfl, (List.cons.inj h).2⟩
    | cons b m =>
      obtain ⟨c, t, hb, hc⟩ := hhead b
      simp only [separated_map_cons, List.map_nil, separated, hb] at h
      exact absurd (List.cons.inj h).1.symm hc
  | cons a l =>
    cases m with
    | nil =>
      obtain ⟨c, t, ha, hc⟩ := hhead a
      simp only [separated_map_cons, List.map_nil, separated, ha] at h
      exact absurd (List.cons.inj h).1 hc
    | cons b m =>
      simp only [separated_map_cons, List.append_assoc, List.singleton_append] at h
      obtain ⟨rfl, hrest⟩ := hl a (.head l) b _ _ (hfollow l r) (hfollow m s) h
      have hread : Readable anyRest (fun l => (l.flatMap fun a => sep :: text a) ++ [close]) l :=
        readable_closed hfollow (fun a => ⟨sep, text a, rfl, hsep⟩)
          (fun a ha => hcode a (hl a (.tail _ ha)))
      obtain ⟨rfl, rfl⟩ := hread m r s trivial trivial (by simpa using hrest)
      exact ⟨rfl, rfl⟩

end Lists

end PrefixCode
