import Mathlib.Data.List.Lex
import Mathlib.Order.Lattice

/-!
# The order of strings

The language compares strings by their UTF-16 units. `utf16` are the units of a string, and two
strings with the same units are equal (`utf16_injective`), so that the comparison is a linear order
(`Utf16`). `textLt` and `textLe` are the comparisons of strings.
-/

namespace Js

/-- The units of a character: one, or a surrogate pair. -/
def unitsOf (c : Char) : List Nat :=
  if c.toNat < 0x10000 then [c.toNat]
  else [0xD800 + (c.toNat - 0x10000) / 0x400, 0xDC00 + (c.toNat - 0x10000) % 0x400]

/-- The UTF-16 units of a string. -/
def utf16 (s : String) : List Nat := s.toList.flatMap unitsOf

theorem char_bounds (c : Char) : c.toNat < 0xD800 ∨ 0xDFFF < c.toNat ∧ c.toNat < 0x110000 := by
  have := c.valid
  simp only [UInt32.isValidChar, Nat.isValidChar] at this
  exact this

theorem char_ext {c d : Char} (h : c.toNat = d.toNat) : c = d :=
  Char.ext (UInt32.toNat_inj.mp h)

/-- The units at the front tell the character. -/
theorem unitsOf_append {c d : Char} {l m : List Nat} (h : unitsOf c ++ l = unitsOf d ++ m) :
    c = d ∧ l = m := by
  have hc := char_bounds c
  have hd := char_bounds d
  unfold unitsOf at h
  split at h <;> split at h
  · simp only [List.cons_append, List.nil_append, List.cons.injEq] at h
    exact ⟨char_ext h.1, h.2⟩
  · simp only [List.cons_append, List.nil_append, List.cons.injEq] at h
    omega
  · simp only [List.cons_append, List.nil_append, List.cons.injEq] at h
    omega
  · simp only [List.cons_append, List.nil_append, List.cons.injEq] at h
    exact ⟨char_ext (by omega), h.2.2⟩

theorem utf16_injective : Function.Injective utf16 := by
  suffices ∀ l m : List Char, l.flatMap unitsOf = m.flatMap unitsOf → l = m by
    intro s t h
    exact String.toList_injective (this _ _ h)
  have hne : ∀ c, unitsOf c ≠ [] := by
    intro c
    unfold unitsOf
    split <;> simp
  intro l
  induction l with
  | nil =>
    intro m h
    cases m with
    | nil => rfl
    | cons d m => simp [hne] at h
  | cons c l ih =>
    intro m h
    cases m with
    | nil => simp [hne] at h
    | cons d m =>
      simp only [List.flatMap_cons] at h
      obtain ⟨rfl, hrest⟩ := unitsOf_append h
      rw [ih m hrest]

/-- A string, ordered by its units. -/
@[ext]
structure Utf16 where
  text : String
  deriving DecidableEq

namespace Utf16

instance : LinearOrder Utf16 :=
  LinearOrder.lift' (fun s : Utf16 => utf16 s.text)
    (fun _ _ h => Utf16.ext (utf16_injective h))

end Utf16

/-- `left < right`. -/
def textLt (left right : String) : Bool := decide ((⟨left⟩ : Utf16) < ⟨right⟩)

def textLe (left right : String) : Bool := decide ((⟨left⟩ : Utf16) ≤ ⟨right⟩)

theorem textLe_iff {a b : String} : textLe a b = true ↔ (⟨a⟩ : Utf16) ≤ ⟨b⟩ := by
  simp [textLe]

theorem textLe_total (a b : String) : (textLe a b || textLe b a) = true := by
  simp only [Bool.or_eq_true, textLe_iff]
  exact le_total _ _

theorem textLe_trans {a b c : String} (hab : textLe a b = true) (hbc : textLe b c = true) :
    textLe a c = true :=
  textLe_iff.mpr (le_trans (textLe_iff.mp hab) (textLe_iff.mp hbc))

theorem textLe_antisymm {a b : String} (hab : textLe a b = true) (hba : textLe b a = true) :
    a = b :=
  congrArg Utf16.text (le_antisymm (textLe_iff.mp hab) (textLe_iff.mp hba))

example : textLt "😀" "\uffff" = true := by decide

end Js
