import Mathlib.Data.String.Basic

/-!
# `toLowerCase`

The method of strings is a parameter. `LowersAscii` says what it makes of a text where that is ASCII;
an ASCII text becomes the text of its letters in lower case (`LowersAscii.eq`).
-/

namespace OidFed

/-- The letter that a character becomes in lower case, where that is an ASCII letter: the Kelvin sign
becomes a `k`. -/
def foldLetter (c : Char) : Char := if c = '\u212a' then 'k' else c.toLower

/-- What `toLowerCase` makes of a text, where that is ASCII: of all other characters the Kelvin sign
alone becomes an ASCII letter. -/
def LowersAscii (toLowerCase : String → String) : Prop :=
  ∀ s t : String, (∀ c ∈ t.toList, c.toNat < 128) →
    (toLowerCase s = t ↔ s.toList.map foldLetter = t.toList)

theorem map_foldLetter {text : List Char} (h : '\u212a' ∉ text) :
    text.map foldLetter = text.map Char.toLower := by
  refine List.map_congr_left fun c hc => ?_
  have hne : c ≠ '\u212a' := by
    rintro rfl
    exact h hc
  rw [foldLetter, if_neg hne]

theorem toLower_ascii {c : Char} (h : c.toLower.toNat < 128) : c ≠ '\u212a' := by
  rintro rfl
  revert h
  decide

theorem LowersAscii.eq {toLowerCase : String → String} (h : LowersAscii toLowerCase) {text : String}
    (hascii : ∀ c ∈ text.toList, c.toNat < 128) :
    toLowerCase text = String.ofList (text.toList.map Char.toLower) := by
  have hkelvin : '\u212a' ∉ text.toList := by
    intro hmem
    have hlt := hascii _ hmem
    revert hlt
    decide
  refine (h text _ ?_).mpr ?_
  · intro c hc
    rw [String.toList_ofList, List.mem_map] at hc
    obtain ⟨d, hd, rfl⟩ := hc
    have htable : ∀ n < 128, (Char.ofNat n).toLower.toNat < 128 := by decide
    have hlt := htable d.toNat (hascii d hd)
    rwa [Char.ofNat_toNat] at hlt
  · rw [String.toList_ofList, map_foldLetter hkelvin]

end OidFed
