import Mathlib.Data.List.Basic
import Mathlib.Tactic.Basic

/-!
# Bytes in base64

* `atob`: the forgiving decoder of the web. White space is left out, padding is taken away where
  that gives whole groups of four, and any other `=` is refused.
* `base64UrlDecode`: the same for the alphabet of a JWT, of which the other one is a spelling.
* `atob_padded`: when it still decodes a text that has been padded to a length.
-/

namespace Js

def isAsciiWhitespace (c : Char) : Bool := ['\t', '\n', '\x0c', '\r', ' '].contains c

/-- The six bits of a letter. -/
def sextet (c : Char) : Option Nat :=
  if 'A' ≤ c ∧ c ≤ 'Z' then some (c.toNat - 'A'.toNat)
  else if 'a' ≤ c ∧ c ≤ 'z' then some (c.toNat - 'a'.toNat + 26)
  else if '0' ≤ c ∧ c ≤ '9' then some (c.toNat - '0'.toNat + 52)
  else if c = '+' then some 62
  else if c = '/' then some 63
  else none

/-- The bytes of groups of four letters; the last group may have two or three. -/
def bytesOf : List Nat → List Nat
  | a :: b :: c :: d :: rest =>
    (a * 4 + b / 16) :: (b % 16 * 16 + c / 4) :: (c % 4 * 64 + d) :: bytesOf rest
  | [a, b, c] => [a * 4 + b / 16, b % 16 * 16 + c / 4]
  | [a, b] => [a * 4 + b / 16]
  | _ => []

/-- The text without an `=` at its end. -/
def dropPad (data : List Char) : List Char :=
  if data.getLast? = some '=' then data.dropLast else data

/-- The bytes of letters only. -/
def decodeLetters (data : List Char) : Option (List Nat) :=
  if data.length % 4 = 1 ∨ data.any (fun c => (sextet c).isNone) then none
  else some (bytesOf (data.filterMap sextet))

/-- The bytes of a text without white space. -/
def decodeForgiving (data : List Char) : Option (List Nat) :=
  decodeLetters (if data.length % 4 = 0 then dropPad (dropPad data) else data)

def withoutWhitespace (text : List Char) : List Char := text.filter fun c => !isAsciiWhitespace c

/-- `atob(text)`. -/
def atob (text : String) : Option (List Nat) := decodeForgiving (withoutWhitespace text.toList)

/-- The letters that the alphabet of a JWT has in the place of others. -/
def standardLetter (c : Char) : Char := if c = '-' then '+' else if c = '_' then '/' else c

def base64UrlDecode (text : String) : Option (List Nat) :=
  atob (String.ofList (text.toList.map standardLetter))

/-! ## Padding -/

theorem decodeLetters_of_mem {data : List Char} (h : '=' ∈ data) : decodeLetters data = none := by
  have hpad : data.any (fun c => (sextet c).isNone) = true :=
    List.any_eq_true.mpr ⟨'=', h, by decide⟩
  rw [decodeLetters, if_pos (.inr hpad)]

theorem dropPad_of_not_mem {data : List Char} (h : '=' ∉ data) : dropPad data = data := by
  rw [dropPad, if_neg fun hlast => h (List.mem_of_getLast? hlast)]

@[simp] theorem dropPad_append (data : List Char) : dropPad (data ++ ['=']) = data := by
  simp [dropPad]

/-- Where padding is not a part of groups of four, it is refused. -/
theorem decodeForgiving_of_mem {data : List Char} (h : '=' ∈ data) (hlen : data.length % 4 ≠ 0) :
    decodeForgiving data = none := by
  rw [decodeForgiving, if_neg hlen, decodeLetters_of_mem h]

/-- The padding of an incomplete group changes nothing. -/
theorem decodeForgiving_padded {data : List Char} {bytes : List Nat}
    (h : decodeForgiving data = some bytes) (hlen : data.length % 4 ≠ 0) :
    decodeForgiving (data ++ List.replicate (4 - data.length % 4) '=') = some bytes := by
  rw [decodeForgiving, if_neg hlen] at h
  have hpad : '=' ∉ data := by
    intro hmem
    rw [decodeLetters_of_mem hmem] at h
    cases h
  have hone : data.length % 4 ≠ 1 := by
    intro hone
    rw [decodeLetters, if_pos (.inl hone)] at h
    cases h
  have hwhole : (data ++ List.replicate (4 - data.length % 4) '=').length % 4 = 0 := by
    rw [List.length_append, List.length_replicate]
    omega
  have hdrop : dropPad (dropPad (data ++ List.replicate (4 - data.length % 4) '=')) = data := by
    have hcases : data.length % 4 = 2 ∨ data.length % 4 = 3 := by omega
    rcases hcases with htwo | hthree
    · have htext : data ++ List.replicate (4 - data.length % 4) '=' = data ++ ['='] ++ ['='] := by
        rw [htwo, List.append_assoc]
        rfl
      rw [htext, dropPad_append, dropPad_append]
    · have htext : data ++ List.replicate (4 - data.length % 4) '=' = data ++ ['='] := by
        rw [hthree]
        rfl
      rw [htext, dropPad_append, dropPad_of_not_mem hpad]
  rw [decodeForgiving, if_pos hwhole, hdrop, h]

theorem withoutWhitespace_padded (text : List Char) (n : Nat) :
    withoutWhitespace (text ++ List.replicate n '=') =
      withoutWhitespace text ++ List.replicate n '=' := by
  rw [withoutWhitespace, List.filter_append, ← withoutWhitespace]
  congr 1
  rw [List.filter_replicate]
  rfl

/-- The number of characters that are left out. -/
theorem length_withoutWhitespace (text : List Char) :
    (withoutWhitespace text).length + text.countP isAsciiWhitespace = text.length := by
  have hsum := List.length_eq_countP_add_countP isAsciiWhitespace (l := text)
  simp only [decide_not, Bool.decide_eq_true] at hsum
  rw [withoutWhitespace, ← List.countP_eq_length_filter, Nat.add_comm, hsum]

/-- A text that decodes, padded to whole groups of four characters: it decodes to the same where it
needs no padding, or where its white space is whole groups as well. -/
theorem atob_padded {text : List Char} {bytes : List Nat} (h : atob (String.ofList text) = some bytes) :
    atob (String.ofList (text ++ List.replicate ((4 - text.length % 4) % 4) '=')) =
      if 4 ∣ text.length ∨ 4 ∣ text.countP isAsciiWhitespace then some bytes else none := by
  have hcount := length_withoutWhitespace text
  rw [atob, String.toList_ofList] at h ⊢
  rw [withoutWhitespace_padded]
  by_cases hwhole : 4 ∣ text.length
  · have hzero : (4 - text.length % 4) % 4 = 0 := by omega
    rw [if_pos (.inl hwhole), hzero, List.replicate_zero, List.append_nil, h]
  · by_cases hspace : 4 ∣ text.countP isAsciiWhitespace
    · have hlen : (withoutWhitespace text).length % 4 = text.length % 4 := by omega
      have hpad : (4 - text.length % 4) % 4 = 4 - (withoutWhitespace text).length % 4 := by omega
      rw [if_pos (.inr hspace), hpad]
      exact decodeForgiving_padded h (by omega)
    · rw [if_neg (by simp [hwhole, hspace])]
      refine decodeForgiving_of_mem ?_ ?_
      · refine List.mem_append_right _ (List.mem_replicate.mpr ⟨by omega, rfl⟩)
      · rw [List.length_append, List.length_replicate]
        omega

end Js
