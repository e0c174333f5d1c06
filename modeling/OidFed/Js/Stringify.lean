import OidFed.Js.Json
import OidFed.Lib.PrefixCode

/-!
# `JSON.stringify`

The text of a value, as characters. Strings are quoted with the escapes of the language; the text
of a number is a parameter, of which `NumberTexts` says that it consists of the characters of
numbers and tells the number.

`stringify_injective`: then the text of a value tells the value.
-/

namespace Js

open PrefixCode

/-! ## Quoted strings -/

/-- The characters with a short escape, and its letters. -/
def escapes : List (Nat × Char) :=
  [(0x22, '\x22'), (0x5c, '\x5c'), (0x08, 'b'), (0x09, 't'), (0x0a, 'n'), (0x0c, 'f'), (0x0d, 'r')]

def escapeLetter (c : Char) : Option Char := escapes.lookup c.toNat

/-- A character between quotation marks. -/
def quoteChar (c : Char) : List Char :=
  match escapeLetter c with
  | some letter => ['\x5c', letter]
  | none =>
    if c.toNat < 0x20 then
      ['\x5c', 'u', '0', '0', Nat.digitChar (c.toNat / 16), Nat.digitChar (c.toNat % 16)]
    else [c]

def quote (s : String) : List Char := '\x22' :: s.toList.flatMap quoteChar ++ ['\x22']

theorem mem_escapes {c letter : Char} (h : escapeLetter c = some letter) :
    (c.toNat, letter) ∈ escapes :=
  (lookup_eq_some_iff_mem (by decide) _ _).mp h

theorem escapeLetter_injective {c d letter : Char} (hc : escapeLetter c = some letter)
    (hd : escapeLetter d = some letter) : c = d := by
  have htable : ∀ p ∈ escapes, ∀ q ∈ escapes, p.2 = q.2 → p.1 = q.1 := by decide
  exact Char.toNat_inj.mp (htable _ (mem_escapes hc) _ (mem_escapes hd) rfl)

theorem escapeLetter_ne_u {c letter : Char} (h : escapeLetter c = some letter) : letter ≠ 'u' := by
  have htable : ∀ p ∈ escapes, p.2 ≠ 'u' := by decide
  exact htable _ (mem_escapes h)

theorem digitChar_injective {a b : Nat} (ha : a < 16) (hb : b < 16)
    (h : Nat.digitChar a = Nat.digitChar b) : a = b := by
  have htable : ∀ a < 16, ∀ b < 16, Nat.digitChar a = Nat.digitChar b → a = b := by decide
  exact htable a ha b hb h

/-- A quoted character begins with a backslash, or is itself and neither a backslash nor a mark. -/
theorem quoteChar_head (c : Char) :
    (∃ t, quoteChar c = '\x5c' :: t) ∨ quoteChar c = [c] ∧ c ≠ '\x5c' ∧ c ≠ '\x22' := by
  unfold quoteChar
  cases hc : escapeLetter c with
  | some letter => exact .inl ⟨_, rfl⟩
  | none =>
    by_cases hctrl : c.toNat < 0x20
    · simp only [if_pos hctrl]
      exact .inl ⟨_, rfl⟩
    · simp only [if_neg hctrl]
      refine .inr ⟨trivial, ?_, ?_⟩
      · rintro rfl
        simp [escapeLetter, escapes] at hc
      · rintro rfl
        simp [escapeLetter, escapes] at hc

theorem readable_quoteChar (c : Char) : Readable anyRest quoteChar c := by
  intro d r s _ _ h
  unfold quoteChar at h
  cases hc : escapeLetter c with
  | some e =>
    cases hd : escapeLetter d with
    | some e' =>
      simp only [hc, hd, List.cons_append, List.nil_append, List.cons.injEq, true_and] at h
      obtain ⟨rfl, rfl⟩ := h
      exact ⟨escapeLetter_injective hc hd, rfl⟩
    | none =>
      simp only [hc, hd] at h
      split at h
      · -- a short escape is none with `u`
        have hu := (List.cons.inj (List.cons.inj h).2).1
        exact absurd hu (escapeLetter_ne_u hc)
      · have hslash := (List.cons.inj h).1
        rw [← hslash] at hd
        simp [escapeLetter, escapes] at hd
  | none =>
    cases hd : escapeLetter d with
    | some e' =>
      simp only [hc, hd] at h
      split at h
      · have hu := (List.cons.inj (List.cons.inj h).2).1
        exact absurd hu.symm (escapeLetter_ne_u hd)
      · have hslash := (List.cons.inj h).1
        rw [hslash] at hc
        simp [escapeLetter, escapes] at hc
    | none =>
      simp only [hc, hd] at h
      split at h <;> split at h
      · rename_i hcc hdd
        simp only [List.cons_append, List.nil_append, List.cons.injEq, true_and] at h
        obtain ⟨hhigh, hlow, rfl⟩ := h
        -- two control characters: their two digits agree
        have h1 := digitChar_injective (by omega) (by omega) hhigh
        have h2 := digitChar_injective (by omega) (by omega) hlow
        exact ⟨Char.toNat_inj.mp (by omega), rfl⟩
      · have hslash := (List.cons.inj h).1
        rw [← hslash] at hd
        simp [escapeLetter, escapes] at hd
      · have hslash := (List.cons.inj h).1
        rw [hslash] at hc
        simp [escapeLetter, escapes] at hc
      · obtain ⟨rfl, hrest⟩ := List.cons.inj h
        exact ⟨rfl, by simpa using hrest⟩

theorem readable_quote (s : String) : Readable anyRest quote s := by
  intro t r r' _ _ h
  have hread : Readable anyRest (fun l => l.flatMap quoteChar ++ ['\x22']) s.toList := by
    refine readable_closed (fun _ _ => trivial) (fun c => ?_) (fun c _ => readable_quoteChar c)
    rcases quoteChar_head c with ⟨t, ht⟩ | ⟨hself, -, hmark⟩
    · exact ⟨_, t, ht, by decide⟩
    · exact ⟨c, [], hself, hmark⟩
  obtain ⟨hst, rfl⟩ := hread t.toList r r' trivial trivial (List.cons.inj h).2
  exact ⟨String.toList_injective hst, rfl⟩

/-! ## Values -/

section Values

variable (numberText : Rat → String)

mutual

def jsonText : Json → List Char
  | .null => ['n', 'u', 'l', 'l']
  | .bool true => ['t', 'r', 'u', 'e']
  | .bool false => ['f', 'a', 'l', 's', 'e']
  | .num q => (numberText q).toList
  | .str s => quote s
  | .arr items => '[' :: separated ',' (itemJsonTexts items) ++ [']']
  | .obj members => '\x7b' :: separated ',' (memberJsonTexts members) ++ ['\x7d']

def itemJsonTexts : List Json → List (List Char)
  | [] => []
  | v :: rest => jsonText v :: itemJsonTexts rest

def memberJsonTexts : List (String × Json) → List (List Char)
  | [] => []
  | (k, v) :: rest => (quote k ++ ':' :: jsonText v) :: memberJsonTexts rest

end

/-- `JSON.stringify(value)`. -/
def stringify (v : Json) : String := String.ofList (jsonText numberText v)

theorem itemJsonTexts_eq (items : List Json) :
    itemJsonTexts numberText items = items.map (jsonText numberText) := by
  induction items with
  | nil => rfl
  | cons v rest ih => rw [itemJsonTexts, ih, List.map_cons]

theorem memberJsonTexts_eq (members : List (String × Json)) :
    memberJsonTexts numberText members =
      members.map fun p => quote p.1 ++ ':' :: jsonText numberText p.2 := by
  induction members with
  | nil => rfl
  | cons p rest ih => rw [memberJsonTexts, ih, List.map_cons]

/-- The characters that the texts of numbers are made of. -/
def numberChars : List Char :=
  ['0', '1', '2', '3', '4', '5', '6', '7', '8', '9', '+', '-', '.', 'e']

/-- What is known of the texts of numbers. -/
structure NumberTexts : Prop where
  injective : Function.Injective numberText
  chars : ∀ q, ∀ c ∈ (numberText q).toList, c ∈ numberChars
  nonempty : ∀ q, (numberText q).toList ≠ []

/-- What a text may be followed by: nothing, or what separates or closes values. -/
def Ends (r : List Char) : Prop := ∀ c ∈ r.head?, c ∈ [',', ']', '\x7d']

/-- The kind of the values whose texts begin with a character. -/
def kindOf (c : Char) : Nat :=
  if c = 'n' then 0
  else if c = 't' ∨ c = 'f' then 1
  else if c ∈ numberChars then 2
  else if c = '\x22' then 3
  else if c = '[' then 4
  else if c = '\x7b' then 5
  else 6

def Json.kind : Json → Nat
  | .null => 0
  | .bool _ => 1
  | .num _ => 2
  | .str _ => 3
  | .arr _ => 4
  | .obj _ => 5

variable {numberText}

theorem jsonText_head (hn : NumberTexts numberText) (v : Json) :
    ∃ c t, jsonText numberText v = c :: t ∧ kindOf c = v.kind := by
  cases v with
  | null => exact ⟨_, _, by rw [jsonText], by decide⟩
  | bool b => cases b <;> exact ⟨_, _, by rw [jsonText], by decide⟩
  | str s =>
    refine ⟨_, _, by rw [jsonText, quote, List.cons_append], ?_⟩
    simp [kindOf, numberChars, Json.kind]
  | arr items =>
    refine ⟨_, _, by rw [jsonText, List.cons_append], ?_⟩
    simp [kindOf, numberChars, Json.kind]
  | obj members =>
    refine ⟨_, _, by rw [jsonText, List.cons_append], ?_⟩
    simp [kindOf, numberChars, Json.kind]
  | num q =>
    obtain ⟨c, t, hct⟩ := List.exists_cons_of_ne_nil (hn.nonempty q)
    refine ⟨c, t, by rw [jsonText, hct], ?_⟩
    have htable : ∀ c ∈ numberChars, kindOf c = 2 := by simp [numberChars, kindOf]
    exact htable c (hn.chars q c (by rw [hct]; exact .head t))

theorem readable_numberText (hn : NumberTexts numberText) (q : Rat) :
    Readable Ends (fun q => (numberText q).toList) q := by
  intro p r s hr hs h
  have htake : ∀ (q : Rat) r, Ends r →
      ((numberText q).toList ++ r).takeWhile (· ∈ numberChars) = (numberText q).toList := by
    intro q r hr
    rw [List.takeWhile_append_of_pos (fun c hc => by simpa using hn.chars q c hc)]
    cases r with
    | nil => simp
    | cons c r =>
      have hend : c ∈ [',', ']', '\x7d'] := hr c rfl
      have htable : ∀ c ∈ [',', ']', '\x7d'], c ∉ numberChars := by simp [numberChars]
      rw [List.takeWhile_cons_of_neg (by simpa using htable c hend), List.append_nil]
  have htext : (numberText q).toList = (numberText p).toList := by
    rw [← htake q r hr, ← htake p s hs, h]
  obtain rfl := hn.injective (String.toList_injective htext)
  exact ⟨rfl, List.append_cancel_left h⟩

theorem ends_close (r : List Char) : Ends (',' :: r) ∧ Ends (']' :: r) ∧ Ends ('\x7d' :: r) := by
  simp [Ends]

theorem readable_jsonText (hn : NumberTexts numberText) (v : Json) :
    Readable Ends (jsonText numberText) v := by
  induction v using Json.inductFields with
  | h v ih =>
  intro w r s hr hs h
  -- the first character of a text tells the kind of its value
  have hkind : v.kind = w.kind := by
    obtain ⟨c, t, hv, hc⟩ := jsonText_head hn v
    obtain ⟨d, u, hw, hd⟩ := jsonText_head hn w
    rw [hv, hw] at h
    rw [← hc, ← hd, (List.cons.inj h).1]
  -- and it is no closing bracket, so an item differs from the end of a list
  have hhead : ∀ v : Json, ∃ c t, jsonText numberText v = c :: t ∧ c ≠ ']' ∧ c ≠ '\x7d' := by
    intro v
    obtain ⟨c, t, hv, hc⟩ := jsonText_head hn v
    have hclose : kindOf ']' = 6 ∧ kindOf '\x7d' = 6 := by decide +kernel
    refine ⟨c, t, hv, ?_, ?_⟩
    · rintro rfl
      cases v <;> simp [hclose.1, Json.kind] at hc
    · rintro rfl
      cases v <;> simp [hclose.2, Json.kind] at hc
  cases v with
  | null =>
    cases w with
    | null => exact ⟨rfl, List.append_cancel_left h⟩
    | _ => simp [Json.kind] at hkind
  | bool b =>
    cases w with
    | bool b' =>
      cases b <;> cases b' <;> simp [jsonText] at h
      · exact ⟨rfl, h⟩
      · exact ⟨rfl, h⟩
    | _ => simp [Json.kind] at hkind
  | num q =>
    cases w with
    | num p =>
      rw [jsonText, jsonText] at h
      obtain ⟨rfl, hrest⟩ := readable_numberText hn q p r s hr hs h
      exact ⟨rfl, hrest⟩
    | _ => simp [Json.kind] at hkind
  | str a =>
    cases w with
    | str b =>
      rw [jsonText, jsonText] at h
      obtain ⟨rfl, hrest⟩ := readable_quote a b r s trivial trivial h
      exact ⟨rfl, hrest⟩
    | _ => simp [Json.kind] at hkind
  | arr l =>
    cases w with
    | arr m =>
      rw [jsonText, jsonText, itemJsonTexts_eq, itemJsonTexts_eq] at h
      have hitems : ∀ a ∈ l, Readable Ends (jsonText numberText) a := by
        intro a ha
        obtain ⟨i, hi⟩ := List.mem_iff_getElem?.mp ha
        exact ih (i.repr, a) (Json.mem_indexed.mpr ⟨i, hi, rfl⟩)
      have hread : Readable anyRest
          (fun l => separated ',' (l.map (jsonText numberText)) ++ [']']) l := by
        refine readable_separated (by decide) (fun s => ⟨(ends_close s).1, (ends_close s).2.1⟩)
          (fun a => ?_) hitems
        obtain ⟨c, t, ha, hc, -⟩ := hhead a
        exact ⟨c, t, ha, hc⟩
      obtain ⟨rfl, hrest⟩ := hread m r s trivial trivial (List.cons.inj h).2
      exact ⟨rfl, hrest⟩
    | _ => simp [Json.kind] at hkind
  | obj l =>
    cases w with
    | obj m =>
      rw [jsonText, jsonText, memberJsonTexts_eq, memberJsonTexts_eq] at h
      have hmembers : ∀ p ∈ l, Readable Ends
          (fun p : String × Json => quote p.1 ++ ':' :: jsonText numberText p.2) p :=
        fun p hp => (readable_quote p.1).pair (ih p hp)
      have hread : Readable anyRest (fun l : List (String × Json) => separated ','
          (l.map fun p => quote p.1 ++ ':' :: jsonText numberText p.2) ++ ['\x7d']) l :=
        readable_separated (by decide) (fun s => ⟨(ends_close s).1, (ends_close s).2.2⟩)
          (fun p => ⟨_, _, rfl, by decide⟩) hmembers
      obtain ⟨rfl, hrest⟩ := hread m r s trivial trivial (List.cons.inj h).2
      exact ⟨rfl, hrest⟩
    | _ => simp [Json.kind] at hkind

theorem jsonText_injective (hn : NumberTexts numberText) :
    Function.Injective (jsonText numberText) :=
  fun v _ h => (readable_jsonText hn v).eq (by simp [Ends]) h

theorem stringify_injective (hn : NumberTexts numberText) :
    Function.Injective (stringify numberText) :=
  fun _ _ h => jsonText_injective hn (String.ofList_injective h)

/-- The text of an array depends on its elements only. -/
theorem jsonText_arr_congr {numberText numberText' : Rat → String} {items : List Json}
    (h : ∀ v ∈ items, jsonText numberText v = jsonText numberText' v) :
    jsonText numberText (.arr items) = jsonText numberText' (.arr items) := by
  rw [jsonText, jsonText, itemJsonTexts_eq, itemJsonTexts_eq, List.map_congr_left h]

end Values

/-! ## Texts of numbers -/

/-- Texts of numbers: natural numbers in decimal digits, others in a way of their own. -/
def decimalText (q : Rat) : String :=
  if q = q.num.toNat then q.num.toNat.repr
  else String.ofList ('-' :: List.replicate (Encodable.encode q) '1')

theorem numberTexts_decimalText : NumberTexts decimalText := by
  have hdigits : ∀ n : Nat, ∀ c ∈ n.repr.toList, c ∈ numberChars ∧ c ≠ '-' := by
    intro n c hc
    rw [Nat.toList_repr] at hc
    have hdigit : c.isDigit = true := Nat.isDigit_of_mem_toDigits (by decide) (by decide) hc
    have hrange : 48 ≤ c.toNat ∧ c.toNat ≤ 57 := by
      simpa [Char.isDigit, UInt32.le_iff_toNat_le] using hdigit
    obtain ⟨d, hd, hcd⟩ : ∃ d ∈ ['0', '1', '2', '3', '4', '5', '6', '7', '8', '9'],
        c.toNat = d.toNat := by
      obtain ⟨h1, h2⟩ := hrange
      interval_cases c.toNat <;> simp
    obtain rfl := Char.toNat_inj.mp hcd
    refine ⟨List.mem_append_left ['+', '-', '.', 'e'] hd, ?_⟩
    rintro rfl
    simp at hd
  have hhead : ∀ n m : Nat, ∀ t, n.repr.toList ≠ '-' :: t := by
    intro n _ t h
    exact (hdigits n '-' (by rw [h]; exact .head t)).2 rfl
  refine ⟨?_, ?_, ?_⟩
  · intro p q h
    unfold decimalText at h
    split at h <;> split at h
    · rename_i hp hq
      rw [hp, hq, Nat.repr_injective h]
    · exact absurd (congrArg String.toList h) (by simpa using hhead _ 0 _)
    · exact absurd (congrArg String.toList h.symm) (by simpa using hhead _ 0 _)
    · have hlen := congrArg (fun s => s.toList.length) h
      simp at hlen
      exact hlen
  · intro q c hc
    unfold decimalText at hc
    split at hc
    · exact (hdigits _ c hc).1
    · simp at hc
      rcases hc with rfl | ⟨-, rfl⟩
      · simp [numberChars]
      · simp [numberChars]
  · intro q h
    unfold decimalText at h
    split at h
    · simp at h
    · simp at h

end Js
