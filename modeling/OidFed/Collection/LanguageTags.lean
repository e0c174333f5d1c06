import OidFed.Js.Json
import OidFed.Js.LowerCase
import OidFed.Lib.Regular

/-!
# Language tags (`core/src/language-tags.ts`)

* `languageTag`, `distinctParts`, `isLanguageTag`: the pattern, the second pass over the parts of a
  tag, and the decision.
* `Langtag`: the subtags of a tag of RFC 5646. `IsLanguageTag`: the tags of the grammar with no
  variant and no singleton twice, the tags for private use, and the grandfathered ones.
* `isLanguageTag_iff`: the decision is right, but for a grandfathered tag with a Kelvin sign in the
  place of a `k`.
-/

namespace OidFed

open Js Regular RegularExpression

/-! ## The decision -/

/-- RFC 5646 includes private-use and grandfathered tags that Intl may reject. -/
def grandfathered : List String :=
  ["en-gb-oed", "i-ami", "i-bnn", "i-default", "i-enochian", "i-hak", "i-klingon", "i-lux",
    "i-mingo", "i-navajo", "i-pwn", "i-tao", "i-tay", "i-tsu", "sgn-be-fr", "sgn-be-nl",
    "sgn-ch-de", "art-lojban", "cel-gaulish", "no-bok", "no-nyn", "zh-guoyu", "zh-hakka", "zh-min",
    "zh-min-nan", "zh-xiang"]

def letters : List Char := "abcdefghijklmnopqrstuvwxyz".toList

def digits : List Char := "0123456789".toList

def alphanumeric : List Char := letters ++ digits

/-- `[0-9a-wy-z]`. -/
def singletons : List Char := digits ++ "abcdefghijklmnopqrstuvwyz".toList

/-- `(?:[a-z]{2,3}(?:-[a-z]{3}){0,3}|[a-z]{4}|[a-z]{5,8})`. -/
def languagePattern : RegularExpression Char :=
  between (anyOf letters) 2 3 * between (behind '-' (between (anyOf letters) 3 3)) 0 3 +
    between (anyOf letters) 4 4 + between (anyOf letters) 5 8

/-- `(?:[a-z0-9]{5,8}|[0-9][a-z0-9]{3})`. -/
def variantPattern : RegularExpression Char :=
  between (anyOf alphanumeric) 5 8 + anyOf digits * between (anyOf alphanumeric) 3 3

/-- `[0-9a-wy-z](?:-[a-z0-9]{2,8})+`. -/
def extensionPattern : RegularExpression Char :=
  anyOf singletons * many (behind '-' (between (anyOf alphanumeric) 2 8))

/-- `x(?:-[a-z0-9]{1,8})+`. -/
def privateUsePattern : RegularExpression Char :=
  char 'x' * many (behind '-' (between (anyOf alphanumeric) 1 8))

/-- The pattern of the source, for a text in lower case. -/
def languageTag : RegularExpression Char :=
  languagePattern * between (behind '-' (between (anyOf letters) 4 4)) 0 1 *
      between (behind '-' (between (anyOf letters) 2 2 + between (anyOf digits) 3 3)) 0 1 *
      (behind '-' variantPattern).star * (behind '-' extensionPattern).star *
      between (behind '-' privateUsePattern) 0 1 +
    privateUsePattern

/-- `/^[0-9][a-z0-9]{3}$/.test(part)`. -/
def isDigitVariant (part : List Char) : Bool :=
  match part with
  | [a, b, c, d] => digits.contains a && [b, c, d].all alphanumeric.contains
  | _ => false

/-- The loop over the parts behind the first one. -/
def distinctParts (seen : List (List Char)) (extension : Bool) : List (List Char) → Bool
  | [] => true
  | part :: rest =>
    if part = ['x'] then true
    else if part.length = 1 then
      if seen.contains part then false else distinctParts (part :: seen) true rest
    else if !extension && (decide (5 ≤ part.length) || isDigitVariant part) then
      if seen.contains part then false else distinctParts (part :: seen) extension rest
    else distinctParts seen extension rest

/-- Whether a text is a language tag, where `toLowerCase` is the method of strings. The pattern
ignores the case of letters, and no other character matches one of its letters. -/
def isLanguageTag (toLowerCase : String → String) (tag : String) : Bool :=
  if grandfathered.contains (toLowerCase tag) then true
  else if !languageTag.rmatch (tag.toList.map Char.toLower) then false
  else
    match (toLowerCase tag).toList.splitOn '-' with
    | ['x'] :: _ => true
    | _ :: rest => distinctParts [] false rest
    | [] => true

/-! ## The grammar -/

/-- A word of some symbols, by its length. -/
structure IsWord (symbols : List Char) (m n : Nat) (word : List Char) : Prop where
  min : m ≤ word.length
  max : word.length ≤ n
  symbols : ∀ c ∈ word, c ∈ symbols

/-- The subtags of a tag, where the empty list stands for no private use. -/
structure Langtag where
  language : List Char
  extlang : List (List Char) := []
  script : Option (List Char) := none
  region : Option (List Char) := none
  variants : List (List Char) := []
  extensions : List (Char × List (List Char)) := []
  privateUse : List (List Char) := []

def IsVariant (word : List Char) : Prop :=
  IsWord alphanumeric 5 8 word ∨ ∃ d ∈ digits, ∃ w, IsWord alphanumeric 3 3 w ∧ word = d :: w

def IsExtension (extension : Char × List (List Char)) : Prop :=
  extension.1 ∈ singletons ∧ extension.2 ≠ [] ∧ ∀ w ∈ extension.2, IsWord alphanumeric 2 8 w

namespace Langtag

/-- The subtags are of the grammar. -/
structure WellFormed (t : Langtag) : Prop where
  language : IsWord letters 2 3 t.language ∧ t.extlang.length ≤ 3 ∧
      (∀ w ∈ t.extlang, IsWord letters 3 3 w) ∨
    t.extlang = [] ∧ (IsWord letters 4 4 t.language ∨ IsWord letters 5 8 t.language)
  script : ∀ w ∈ t.script, IsWord letters 4 4 w
  region : ∀ w ∈ t.region, IsWord letters 2 2 w ∨ IsWord digits 3 3 w
  variants : ∀ w ∈ t.variants, IsVariant w
  extensions : ∀ e ∈ t.extensions, IsExtension e
  privateUse : ∀ w ∈ t.privateUse, IsWord alphanumeric 1 8 w

/-- No variant and no singleton occurs twice. -/
structure Distinct (t : Langtag) : Prop where
  variants : t.variants.Nodup
  singletons : (t.extensions.map Prod.fst).Nodup

def privateUseParts (t : Langtag) : List (List Char) :=
  if t.privateUse = [] then [] else ['x'] :: t.privateUse

/-- The parts behind the language. -/
def parts (t : Langtag) : List (List Char) :=
  t.extlang ++ t.script.toList ++ t.region.toList ++ t.variants ++
    t.extensions.flatMap (fun e => [e.1] :: e.2) ++ t.privateUseParts

def text (t : Langtag) : List Char := t.language ++ separated '-' t.parts

end Langtag

/-- A tag for private use alone. -/
def IsPrivateUse (text : List Char) : Prop :=
  ∃ parts : List (List Char), parts ≠ [] ∧ (∀ w ∈ parts, IsWord alphanumeric 1 8 w) ∧
    text = 'x' :: separated '-' parts

/-- The language tags of RFC 5646, whatever the case of the letters. -/
def IsLanguageTag (tag : String) : Prop :=
  String.ofList (tag.toList.map Char.toLower) ∈ grandfathered ∨
    (∃ t : Langtag, t.WellFormed ∧ t.Distinct ∧ tag.toList.map Char.toLower = t.text) ∨
    IsPrivateUse (tag.toList.map Char.toLower)

/-! ## The pattern and the grammar -/

theorem mem_word_iff {symbols word : List Char} {m n : Nat} :
    word ∈ (between (anyOf symbols) m n).matches' ↔ IsWord symbols m n word := by
  rw [mem_word]
  exact ⟨fun ⟨h, h', h''⟩ => ⟨h, h', h''⟩, fun h => ⟨h.min, h.max, h.symbols⟩⟩

theorem mem_variantPattern {word : List Char} :
    word ∈ variantPattern.matches' ↔ IsVariant word := by
  rw [variantPattern, mem_add, mem_word_iff, mem_mul, IsVariant]
  refine or_congr_right ⟨?_, ?_⟩
  · rintro ⟨a, ha, w, hw, rfl⟩
    obtain ⟨d, hd, rfl⟩ := mem_anyOf.mp ha
    exact ⟨d, hd, w, mem_word_iff.mp hw, rfl⟩
  · rintro ⟨d, hd, w, hw, rfl⟩
    exact ⟨[d], mem_anyOf.mpr ⟨d, hd, rfl⟩, w, mem_word_iff.mpr hw, rfl⟩

theorem mem_extensionPattern {text : List Char} : text ∈ extensionPattern.matches' ↔
    ∃ e, IsExtension e ∧ text = e.1 :: separated '-' e.2 := by
  rw [extensionPattern, mem_mul]
  constructor
  · rintro ⟨a, ha, b, hb, rfl⟩
    obtain ⟨c, hc, rfl⟩ := mem_anyOf.mp ha
    obtain ⟨words, hne, hwords, rfl⟩ := mem_many_behind.mp hb
    exact ⟨(c, words), ⟨hc, hne, fun w hw => mem_word_iff.mp (hwords w hw)⟩, rfl⟩
  · rintro ⟨⟨c, words⟩, ⟨hc, hne, hwords⟩, rfl⟩
    exact ⟨[c], mem_anyOf.mpr ⟨c, hc, rfl⟩, separated '-' words, mem_many_behind.mpr
      ⟨words, hne, fun w hw => mem_word_iff.mpr (hwords w hw), rfl⟩, rfl⟩

theorem mem_privateUsePattern {text : List Char} :
    text ∈ privateUsePattern.matches' ↔ IsPrivateUse text := by
  rw [privateUsePattern, mem_mul, IsPrivateUse]
  constructor
  · rintro ⟨a, ha, b, hb, rfl⟩
    rw [matches'_char] at ha
    obtain rfl := Set.mem_singleton_iff.mp ha
    obtain ⟨words, hne, hwords, rfl⟩ := mem_many_behind.mp hb
    exact ⟨words, hne, fun w hw => mem_word_iff.mp (hwords w hw), rfl⟩
  · rintro ⟨words, hne, hwords, rfl⟩
    refine ⟨['x'], ?_, separated '-' words, mem_many_behind.mpr
      ⟨words, hne, fun w hw => mem_word_iff.mpr (hwords w hw), rfl⟩, rfl⟩
    rw [matches'_char]
    exact Set.mem_singleton _

theorem mem_languagePattern {text : List Char} : text ∈ languagePattern.matches' ↔
    ∃ language extlang, (IsWord letters 2 3 language ∧ extlang.length ≤ 3 ∧
        (∀ w ∈ extlang, IsWord letters 3 3 w) ∨
      extlang = [] ∧ (IsWord letters 4 4 language ∨ IsWord letters 5 8 language)) ∧
      text = language ++ separated '-' extlang := by
  rw [languagePattern, mem_add, mem_add, mem_mul, mem_word_iff, mem_word_iff]
  constructor
  · rintro ((⟨language, hl, b, hb, rfl⟩ | h) | h)
    · obtain ⟨extlang, -, hlen, hwords, rfl⟩ := mem_between_behind.mp hb
      exact ⟨language, extlang, .inl ⟨mem_word_iff.mp hl, hlen, fun w hw =>
        mem_word_iff.mp (hwords w hw)⟩, rfl⟩
    · exact ⟨text, [], .inr ⟨rfl, .inl h⟩, by simp⟩
    · exact ⟨text, [], .inr ⟨rfl, .inr h⟩, by simp⟩
  · rintro ⟨language, extlang, ⟨hl, hlen, hwords⟩ | ⟨rfl, h | h⟩, rfl⟩
    · exact .inl (.inl ⟨language, mem_word_iff.mpr hl, separated '-' extlang,
        mem_between_behind.mpr ⟨extlang, Nat.zero_le _, hlen, fun w hw =>
          mem_word_iff.mpr (hwords w hw), rfl⟩, rfl⟩)
    · exact .inl (.inr (by simpa using h))
    · exact .inr (by simpa using h)

theorem separated_extensions (extensions : List (Char × List (List Char))) :
    separated '-' (extensions.map fun e => e.1 :: separated '-' e.2) =
      separated '-' (extensions.flatMap fun e => [e.1] :: e.2) := by
  induction extensions with
  | nil => rfl
  | cons e rest ih =>
    rw [List.map_cons, separated_cons, ih, List.flatMap_cons, separated_append, separated_cons]
    simp

/-- The text of the parts for private use, or none. -/
theorem maybe_privateUse {text : List Char} :
    (∃ part : Option (List Char), (∀ y ∈ part, IsPrivateUse y) ∧
        text = separated '-' part.toList) ↔
      ∃ words : List (List Char), (∀ w ∈ words, IsWord alphanumeric 1 8 w) ∧
        text = separated '-' (if words = [] then [] else ['x'] :: words) := by
  constructor
  · rintro ⟨part, hpart, rfl⟩
    cases part with
    | none => exact ⟨[], by simp, rfl⟩
    | some y =>
      obtain ⟨words, hne, hwords, rfl⟩ := hpart y rfl
      exact ⟨words, hwords, by simp [hne]⟩
  · rintro ⟨words, hwords, rfl⟩
    by_cases hne : words = []
    · exact ⟨none, by simp, by simp [hne]⟩
    · refine ⟨some ('x' :: separated '-' words), ?_, by simp [hne]⟩
      intro y hy
      obtain rfl := Option.some.inj hy
      exact ⟨words, hne, hwords, rfl⟩

/-- The pattern matches the tags of the grammar and those for private use. -/
theorem mem_languageTag {text : List Char} : text ∈ languageTag.matches' ↔
    (∃ t : Langtag, t.WellFormed ∧ text = t.text) ∨ IsPrivateUse text := by
  rw [languageTag, mem_add, mem_privateUsePattern]
  refine or_congr_left ⟨?_, ?_⟩
  · intro h
    obtain ⟨_, h5, p, hp, rfl⟩ := mem_mul.mp h
    obtain ⟨_, h4, e, he, rfl⟩ := mem_mul.mp h5
    obtain ⟨_, h3, v, hv, rfl⟩ := mem_mul.mp h4
    obtain ⟨_, h2, r, hr, rfl⟩ := mem_mul.mp h3
    obtain ⟨l, hl, s, hs, rfl⟩ := mem_mul.mp h2
    -- the parts of a tag, from the language on
    obtain ⟨language, extlang, hlanguage, rfl⟩ := mem_languagePattern.mp hl
    obtain ⟨script, hscript, rfl⟩ := mem_maybe_behind.mp hs
    obtain ⟨region, hregion, rfl⟩ := mem_maybe_behind.mp hr
    obtain ⟨variants, hvariants, rfl⟩ := mem_star_behind.mp hv
    obtain ⟨texts, htexts, rfl⟩ := mem_star_behind.mp he
    obtain ⟨extensions, hextensions, rfl⟩ :=
      forall_mem_exists_iff.mp fun y hy => mem_extensionPattern.mp (htexts y hy)
    obtain ⟨part, hpart, rfl⟩ := mem_maybe_behind.mp hp
    obtain ⟨words, hwords, hprivate⟩ :=
      maybe_privateUse.mp ⟨part, fun y hy => mem_privateUsePattern.mp (hpart y hy), rfl⟩
    refine ⟨{ language, extlang, script, region, variants, extensions, privateUse := words },
      ⟨hlanguage, fun w hw => mem_word_iff.mp (hscript w hw), fun w hw => ?_,
        fun w hw => mem_variantPattern.mp (hvariants w hw), hextensions, hwords⟩, ?_⟩
    · exact (mem_add.mp (hregion w hw)).imp mem_word_iff.mp mem_word_iff.mp
    · rw [hprivate, separated_extensions, Langtag.text, Langtag.parts, Langtag.privateUseParts]
      simp only [separated_append, List.append_assoc]
  · rintro ⟨t, ht, rfl⟩
    obtain ⟨part, hpart, hprivate⟩ := maybe_privateUse.mpr ⟨t.privateUse, ht.privateUse, rfl⟩
    have htext : t.text = t.language ++ separated '-' t.extlang ++ separated '-' t.script.toList ++
        separated '-' t.region.toList ++ separated '-' t.variants ++
        separated '-' (t.extensions.map fun e => e.1 :: separated '-' e.2) ++
        separated '-' part.toList := by
      rw [← hprivate, separated_extensions, Langtag.text, Langtag.parts, Langtag.privateUseParts]
      simp only [separated_append, List.append_assoc]
    rw [htext]
    refine mem_mul.mpr ⟨_, mem_mul.mpr ⟨_, mem_mul.mpr ⟨_, mem_mul.mpr ⟨_, mem_mul.mpr ⟨_,
      mem_languagePattern.mpr ⟨t.language, t.extlang, ht.language, rfl⟩, _, ?_, rfl⟩, _, ?_, rfl⟩,
      _, ?_, rfl⟩, _, ?_, rfl⟩, _, ?_, rfl⟩
    · exact mem_maybe_behind.mpr ⟨t.script, fun w hw => mem_word_iff.mpr (ht.script w hw), rfl⟩
    · exact mem_maybe_behind.mpr ⟨t.region, fun w hw =>
        mem_add.mpr ((ht.region w hw).imp mem_word_iff.mpr mem_word_iff.mpr), rfl⟩
    · exact mem_star_behind.mpr ⟨t.variants, fun w hw =>
        mem_variantPattern.mpr (ht.variants w hw), rfl⟩
    · refine mem_star_behind.mpr ⟨_, fun y hy => ?_, rfl⟩
      obtain ⟨e, he, rfl⟩ := List.mem_map.mp hy
      exact mem_extensionPattern.mpr ⟨e, ht.extensions e he, rfl⟩
    · exact mem_maybe_behind.mpr ⟨part, fun y hy =>
        mem_privateUsePattern.mpr (hpart y hy), rfl⟩

/-! ## The parts of a tag -/

theorem letters_subset : letters ⊆ alphanumeric := List.subset_append_left letters digits

theorem digits_subset : digits ⊆ alphanumeric := List.subset_append_right letters digits

theorem singletons_subset : singletons ⊆ alphanumeric := by
  have h : singletons.all (fun c => alphanumeric.contains c) = true := by decide
  intro c hc
  simpa using List.all_eq_true.mp h c hc

theorem IsVariant.symbols {word : List Char} (h : IsVariant word) : ∀ c ∈ word, c ∈ alphanumeric := by
  rcases h with h | ⟨d, hd, w, hw, rfl⟩
  · exact h.symbols
  · exact List.forall_mem_cons.mpr ⟨digits_subset hd, hw.symbols⟩

namespace Langtag

variable {t : Langtag}

theorem WellFormed.language_symbols (h : t.WellFormed) :
    2 ≤ t.language.length ∧ ∀ c ∈ t.language, c ∈ alphanumeric := by
  rcases h.language with ⟨hl, -, -⟩ | ⟨-, hl | hl⟩
  · exact ⟨hl.min, fun c hc => letters_subset (hl.symbols c hc)⟩
  · exact ⟨by have := hl.min; omega, fun c hc => letters_subset (hl.symbols c hc)⟩
  · exact ⟨by have := hl.min; omega, fun c hc => letters_subset (hl.symbols c hc)⟩

theorem WellFormed.extlang_words (h : t.WellFormed) : ∀ w ∈ t.extlang, IsWord letters 3 3 w := by
  rcases h.language with ⟨-, -, hw⟩ | ⟨hnil, -⟩
  · exact hw
  · simp [hnil]

theorem WellFormed.parts_symbols (h : t.WellFormed) :
    ∀ w ∈ t.parts, ∀ c ∈ w, c ∈ alphanumeric := by
  intro w hw c hc
  simp only [parts, List.mem_append, Option.mem_toList, List.mem_flatMap, List.mem_cons] at hw
  rcases hw with ((((hw | hw) | hw) | hw) | ⟨e, he, rfl | hw⟩) | hw
  · exact letters_subset ((h.extlang_words w hw).symbols c hc)
  · exact letters_subset ((h.script w hw).symbols c hc)
  · rcases h.region w hw with hr | hr
    · exact letters_subset (hr.symbols c hc)
    · exact digits_subset (hr.symbols c hc)
  · exact (h.variants w hw).symbols c hc
  · obtain rfl := List.mem_singleton.mp hc
    exact singletons_subset (h.extensions e he).1
  · exact ((h.extensions e he).2.2 w hw).symbols c hc
  · unfold privateUseParts at hw
    split at hw
    · simp at hw
    · rcases List.mem_cons.mp hw with rfl | hw
      · obtain rfl := List.mem_singleton.mp hc
        decide
      · exact (h.privateUse w hw).symbols c hc

end Langtag

theorem mem_separated {parts : List (List Char)} {c : Char} (h : c ∈ separated '-' parts) :
    c = '-' ∨ ∃ w ∈ parts, c ∈ w := by
  obtain ⟨w, hw, hc⟩ := List.mem_flatMap.mp h
  exact (List.mem_cons.mp hc).imp id fun hc => ⟨w, hw, hc⟩

theorem alphanumeric_ascii {c : Char} (h : c = '-' ∨ c ∈ alphanumeric) : c.toNat < 128 := by
  have hall : ('-' :: alphanumeric).all (fun c => decide (c.toNat < 128)) = true := by decide
  exact of_decide_eq_true (List.all_eq_true.mp hall c (List.mem_cons.mpr h))

/-- What the pattern matches has letters, digits and hyphens only. -/
theorem ascii_of_mem_languageTag {text : List Char} (h : text ∈ languageTag.matches') :
    ∀ c ∈ text, c.toNat < 128 := by
  intro c hc
  rcases mem_languageTag.mp h with ⟨t, ht, rfl⟩ | ⟨parts, -, hparts, rfl⟩
  · rcases List.mem_append.mp hc with hc | hc
    · exact alphanumeric_ascii (.inr (ht.language_symbols.2 c hc))
    · exact alphanumeric_ascii ((mem_separated hc).imp id fun ⟨w, hw, hc⟩ =>
        ht.parts_symbols w hw c hc)
  · rcases List.mem_cons.mp hc with rfl | hc
    · decide
    · exact alphanumeric_ascii ((mem_separated hc).imp id fun ⟨w, hw, hc⟩ =>
        (hparts w hw).symbols c hc)

theorem splitOn_separated {word : List Char} {parts : List (List Char)} (hword : '-' ∉ word)
    (hparts : ∀ w ∈ parts, '-' ∉ w) : (word ++ separated '-' parts).splitOn '-' = word :: parts := by
  have hjoin : ∀ (word : List Char) (parts : List (List Char)),
      word ++ separated '-' parts = ['-'].intercalate (word :: parts) := by
    intro word parts
    induction parts generalizing word with
    | nil => simp [List.intercalate]
    | cons w parts ih =>
      have hw := ih w
      simp only [List.intercalate, List.intersperse_cons_cons, List.flatten_cons] at hw ⊢
      rw [← hw, separated_cons]
      simp
  rw [hjoin, List.splitOn_intercalate]
  · exact List.forall_mem_cons.mpr ⟨hword, hparts⟩
  · simp

/-! ## The second pass -/

section Distinct

variable {seen : List (List Char)} {extension : Bool} {rest : List (List Char)}

/-- A part that is no variant and no singleton is passed over. -/
theorem distinctParts_skip {w : List Char} (hlen : 2 ≤ w.length)
    (h : extension = true ∨ w.length < 5 ∧ isDigitVariant w = false) :
    distinctParts seen extension (w :: rest) = distinctParts seen extension rest := by
  have hx : w ≠ ['x'] := by
    rintro rfl
    simp at hlen
  have hcond : ¬ (!extension && (decide (5 ≤ w.length) || isDigitVariant w)) = true := by
    rcases h with rfl | ⟨hshort, hdigit⟩
    · simp
    · simp [hdigit, hshort]
  rw [distinctParts, if_neg hx, if_neg (by omega), if_neg hcond]

theorem distinctParts_skips {words : List (List Char)} (h : ∀ w ∈ words, 2 ≤ w.length ∧
    (extension = true ∨ w.length < 5 ∧ isDigitVariant w = false)) :
    distinctParts seen extension (words ++ rest) = distinctParts seen extension rest := by
  induction words with
  | nil => rfl
  | cons w words ih =>
    rw [List.forall_mem_cons] at h
    rw [List.cons_append, distinctParts_skip h.1.1 h.1.2, ih h.2]

theorem isDigitVariant_of_letters {w : List Char} {m n : Nat} (h : IsWord letters m n w) :
    isDigitVariant w = false := by
  unfold isDigitVariant
  split
  · rename_i a b c d
    have hall : letters.all (fun c => !digits.contains c) = true := by decide
    have ha := List.all_eq_true.mp hall a (h.symbols a List.mem_cons_self)
    rw [Bool.not_eq_true'] at ha
    rw [ha, Bool.false_and]
  · rfl

theorem isDigitVariant_of_length {w : List Char} (h : w.length ≠ 4) : isDigitVariant w = false := by
  unfold isDigitVariant
  split
  · simp at h
  · rfl

theorem IsVariant.long {w : List Char} (h : IsVariant w) :
    4 ≤ w.length ∧ (decide (5 ≤ w.length) || isDigitVariant w) = true := by
  rcases h with h | ⟨d, hd, v, hv, rfl⟩
  · have := h.min
    exact ⟨by omega, by simp [this]⟩
  · obtain ⟨hmin, hmax, hsymbols⟩ := hv
    match v, hmin, hmax with
    | [a, b, c], _, _ =>
      refine ⟨by simp, ?_⟩
      have hd' : digits.contains d = true := List.contains_iff_mem.mpr hd
      have hall : [a, b, c].all alphanumeric.contains = true :=
        List.all_eq_true.mpr fun x hx => List.contains_iff_mem.mpr (hsymbols x hx)
      rw [isDigitVariant, hd', hall]
      rfl

theorem distinctParts_variants {variants : List (List Char)} (h : ∀ w ∈ variants, IsVariant w) :
    distinctParts seen false (variants ++ rest) = true ↔
      (∀ w ∈ variants, w ∉ seen) ∧ variants.Nodup ∧
        distinctParts (variants.reverse ++ seen) false rest = true := by
  induction variants generalizing seen with
  | nil => simp
  | cons w variants ih =>
    rw [List.forall_mem_cons] at h
    obtain ⟨hlen, hlong⟩ := h.1.long
    have hx : w ≠ ['x'] := by
      rintro rfl
      simp at hlen
    rw [List.cons_append, distinctParts, if_neg hx, if_neg (by omega), if_pos (by simpa using hlong)]
    by_cases hw : w ∈ seen
    · simp [hw]
    · rw [if_neg (by simpa using hw), ih h.2]
      simp only [List.mem_cons, not_or, forall_eq_or_imp, List.nodup_cons, List.reverse_cons,
        List.append_assoc, List.singleton_append]
      constructor
      · rintro ⟨hnew, hnodup, hrest⟩
        exact ⟨⟨hw, fun v hv => (hnew v hv).2⟩, ⟨fun hv => (hnew w hv).1 rfl, hnodup⟩, hrest⟩
      · rintro ⟨⟨-, hnew⟩, ⟨hw', hnodup⟩, hrest⟩
        exact ⟨fun v hv => ⟨fun heq => hw' (heq ▸ hv), hnew v hv⟩, hnodup, hrest⟩

theorem distinctParts_extensions {extensions : List (Char × List (List Char))}
    (h : ∀ e ∈ extensions, IsExtension e)
    (hrest : ∀ seen extension, distinctParts seen extension rest = true) :
    distinctParts seen extension (extensions.flatMap (fun e => [e.1] :: e.2) ++ rest) = true ↔
      (∀ e ∈ extensions, [e.1] ∉ seen) ∧ (extensions.map Prod.fst).Nodup := by
  induction extensions generalizing seen extension with
  | nil => simp [hrest]
  | cons e extensions ih =>
    rw [List.forall_mem_cons] at h
    obtain ⟨⟨hsingleton, -, hwords⟩, h⟩ := h
    have hx : [e.1] ≠ ['x'] := by
      intro heq
      rw [List.cons.inj heq |>.1] at hsingleton
      exact absurd hsingleton (by decide)
    rw [List.flatMap_cons, List.cons_append, List.cons_append, distinctParts, if_neg hx,
      if_pos (by simp)]
    by_cases he : [e.1] ∈ seen
    · simp [he]
    · have hskip : ∀ w ∈ e.2, 2 ≤ w.length ∧
          (true = true ∨ w.length < 5 ∧ isDigitVariant w = false) :=
        fun w hw => ⟨(hwords w hw).min, .inl rfl⟩
      rw [if_neg (by simpa using he), List.append_assoc, distinctParts_skips hskip, ih h]
      simp only [List.mem_cons, not_or, forall_eq_or_imp, List.map_cons, List.nodup_cons,
        List.cons.injEq, and_true, List.mem_map, not_exists, not_and]
      constructor
      · rintro ⟨hnew, hnodup⟩
        exact ⟨⟨he, fun x hx => (hnew x hx).2⟩, fun x hx => (hnew x hx).1, hnodup⟩
      · rintro ⟨⟨-, hnew⟩, hfirst, hnodup⟩
        exact ⟨fun x hx => ⟨hfirst x hx, hnew x hx⟩, hnodup⟩

end Distinct

/-- The second pass finds what occurs twice. -/
theorem distinctParts_iff {t : Langtag} (h : t.WellFormed) :
    distinctParts [] false t.parts = true ↔ t.Distinct := by
  have hprivate : ∀ seen extension, distinctParts seen extension t.privateUseParts = true := by
    intro seen extension
    unfold Langtag.privateUseParts
    split
    · rfl
    · rw [distinctParts, if_pos rfl]
  have hshort : ∀ w ∈ t.extlang ++ t.script.toList ++ t.region.toList, 2 ≤ w.length ∧
      (false = true ∨ w.length < 5 ∧ isDigitVariant w = false) := by
    intro w hw
    simp only [List.mem_append, Option.mem_toList] at hw
    rcases hw with (hw | hw) | hw
    · have hword := h.extlang_words w hw
      exact ⟨by have := hword.min; omega, .inr ⟨by have := hword.max; omega,
        isDigitVariant_of_letters hword⟩⟩
    · have hword := h.script w hw
      exact ⟨by have := hword.min; omega, .inr ⟨by have := hword.max; omega,
        isDigitVariant_of_letters hword⟩⟩
    · rcases h.region w hw with hword | hword
      · exact ⟨hword.min, .inr ⟨by have := hword.max; omega, isDigitVariant_of_letters hword⟩⟩
      · have := hword.min
        have := hword.max
        exact ⟨by omega, .inr ⟨by omega, isDigitVariant_of_length (by omega)⟩⟩
  have hsingle : ∀ e ∈ t.extensions, [e.1] ∉ t.variants.reverse ++ [] := by
    intro e _ he
    rw [List.append_nil, List.mem_reverse] at he
    have := (h.variants _ he).long.1
    simp at this
  have hparts : t.parts = (t.extlang ++ t.script.toList ++ t.region.toList) ++ (t.variants ++
      (t.extensions.flatMap (fun e => [e.1] :: e.2) ++ t.privateUseParts)) := by
    simp only [Langtag.parts, List.append_assoc]
  rw [hparts, distinctParts_skips hshort, distinctParts_variants h.variants,
    distinctParts_extensions h.extensions hprivate]
  constructor
  · rintro ⟨-, hvariants, -, hsingletons⟩
    exact ⟨hvariants, hsingletons⟩
  · rintro ⟨hvariants, hsingletons⟩
    exact ⟨by simp, hvariants, hsingle, hsingletons⟩

/-! ## The decision and the grammar -/

theorem grandfathered_ascii : ∀ t ∈ grandfathered, ∀ c ∈ t.toList, c.toNat < 128 := by
  have hall : grandfathered.all (fun t => t.toList.all fun c => decide (c.toNat < 128)) = true := by
    decide
  intro t ht c hc
  exact of_decide_eq_true (List.all_eq_true.mp (List.all_eq_true.mp hall t ht) c hc)

section Decision

variable {toLowerCase : String → String} {tag : String}

theorem contains_grandfathered (h : LowersAscii toLowerCase) :
    grandfathered.contains (toLowerCase tag) = true ↔
      String.ofList (tag.toList.map foldLetter) ∈ grandfathered := by
  rw [List.contains_iff_mem]
  constructor
  · intro hmem
    have hfold := (h tag _ (grandfathered_ascii _ hmem)).mp rfl
    rwa [hfold, String.ofList_toList]
  · intro hmem
    have hlower := (h tag _ (grandfathered_ascii _ hmem)).mpr (by rw [String.toList_ofList])
    rwa [hlower]

/-- The second branch of the decision. -/
theorem pattern_and_parts (h : LowersAscii toLowerCase) :
    (languageTag.rmatch (tag.toList.map Char.toLower) = true ∧
      (match (toLowerCase tag).toList.splitOn '-' with
        | ['x'] :: _ => true
        | _ :: rest => distinctParts [] false rest
        | [] => true) = true) ↔
      (∃ t : Langtag, t.WellFormed ∧ t.Distinct ∧ tag.toList.map Char.toLower = t.text) ∨
        IsPrivateUse (tag.toList.map Char.toLower) := by
  -- A text that the pattern matches is ASCII, and in lower case it is what the pattern matched.
  have hlower : tag.toList.map Char.toLower ∈ languageTag.matches' →
      (toLowerCase tag).toList = tag.toList.map Char.toLower := by
    intro hmatch
    have hascii := ascii_of_mem_languageTag hmatch
    have hkelvin : '\u212a' ∉ tag.toList := fun hmem =>
      toLower_ascii (hascii _ (List.mem_map_of_mem hmem)) rfl
    have htext := (h tag (String.ofList (tag.toList.map Char.toLower))
      (by rwa [String.toList_ofList])).mpr (by rw [String.toList_ofList, map_foldLetter hkelvin])
    rw [htext, String.toList_ofList]
  have hdash : '-' ∉ alphanumeric := by decide
  -- The parts of a tag of the grammar, and of one for private use.
  have hparts : ∀ t : Langtag, t.WellFormed → (match t.text.splitOn '-' with
      | ['x'] :: _ => true
      | _ :: rest => distinctParts [] false rest
      | [] => true) = distinctParts [] false t.parts := by
    intro t ht
    obtain ⟨hlen, hsymbols⟩ := ht.language_symbols
    rw [Langtag.text, splitOn_separated (fun hc => hdash (hsymbols _ hc))
      fun w hw hc => hdash (ht.parts_symbols w hw _ hc)]
    split
    · rename_i heq
      rw [(List.cons.inj heq).1] at hlen
      simp at hlen
    · rename_i heq
      rw [(List.cons.inj heq).2]
    · rename_i heq
      simp at heq
  rw [rmatch_iff_matches']
  constructor
  · rintro ⟨hmatch, hpass⟩
    rw [hlower hmatch] at hpass
    rcases mem_languageTag.mp hmatch with ⟨t, ht, htext⟩ | hprivate
    · rw [htext, hparts t ht] at hpass
      exact .inl ⟨t, ht, (distinctParts_iff ht).mp hpass, htext⟩
    · exact .inr hprivate
  · rintro (⟨t, ht, hdistinct, htext⟩ | hprivate)
    · have hmatch := mem_languageTag.mpr (.inl ⟨t, ht, htext⟩)
      refine ⟨hmatch, ?_⟩
      rw [hlower hmatch, htext, hparts t ht]
      exact (distinctParts_iff ht).mpr hdistinct
    · have hmatch := mem_languageTag.mpr (.inr hprivate)
      obtain ⟨parts, -, hwords, htext⟩ := hprivate
      refine ⟨hmatch, ?_⟩
      have hx : '-' ∉ ['x'] := by decide
      have hsplit : ('x' :: separated '-' parts).splitOn '-' = ['x'] :: parts :=
        splitOn_separated hx fun w hw hc => hdash ((hwords w hw).symbols _ hc)
      rw [hlower hmatch, htext, hsplit]
      rfl

theorem isLanguageTag_eq (h : LowersAscii toLowerCase) : isLanguageTag toLowerCase tag = true ↔
    String.ofList (tag.toList.map foldLetter) ∈ grandfathered ∨
      (∃ t : Langtag, t.WellFormed ∧ t.Distinct ∧ tag.toList.map Char.toLower = t.text) ∨
        IsPrivateUse (tag.toList.map Char.toLower) := by
  rw [← contains_grandfathered h, ← pattern_and_parts h, isLanguageTag]
  by_cases hold : grandfathered.contains (toLowerCase tag) = true
  · rw [if_pos hold]
    exact ⟨fun _ => .inl hold, fun _ => rfl⟩
  · rw [if_neg hold, or_iff_right hold]
    by_cases hmatch : languageTag.rmatch (tag.toList.map Char.toLower) = true
    · rw [hmatch, Bool.not_true, if_neg Bool.false_ne_true, and_iff_right rfl]
    · rw [Bool.not_eq_true] at hmatch
      rw [hmatch, Bool.not_false, if_pos rfl]
      simp

/-- A language tag has no Kelvin sign. -/
theorem not_isLanguageTag (hkelvin : '\u212a' ∈ tag.toList) : ¬ IsLanguageTag tag := by
  have hnot : ¬ ∀ c ∈ tag.toList.map Char.toLower, c.toNat < 128 := fun hascii =>
    toLower_ascii (hascii _ (List.mem_map_of_mem hkelvin)) rfl
  rintro (hold | hgrammar)
  · have hascii := grandfathered_ascii _ hold
    rw [String.toList_ofList] at hascii
    exact hnot hascii
  · exact hnot (ascii_of_mem_languageTag (mem_languageTag.mpr
      (hgrammar.imp (fun ⟨t, ht, _, htext⟩ => ⟨t, ht, htext⟩) id)))

/-- The decision is right exactly where the text is no grandfathered tag with a Kelvin sign in the
place of a `k`. -/
theorem isLanguageTag_iff (h : LowersAscii toLowerCase) :
    (isLanguageTag toLowerCase tag = true ↔ IsLanguageTag tag) ↔
      ¬ ('\u212a' ∈ tag.toList ∧ String.ofList (tag.toList.map foldLetter) ∈ grandfathered) := by
  by_cases hkelvin : '\u212a' ∈ tag.toList
  · have hnot := not_isLanguageTag hkelvin
    have hgrammar : ¬ ((∃ t : Langtag, t.WellFormed ∧ t.Distinct ∧
        tag.toList.map Char.toLower = t.text) ∨ IsPrivateUse (tag.toList.map Char.toLower)) :=
      fun hgrammar => hnot (.inr hgrammar)
    rw [isLanguageTag_eq h, or_iff_left hgrammar]
    constructor
    · exact fun hiff hold => hnot (hiff.mp hold.2)
    · exact fun hno => ⟨fun hold => absurd ⟨hkelvin, hold⟩ hno, fun htag => absurd htag hnot⟩
  · rw [isLanguageTag_eq h, map_foldLetter hkelvin, IsLanguageTag]
    exact ⟨fun _ hold => hkelvin hold.1, fun _ => Iff.rfl⟩

end Decision

/-- Lower case for ASCII letters and the Kelvin sign. -/
def foldText (s : String) : String := String.ofList (s.toList.map foldLetter)

theorem lowersAscii_foldText : LowersAscii foldText := by
  intro s t _
  rw [foldText, ← String.toList_inj, String.toList_ofList]

theorem isLanguageTag_iff_variant :
    (isLanguageTag foldText "de-DE-1901-u-co-phonebk" = true ↔
        IsLanguageTag "de-DE-1901-u-co-phonebk") ↔
      ¬ ('\u212a' ∈ "de-DE-1901-u-co-phonebk".toList ∧
        String.ofList ("de-DE-1901-u-co-phonebk".toList.map foldLetter) ∈ grandfathered) :=
  isLanguageTag_iff lowersAscii_foldText

/-- `i-klingon` with a Kelvin sign is accepted. -/
theorem kelvin_accepted :
    isLanguageTag foldText "i-\u212alingon" = true ∧ ¬ IsLanguageTag "i-\u212alingon" ∧
      ¬ ∀ toLowerCase : String → String, LowersAscii toLowerCase →
        ∀ tag, isLanguageTag toLowerCase tag = true ↔ IsLanguageTag tag := by
  have haccepts : isLanguageTag foldText "i-\u212alingon" = true := by
    have hold : grandfathered.contains (foldText "i-\u212alingon") = true := by decide
    rw [isLanguageTag, if_pos hold]
  have hnot : ¬ IsLanguageTag "i-\u212alingon" := not_isLanguageTag (by decide)
  exact ⟨haccepts, hnot, fun h => hnot ((h foldText lowersAscii_foldText _).mp haccepts)⟩

end OidFed
