import OidFed.Js.Split
import OidFed.Resolve.Addresses

/-!
# Which texts are read as addresses (`trust-chain/fetch.ts`)

* `ReadsExactly`: a text is read where it is an address or a range, and as that one.
* `Misread`: the texts that are read although they are neither: one with an empty octet, a range
  whose number of bits is not in digits, and one with more behind a second slash.
* `readsExactly_iff`: the others are read exactly.
-/

namespace OidFed

open Js

/-- The range of the addresses with the first `n` bits of `x`. -/
def AddressRange.Denotes (range : AddressRange) (x : BitVec 32) (n : Nat) : Prop :=
  ∀ y : BitVec 32, range.contains y.toNat = true ↔ AgreeOn n y x

/-- Both parsers accept the text where it is in their grammar, and read what it says. -/
structure ReadsExactly (text : String) : Prop where
  address : 0 ≤ ipv4ToInt text ↔ ∃ x, IsAddress text x
  value : ∀ x, IsAddress text x → ipv4ToInt text = x.toNat
  cidr : parseCIDR text ≠ none ↔ ∃ x n, IsCidr text x n
  range : ∀ x n, IsCidr text x n → ∃ range, parseCIDR text = some range ∧ range.Denotes x n

/-- A text between slashes that is converted to a number from 0 to 32. -/
def IsPrefixLength (text : String) : Prop :=
  '/' ∉ text.toList ∧ ∃ bits : Rat, stringToNumber text = .finite bits ∧ 0 ≤ bits ∧ bits ≤ 32

/-- One of the octets has no digits. -/
def HasEmptyOctet (a b c d : Octet) : Prop := [] ∈ [a.text, b.text, c.text, d.text]

inductive Misread : String → Prop where
  | octet {a b c d : Octet} : HasEmptyOctet a b c d → Misread (dotted a b c d)
  | network {a b c d : Octet} {bitsText : String} : HasEmptyOctet a b c d →
      IsPrefixLength bitsText → Misread (dotted a b c d ++ "/" ++ bitsText)
  | bits {a b c d : Octet} {bitsText : String} : IsPrefixLength bitsText →
      (¬ ∃ n, IsNumeral bitsText.toList n) → Misread (dotted a b c d ++ "/" ++ bitsText)
  | more {a b c d : Octet} {bitsText rest : String} : IsPrefixLength bitsText →
      Misread (dotted a b c d ++ "/" ++ bitsText ++ "/" ++ rest)

/-! ## Addresses -/

/-- What the loop accepts: octets, the first of which was begun before. -/
theorem splitOn_of_ipv4Loop {text : List Char} {result octet dots : Nat}
    (h : 0 ≤ ipv4Loop result octet dots text) :
    ∃ first rest, text.splitOn '.' = first :: rest ∧ dots + rest.length = 3 ∧
      (∀ c ∈ first, c.isDigit = true) ∧ Nat.ofDigitChars 10 first octet ≤ 255 ∧
      ∀ t ∈ rest, (∀ c ∈ t, c.isDigit = true) ∧ Nat.ofDigitChars 10 t 0 ≤ 255 := by
  induction text generalizing result octet dots with
  | nil =>
    rw [ipv4Loop] at h
    split at h
    · omega
    · split at h
      · omega
      · refine ⟨[], [], rfl, ?_, by simp, ?_, by simp⟩
        · simp only [List.length_nil]
          omega
        · rw [Nat.ofDigitChars_nil]
          omega
  | cons ch text ih =>
    rw [ipv4Loop] at h
    rw [List.splitOn_cons_eq_if_modifyHead]
    split at h
    · rename_i hdot
      split at h
      · omega
      · obtain ⟨first, rest, hsplit, hlen, hdigit, hle, hrest⟩ := ih h
        refine ⟨[], first :: rest, ?_, ?_, by simp, ?_, ?_⟩
        · rw [if_pos (by simpa using hdot), hsplit]
        · rw [List.length_cons]
          omega
        · rw [Nat.ofDigitChars_nil]
          omega
        · exact List.forall_mem_cons.mpr ⟨⟨hdigit, hle⟩, hrest⟩
    · rename_i hdot
      split at h
      · rename_i hch
        obtain ⟨first, rest, hsplit, hlen, hdigit, hle, hrest⟩ := ih h
        refine ⟨ch :: first, rest, ?_, hlen, List.forall_mem_cons.mpr ⟨hch, hdigit⟩, ?_, hrest⟩
        · rw [if_neg (by simpa using hdot), hsplit, List.modifyHead_cons]
        · rwa [Nat.ofDigitChars_cons, Nat.mul_comm]
      · omega

/-- The texts that are read as addresses: four octets, of which some may be empty. -/
theorem ipv4ToInt_nonneg_iff (text : String) :
    0 ≤ ipv4ToInt text ↔ ∃ a b c d, text = dotted a b c d := by
  constructor
  · intro h
    obtain ⟨first, rest, hsplit, hlen, hdigit, hle, hrest⟩ := splitOn_of_ipv4Loop h
    obtain ⟨tb, tc, td, rfl⟩ := List.length_eq_three.mp (show rest.length = 3 by omega)
    simp only [List.forall_mem_cons, List.not_mem_nil, false_implies, implies_true, and_true] at hrest
    obtain ⟨⟨hb, hb'⟩, ⟨hc, hc'⟩, hd, hd'⟩ := hrest
    refine ⟨⟨first, hdigit, hle⟩, ⟨tb, hb, hb'⟩, ⟨tc, hc, hc'⟩, ⟨td, hd, hd'⟩, ?_⟩
    have htext : ['.'].intercalate (text.toList.splitOn '.') = text.toList :=
      List.intercalate_splitOn '.'
    rw [hsplit] at htext
    rw [String.ext_iff, ← htext]
    simp [dotted, List.intercalate]
  · rintro ⟨a, b, c, d, rfl⟩
    rw [ipv4ToInt_dotted]
    exact Int.natCast_nonneg _

theorem Octet.not_mem (o : Octet) {ch : Char} (h : ch.isDigit = false) : ch ∉ o.text := by
  intro hmem
  have := o.isDigit ch hmem
  rw [h] at this
  exact absurd this (by simp)

theorem splitOn_dotted (a b c d : Octet) :
    (dotted a b c d).toList.splitOn '.' = [a.text, b.text, c.text, d.text] := by
  have hdot : ∀ o : Octet, '.' ∉ o.text := fun o => o.not_mem (by decide)
  rw [dotted, String.toList_ofList, List.splitOn_append_cons_self_of_not_mem (hdot a),
    List.splitOn_append_cons_self_of_not_mem (hdot b),
    List.splitOn_append_cons_self_of_not_mem (hdot c), List.splitOn_eq_singleton (hdot d)]

/-- Four octets are an address where none is empty. -/
theorem isAddress_dotted_iff (a b c d : Octet) :
    (∃ x, IsAddress (dotted a b c d) x) ↔ ¬ HasEmptyOctet a b c d := by
  constructor
  · rintro ⟨x, h⟩
    generalize htext : dotted a b c d = text at h
    obtain @⟨ta, tb, tc, td, _, _, _, _, ha, hb, hc, hd, -, -, -, -⟩ := h
    have hdot : ∀ {t : List Char} {n : Nat}, IsNumeral t n → '.' ∉ t := fun ht =>
      ht.not_mem (by decide)
    have hsplit := splitOn_dotted a b c d
    rw [htext, String.toList_ofList, List.splitOn_append_cons_self_of_not_mem (hdot ha),
      List.splitOn_append_cons_self_of_not_mem (hdot hb),
      List.splitOn_append_cons_self_of_not_mem (hdot hc), List.splitOn_eq_singleton (hdot hd)] at hsplit
    rw [HasEmptyOctet, ← hsplit]
    simp [ha.ne_nil.symm, hb.ne_nil.symm, hc.ne_nil.symm, hd.ne_nil.symm]
  · intro h
    simp only [HasEmptyOctet, List.mem_cons, List.not_mem_nil, or_false, not_or] at h
    have hnumeral : ∀ o : Octet, ¬ [] = o.text → IsNumeral o.text o.value := fun o ho =>
      { ne_nil := fun hnil => ho hnil.symm, isDigit := o.isDigit, number := rfl }
    exact ⟨_, .mk (hnumeral a h.1) (hnumeral b h.2.1) (hnumeral c h.2.2.1) (hnumeral d h.2.2.2) a.le
      b.le c.le d.le⟩

/-! ## Ranges -/

theorem not_mem_dotted (a b c d : Octet) : '/' ∉ (dotted a b c d).toList := by
  have hslash : ∀ o : Octet, '/' ∉ o.text := fun o => o.not_mem (by decide)
  simp [dotted, hslash]

theorem splitText_more {ip bitsText : String} (hip : '/' ∉ ip.toList) (hbits : '/' ∉ bitsText.toList)
    (rest : String) :
    Json.splitText '/' (ip ++ "/" ++ bitsText ++ "/" ++ rest) =
      ip :: bitsText :: Json.splitText '/' rest := by
  have hfirst := Json.splitText_append hip (bitsText ++ "/" ++ rest)
  have hsecond := Json.splitText_append hbits rest
  rw [← String.append_assoc, ← String.append_assoc] at hfirst
  rw [← hsecond]
  exact hfirst

/-- A text is read as a range where its first two parts are. -/
theorem parseCIDR_ne_none_of {text ip bitsText : String} {more : List String}
    (h : Json.splitText '/' text = ip :: bitsText :: more) :
    parseCIDR text ≠ none ↔
      0 ≤ ipv4ToInt ip ∧ ∃ bits : Rat, stringToNumber bitsText = .finite bits ∧ 0 ≤ bits ∧ bits ≤ 32 := by
  have hempty : ipv4ToInt "" = -1 := by decide
  simp only [parseCIDR, h]
  by_cases hip : 0 ≤ ipv4ToInt ip
  · have hne : ip ≠ "" := by
      rintro rfl
      omega
    rw [if_neg hne, if_neg (not_lt.mpr hip)]
    cases stringToNumber bitsText with
    | nan => simp
    | infinite negative => simp
    | finite bits =>
      by_cases hbits : bits < 0 ∨ 32 < bits
      · have hout : ¬ (0 ≤ bits ∧ bits ≤ 32) := by
          rintro ⟨hzero, htop⟩
          rcases hbits with hbits | hbits
          · exact absurd hzero (not_le.mpr hbits)
          · exact absurd htop (not_le.mpr hbits)
        simp [hbits, hip, hout]
      · rw [not_or, not_lt, not_lt] at hbits
        simp [hbits, hip, not_lt.mpr hbits.1, not_lt.mpr hbits.2]
  · rw [if_pos (not_le.mp hip)]
    simp [hip]

/-- The texts that are read as ranges: what is behind a second slash does not matter. -/
theorem parseCIDR_ne_none_iff (text : String) :
    parseCIDR text ≠ none ↔ ∃ a b c d bitsText, IsPrefixLength bitsText ∧
      (text = dotted a b c d ++ "/" ++ bitsText ∨
        ∃ rest, text = dotted a b c d ++ "/" ++ bitsText ++ "/" ++ rest) := by
  constructor
  · intro h
    match hsplit : Json.splitText '/' text with
    | [] => simp [parseCIDR, hsplit] at h
    | [ip] => simp [parseCIDR, hsplit] at h
    | ip :: bitsText :: more =>
      obtain ⟨hip, hbits⟩ := (parseCIDR_ne_none_of hsplit).mp h
      obtain ⟨a, b, c, d, rfl⟩ := (ipv4ToInt_nonneg_iff ip).mp hip
      have hslash : '/' ∉ bitsText.toList :=
        Json.not_mem_of_mem_splitText (hsplit ▸ List.mem_cons_of_mem _ List.mem_cons_self)
      obtain ⟨behind, rfl, hbehind⟩ := Json.exists_of_splitText_cons hsplit (by simp)
      refine ⟨a, b, c, d, bitsText, ⟨hslash, hbits⟩, ?_⟩
      cases more with
      | nil =>
        left
        rw [Json.eq_of_splitText_singleton hbehind]
        rfl
      | cons part more =>
        right
        obtain ⟨rest, rfl, -⟩ := Json.exists_of_splitText_cons hbehind (by simp)
        refine ⟨rest, ?_⟩
        rw [← String.append_assoc, ← String.append_assoc]
        rfl
  · rintro ⟨a, b, c, d, bitsText, hbits, htext⟩
    have hip : 0 ≤ ipv4ToInt (dotted a b c d) := (ipv4ToInt_nonneg_iff _).mpr ⟨a, b, c, d, rfl⟩
    rcases htext with rfl | ⟨rest, rfl⟩
    · exact (parseCIDR_ne_none_of (splitText_range (not_mem_dotted a b c d) hbits.1)).mpr ⟨hip, hbits.2⟩
    · exact (parseCIDR_ne_none_of (splitText_more (not_mem_dotted a b c d) hbits.1 rest)).mpr
        ⟨hip, hbits.2⟩

/-- A range is its address, a slash and digits. -/
theorem not_isCidr_of_misread {text : String} (h : Misread text) (hread : parseCIDR text ≠ none) :
    ¬ ∃ x n, IsCidr text x n := by
  rintro ⟨x, n, hcidr⟩
  obtain ⟨ip, digits, hsplit, hip, hdigits, -⟩ := splitText_of_isCidr hcidr
  cases h with
  | @octet a b c d _ =>
    rw [Json.splitText_eq_singleton (not_mem_dotted a b c d)] at hsplit
    simp at hsplit
  | @network a b c d bitsText hempty hbits =>
    rw [splitText_range (not_mem_dotted a b c d) hbits.1] at hsplit
    obtain ⟨rfl, -⟩ := List.cons.inj hsplit
    exact (isAddress_dotted_iff a b c d).mp ⟨x, hip⟩ hempty
  | @bits a b c d bitsText hbits hnumeral =>
    rw [splitText_range (not_mem_dotted a b c d) hbits.1] at hsplit
    obtain ⟨rfl, -⟩ := List.cons.inj (List.cons.inj hsplit).2
    exact hnumeral ⟨n, hdigits⟩
  | @more a b c d bitsText rest hbits =>
    rw [splitText_more (not_mem_dotted a b c d) hbits.1] at hsplit
    have hnil := (List.cons.inj (List.cons.inj hsplit).2).2
    rw [Json.splitText, List.map_eq_nil_iff] at hnil
    exact absurd hnil (List.splitOn_ne_nil _ _)

/-- What is misread as a range is read as one, or it is misread as an address. -/
theorem parseCIDR_of_misread {text : String} (h : Misread text) :
    parseCIDR text ≠ none ∨ ∃ a b c d, text = dotted a b c d ∧ HasEmptyOctet a b c d := by
  cases h with
  | @octet a b c d hempty => exact .inr ⟨a, b, c, d, rfl, hempty⟩
  | @network a b c d bitsText _ hbits =>
    exact .inl ((parseCIDR_ne_none_iff _).mpr ⟨a, b, c, d, bitsText, hbits, .inl rfl⟩)
  | @bits a b c d bitsText hbits _ =>
    exact .inl ((parseCIDR_ne_none_iff _).mpr ⟨a, b, c, d, bitsText, hbits, .inl rfl⟩)
  | @more a b c d bitsText rest hbits =>
    exact .inl ((parseCIDR_ne_none_iff _).mpr ⟨a, b, c, d, bitsText, hbits, .inr ⟨rest, rfl⟩⟩)

/-- Digits that are converted to at most 32 are a number up to 32. -/
theorem IsPrefixLength.le {text : String} (h : IsPrefixLength text) {n : Nat}
    (hn : IsNumeral text.toList n) : n ≤ 32 := by
  obtain ⟨-, bits, hbits, -, htop⟩ := h
  rw [stringToNumber_digits hn] at hbits
  exact le_of_roundDouble hbits (by exact_mod_cast htop) (by norm_num)

/-- A range that is read and not misread. -/
theorem isCidr_of_parseCIDR {text : String} (hread : parseCIDR text ≠ none) (h : ¬ Misread text) :
    ∃ x n, IsCidr text x n := by
  obtain ⟨a, b, c, d, bitsText, hbits, htext⟩ := (parseCIDR_ne_none_iff text).mp hread
  rcases htext with rfl | ⟨rest, rfl⟩
  · obtain ⟨x, hip⟩ := (isAddress_dotted_iff a b c d).mpr fun hempty => h (.network hempty hbits)
    have hnumeral : ∃ n, IsNumeral bitsText.toList n := by
      by_contra hnone
      exact h (.bits hbits hnone)
    obtain ⟨n, hn⟩ := hnumeral
    exact ⟨x, n, .mk hip hn (hbits.le hn)⟩
  · exact absurd (.more hbits) h

/-- A text is read exactly where it is not misread. -/
theorem readsExactly_iff (text : String) : ReadsExactly text ↔ ¬ Misread text := by
  constructor
  · intro h hmisread
    rcases parseCIDR_of_misread hmisread with hread | ⟨a, b, c, d, rfl, hempty⟩
    · exact not_isCidr_of_misread hmisread hread (h.cidr.mp hread)
    · have hread : 0 ≤ ipv4ToInt (dotted a b c d) := (ipv4ToInt_nonneg_iff _).mpr ⟨a, b, c, d, rfl⟩
      exact (isAddress_dotted_iff a b c d).mp (h.address.mp hread) hempty
  · intro h
    constructor
    · constructor
      · intro hread
        obtain ⟨a, b, c, d, rfl⟩ := (ipv4ToInt_nonneg_iff text).mp hread
        exact (isAddress_dotted_iff a b c d).mpr fun hempty => h (.octet hempty)
      · rintro ⟨x, hx⟩
        rw [ipv4ToInt_of_isAddress hx]
        exact Int.natCast_nonneg _
    · intro x hx
      exact ipv4ToInt_of_isAddress hx
    · constructor
      · intro hread
        exact isCidr_of_parseCIDR hread h
      · rintro ⟨x, n, hcidr⟩
        rw [parseCIDR_of_isCidr hcidr]
        simp
    · intro x n hcidr
      obtain ⟨-, -, -, -, -, hn⟩ := splitText_of_isCidr hcidr
      exact ⟨_, parseCIDR_of_isCidr hcidr, fun y => contains_blockRange hn y x⟩

/-- A range without a number of bits is that of all addresses, and three dots are one of them. -/
theorem misread_empty :
    parseCIDR "10.0.0.0/" = some { network := 0, mask := 0 } ∧ ¬ ReadsExactly "10.0.0.0/" ∧
      ipv4ToInt "..." = 0 ∧ ¬ ReadsExactly "..." := by
  have hrange : parseCIDR "10.0.0.0/" = some { network := 0, mask := 0 } := by decide +kernel
  have haddress : ipv4ToInt "..." = 0 := by decide +kernel
  refine ⟨hrange, ?_, haddress, ?_⟩
  · intro h
    obtain ⟨x, n, hcidr⟩ := h.cidr.mp (by rw [hrange]; simp)
    obtain ⟨ip, bitsText, hsplit, -, hbits, -⟩ := splitText_of_isCidr hcidr
    rw [show Json.splitText '/' "10.0.0.0/" = ["10.0.0.0", ""] by decide] at hsplit
    obtain ⟨rfl, -⟩ := List.cons.inj (List.cons.inj hsplit).2
    exact hbits.ne_nil rfl
  · intro h
    let none : Octet := { text := [], isDigit := by simp, le := by decide }
    have hdots : dotted none none none none = "..." := by decide
    have hread : ∃ x, IsAddress (dotted none none none none) x := by
      rw [hdots]
      exact h.address.mp (by rw [haddress])
    exact (isAddress_dotted_iff none none none none).mp hread List.mem_cons_self

end OidFed
