import Mathlib.Algebra.Order.Field.Rat
import Mathlib.Data.Int.Log
import Mathlib.Data.List.TakeWhile
import Mathlib.Data.Rat.Floor
import Mathlib.Tactic.Linarith
import Mathlib.Tactic.NormNum

/-!
# Numbers

* `Number`: a double, with the finite ones as exact rationals and one zero.
* `roundDouble`: the double next to a rational, of two the even one. `roundDouble_natCast`: naturals
  below `2^53` are doubles. `le_of_roundDouble`: a bound on the double bounds the natural.
* `stringToNumber`: `Number(text)`. `stringToNumber_digits`: of digits alone it is their number.
* `bitAnd`, `shiftLeft`, `unsignedShiftRight`, `bitNot`: the operators on 32 bits.
-/

namespace Js

inductive Number where
  | nan
  | infinite (negative : Bool)
  | finite (q : Rat)
  deriving DecidableEq, Repr

/-! ## Rounding -/

/-- The integer next to `q`, of two the even one. -/
def roundEven (q : Rat) : Int :=
  if q - ⌊q⌋ < 1 / 2 then ⌊q⌋
  else if 1 / 2 < q - ⌊q⌋ then ⌊q⌋ + 1
  else ⌊q⌋ + ⌊q⌋ % 2

/-- The distance of the doubles around `q`. -/
def doubleUnit (q : Rat) : Rat := (2 : Rat) ^ max (Int.log 2 |q| - 52) (-1074)

/-- The double next to `q`. -/
def roundDouble (q : Rat) : Number :=
  let rounded := roundEven (q / doubleUnit q) * doubleUnit q
  if 2 ^ 1024 ≤ |rounded| then .infinite (decide (q < 0)) else .finite rounded

@[simp] theorem roundEven_intCast (n : Int) : roundEven n = n := by simp [roundEven]

theorem roundDouble_natCast {n : Nat} (h : n < 2 ^ 53) : roundDouble n = .finite n := by
  rcases Nat.eq_zero_or_pos n with rfl | hpos
  · simp [roundDouble, roundEven]
  have habs : |(n : Rat)| = n := abs_of_nonneg (by positivity)
  have hlog : Int.log 2 |(n : Rat)| = (Nat.log 2 n : Nat) := by
    rw [habs, Int.log_natCast]
  have hle : Nat.log 2 n ≤ 52 := Nat.lt_succ_iff.mp (Nat.log_lt_of_lt_pow hpos.ne' h)
  -- The unit is `2^-k` for some `k`, so that `n` is a multiple of it.
  have hunit : doubleUnit n = ((2 : Rat) ^ (52 - Nat.log 2 n))⁻¹ := by
    rw [doubleUnit, hlog, max_eq_left (by omega), ← zpow_natCast, ← zpow_neg]
    congr 1
    omega
  have hmultiple : (n : Rat) / doubleUnit n = ((n * 2 ^ (52 - Nat.log 2 n) : Nat) : Int) := by
    rw [hunit, div_inv_eq_mul]
    push_cast
    rfl
  have hrounded : (roundEven (n / doubleUnit n) : Rat) * doubleUnit n = n := by
    rw [hmultiple, roundEven_intCast, ← hmultiple]
    exact div_mul_cancel₀ _ (by rw [hunit]; positivity)
  have hsmall : (n : Rat) < 2 ^ 1024 := by
    have : (n : Rat) < (2 ^ 53 : Nat) := by exact_mod_cast h
    exact this.trans (by exact_mod_cast Nat.pow_lt_pow_right (by norm_num) (by norm_num))
  simp only [roundDouble, hrounded, habs]
  rw [if_neg (not_le.mpr hsmall)]

theorem floor_le_roundEven (q : Rat) : ⌊q⌋ ≤ roundEven q := by
  unfold roundEven
  split_ifs <;> omega

/-- A number that is rounded to at most `m` is at most `m`. -/
theorem le_of_roundDouble {n m : Nat} {q : Rat} (h : roundDouble n = .finite q) (hq : q ≤ m)
    (hm : m < 2 ^ 52) : n ≤ m := by
  by_contra hlt
  have hn : (m : Rat) + 1 ≤ n := by exact_mod_cast not_le.mp hlt
  have hpos : 0 < n := by omega
  have hunit : doubleUnit n * 2 ^ 52 ≤ n := by
    have habs : |(n : Rat)| = n := abs_of_nonneg (by positivity)
    have hlog : (2 : Rat) ^ Int.log 2 (n : Rat) ≤ n := by
      rw [Int.log_natCast, zpow_natCast]
      exact_mod_cast Nat.pow_log_le_self 2 hpos.ne'
    have hmax : max (Int.log 2 |(n : Rat)| - 52) (-1074) = Int.log 2 (n : Rat) - 52 := by
      rw [habs, Int.log_natCast]
      omega
    rw [doubleUnit, hmax, zpow_sub₀ (by norm_num)]
    refine le_of_eq_of_le ?_ hlog
    exact div_mul_cancel₀ _ (by positivity)
  have hunit_pos : 0 < doubleUnit n := by
    rw [doubleUnit]
    exact zpow_pos (by norm_num) _
  have hrounded : (n : Rat) - doubleUnit n < roundEven (n / doubleUnit n) * doubleUnit n := by
    have hfloor : (n : Rat) / doubleUnit n < ⌊(n : Rat) / doubleUnit n⌋ + 1 := Int.lt_floor_add_one _
    have hround : ((⌊(n : Rat) / doubleUnit n⌋ : Int) : Rat) ≤ roundEven (n / doubleUnit n) := by
      exact_mod_cast floor_le_roundEven _
    have hquot : (n : Rat) / doubleUnit n - 1 < roundEven (n / doubleUnit n) := by linarith
    calc (n : Rat) - doubleUnit n = (n / doubleUnit n - 1) * doubleUnit n := by
          rw [sub_mul, div_mul_cancel₀ _ hunit_pos.ne', one_mul]
      _ < roundEven (n / doubleUnit n) * doubleUnit n := by gcongr
  have hvalue : roundEven (n / doubleUnit n) * doubleUnit n = q := by
    simp only [roundDouble] at h
    split at h
    · exact absurd h (by simp)
    · exact Number.finite.inj h
  have hm' : (m : Rat) + 1 ≤ 2 ^ 52 := by exact_mod_cast hm
  linarith

/-! ## Texts of numbers -/

/-- White space and line ends, as `trim` removes them. -/
def isWhiteSpace (c : Char) : Bool :=
  [9, 10, 11, 12, 13, 32, 0xa0, 0x1680, 0x2028, 0x2029, 0x202f, 0x205f, 0x3000,
    0xfeff].contains c.toNat || decide (0x2000 ≤ c.toNat ∧ c.toNat ≤ 0x200a)

def trimText (text : List Char) : List Char :=
  ((text.dropWhile isWhiteSpace).reverse.dropWhile isWhiteSpace).reverse

/-- `trim()`. -/
def trim (text : String) : String := String.ofList (trimText text.toList)

/-- The number of a digit. -/
def digitNumber (c : Char) : Option Nat :=
  if '0' ≤ c ∧ c ≤ '9' then some (c.toNat - '0'.toNat)
  else if 'a' ≤ c ∧ c ≤ 'z' then some (c.toNat - 'a'.toNat + 10)
  else if 'A' ≤ c ∧ c ≤ 'Z' then some (c.toNat - 'A'.toNat + 10)
  else none

/-- The number of some digits of a base, behind those that stand for `start`. -/
def digitsNumber (base start : Nat) : List Char → Option Nat
  | [] => some start
  | c :: rest => do
    let digit ← digitNumber c
    if digit < base then digitsNumber base (start * base + digit) rest else none

/-- What follows the `e` of a number. -/
def exponentNumber : List Char → Option Int
  | [] => some 0
  | [_] => none
  | _ :: '-' :: digits => if digits.isEmpty then none else (digitsNumber 10 0 digits).map (- ·)
  | _ :: '+' :: digits => if digits.isEmpty then none else (digitsNumber 10 0 digits).map (·)
  | _ :: digits => (digitsNumber 10 0 digits).map (·)

/-- The value of a decimal number without a sign. -/
def decimalNumber (text : List Char) : Option Rat :=
  let mantissa := text.takeWhile fun c => c != 'e' && c != 'E'
  let exponent := text.dropWhile fun c => c != 'e' && c != 'E'
  let fraction := (mantissa.dropWhile fun c => c != '.').drop 1
  let digits := (mantissa.takeWhile fun c => c != '.') ++ fraction
  if digits.isEmpty then none
  else do
    let value ← digitsNumber 10 0 digits
    let scale ← exponentNumber exponent
    return value * (10 : Rat) ^ (scale - fraction.length)

def unsignedNumber (negative : Bool) (text : List Char) : Number :=
  if text = "Infinity".toList then .infinite negative
  else
    match decimalNumber text with
    | none => .nan
    | some q => roundDouble (if negative then -q else q)

/-- The number of some digits of a base, behind its prefix. -/
def radixNumber (base : Nat) (digits : List Char) : Number :=
  if digits.isEmpty then .nan
  else
    match digitsNumber base 0 digits with
    | none => .nan
    | some n => roundDouble n

/-- The base of an integer literal, by the letter behind its zero. -/
def radixOf (c : Char) : Option Nat :=
  if c = 'x' ∨ c = 'X' then some 16
  else if c = 'o' ∨ c = 'O' then some 8
  else if c = 'b' ∨ c = 'B' then some 2
  else none

def signedNumber : List Char → Number
  | '+' :: rest => unsignedNumber false rest
  | '-' :: rest => unsignedNumber true rest
  | text => unsignedNumber false text

/-- The number of a text without white space around it. -/
def literalNumber : List Char → Number
  | [] => .finite 0
  | '0' :: c :: rest =>
    match radixOf c with
    | some base => radixNumber base rest
    | none => signedNumber ('0' :: c :: rest)
  | text => signedNumber text

/-- `Number(text)`. -/
def stringToNumber (text : String) : Number := literalNumber (trimText text.toList)

/-- A text of decimal digits, and their number. -/
structure IsNumeral (text : List Char) (n : Nat) : Prop where
  ne_nil : text ≠ []
  isDigit : ∀ c ∈ text, c.isDigit = true
  number : Nat.ofDigitChars 10 text 0 = n

theorem isNumeral_repr (n : Nat) : IsNumeral n.repr.toList n where
  ne_nil := by
    rw [Nat.toList_repr]
    exact Nat.toDigits_ne_nil
  isDigit c hc := by
    rw [Nat.toList_repr] at hc
    exact Nat.isDigit_of_mem_toDigits (by decide) (by decide) hc
  number := by rw [Nat.toList_repr, Nat.ofDigitChars_ten_toDigits]

theorem IsNumeral.not_mem {text : List Char} {n : Nat} (h : IsNumeral text n) {ch : Char}
    (hch : ch.isDigit = false) : ch ∉ text := by
  intro hmem
  have hdigit := h.isDigit ch hmem
  rw [hch] at hdigit
  exact absurd hdigit (by simp)

theorem toNat_of_isDigit {c : Char} (h : c.isDigit = true) : 48 ≤ c.toNat ∧ c.toNat ≤ 57 := by
  exact Char.isDigit_iff_toNat.mp h

theorem digitNumber_of_isDigit {c : Char} (h : c.isDigit = true) :
    digitNumber c = some (c.toNat - '0'.toNat) := by
  have hc := toNat_of_isDigit h
  have hrange : '0' ≤ c ∧ c ≤ '9' := by
    rw [Char.le_def, Char.le_def, UInt32.le_iff_toNat_le, UInt32.le_iff_toNat_le]
    exact hc
  rw [digitNumber, if_pos hrange]

theorem digitsNumber_of_isDigit {text : List Char} (h : ∀ c ∈ text, c.isDigit = true)
    (start : Nat) : digitsNumber 10 start text = some (Nat.ofDigitChars 10 text start) := by
  induction text generalizing start with
  | nil => simp [digitsNumber]
  | cons c rest ih =>
    have hc := h c List.mem_cons_self
    have hlt : c.toNat - '0'.toNat < 10 := by
      have := toNat_of_isDigit hc
      have h0 : '0'.toNat = 48 := rfl
      omega
    have hrest := ih (fun d hd => h d (List.mem_cons_of_mem c hd))
      (start * 10 + (c.toNat - '0'.toNat))
    rw [digitsNumber, digitNumber_of_isDigit hc]
    change (if c.toNat - '0'.toNat < 10 then _ else none) = _
    rw [if_pos hlt, hrest, Nat.ofDigitChars_cons, Nat.mul_comm start]

theorem isWhiteSpace_of_isDigit {c : Char} (h : c.isDigit = true) : isWhiteSpace c = false := by
  obtain ⟨h48, h57⟩ := toNat_of_isDigit h
  simp only [isWhiteSpace, List.contains_eq_mem, List.mem_cons, List.not_mem_nil, or_false,
    Bool.or_eq_false_iff, decide_eq_false_iff_not]
  omega

theorem dropWhile_eq_self_of_forall {α : Type} {p : α → Bool} {l : List α}
    (h : ∀ a ∈ l, p a = false) : l.dropWhile p = l := by
  cases l with
  | nil => rfl
  | cons a rest => rw [List.dropWhile_cons_of_neg (by simp [h a List.mem_cons_self])]

theorem trimText_of_isDigit {text : List Char} (h : ∀ c ∈ text, c.isDigit = true) :
    trimText text = text := by
  have hspace : ∀ c ∈ text, isWhiteSpace c = false := fun c hc => isWhiteSpace_of_isDigit (h c hc)
  rw [trimText, dropWhile_eq_self_of_forall hspace,
    dropWhile_eq_self_of_forall fun c hc => hspace c (List.mem_reverse.mp hc), List.reverse_reverse]

theorem decimalNumber_of_isNumeral {text : List Char} {n : Nat} (h : IsNumeral text n) :
    decimalNumber text = some (n : Rat) := by
  have hplain : ∀ c ∈ text, c ≠ 'e' ∧ c ≠ 'E' ∧ c ≠ '.' := by
    intro c hc
    have hdigit := h.isDigit c hc
    refine ⟨?_, ?_, ?_⟩ <;> rintro rfl <;> revert hdigit <;> decide
  have htake : text.takeWhile (fun c => c != 'e' && c != 'E') = text :=
    List.takeWhile_eq_self_iff.mpr fun c hc => by simp [hplain c hc]
  have hdrop : text.dropWhile (fun c => c != 'e' && c != 'E') = [] :=
    List.dropWhile_eq_nil_iff.mpr fun c hc => by simp [hplain c hc]
  have hwhole : text.takeWhile (fun c => c != '.') = text :=
    List.takeWhile_eq_self_iff.mpr fun c hc => by simp [hplain c hc]
  have hfraction : text.dropWhile (fun c => c != '.') = [] :=
    List.dropWhile_eq_nil_iff.mpr fun c hc => by simp [hplain c hc]
  simp only [decimalNumber, htake, hdrop, hwhole, hfraction, List.drop_nil, List.append_nil,
    List.isEmpty_eq_false_iff.mpr h.ne_nil, digitsNumber_of_isDigit h.isDigit, h.number]
  simp [exponentNumber]

/-- Decimal digits are read as their number. -/
theorem stringToNumber_digits {text : String} {n : Nat} (h : IsNumeral text.toList n) :
    stringToNumber text = roundDouble n := by
  have hunsigned : unsignedNumber false text.toList = roundDouble n := by
    have hinfinity : text.toList ≠ "Infinity".toList := by
      intro heq
      have := h.isDigit 'I' (by rw [heq]; decide)
      revert this
      decide
    rw [unsignedNumber, if_neg hinfinity, decimalNumber_of_isNumeral h]
    rfl
  -- no digit is a sign, or the letter of a radix
  have hletter : ∀ c, c.isDigit = true → radixOf c = none ∧ c ≠ '+' ∧ c ≠ '-' := by
    intro c hc
    refine ⟨?_, ?_, ?_⟩
    · unfold radixOf
      split_ifs with hx ho hb
      · rcases hx with rfl | rfl <;> revert hc <;> decide
      · rcases ho with rfl | rfl <;> revert hc <;> decide
      · rcases hb with rfl | rfl <;> revert hc <;> decide
      · rfl
    · rintro rfl
      revert hc
      decide
    · rintro rfl
      revert hc
      decide
  have hsigned : signedNumber text.toList = unsignedNumber false text.toList := by
    unfold signedNumber
    split
    · rename_i rest heq
      exact absurd rfl (hletter '+' (h.isDigit '+' (by rw [heq]; exact List.mem_cons_self))).2.1
    · rename_i rest heq
      exact absurd rfl (hletter '-' (h.isDigit '-' (by rw [heq]; exact List.mem_cons_self))).2.2
    · rfl
  rw [stringToNumber, trimText_of_isDigit h.isDigit, literalNumber.eq_def]
  split
  · rename_i heq
    exact absurd heq h.ne_nil
  · rename_i c rest heq
    have hc : c ∈ text.toList := by
      rw [heq]
      exact List.mem_cons_of_mem _ List.mem_cons_self
    rw [(hletter c (h.isDigit c hc)).1, ← heq]
    exact hsigned.trans hunsigned
  · exact hsigned.trans hunsigned

/-! ## Operators on 32 bits -/

/-- The 32 bits of a number: those of its integer part. -/
def toBits (q : Rat) : BitVec 32 := BitVec.ofInt 32 (if q < 0 then ⌈q⌉ else ⌊q⌋)

def Number.bits : Number → BitVec 32
  | .finite q => toBits q
  | _ => 0

/-- `a & b`. -/
def bitAnd (a b : Rat) : Int := (toBits a &&& toBits b).toInt

/-- `~a`. -/
def bitNot (a : Rat) : Int := (~~~toBits a).toInt

/-- `a << b`. -/
def shiftLeft (a : Rat) (b : Number) : Int := (toBits a <<< (b.bits.toNat % 32)).toInt

/-- `a >>> b`. -/
def unsignedShiftRight (a b : Rat) : Nat := (toBits a >>> ((toBits b).toNat % 32)).toNat

theorem toBits_intCast (n : Int) : toBits n = BitVec.ofInt 32 n := by simp [toBits]

theorem toBits_natCast (n : Nat) : toBits n = BitVec.ofNat 32 n := by
  have h := toBits_intCast n
  rwa [Int.cast_natCast, BitVec.ofInt_natCast] at h

@[simp] theorem toBits_toInt (x : BitVec 32) : toBits x.toInt = x := by
  rw [toBits_intCast, BitVec.ofInt_toInt]

@[simp] theorem toBits_toNat (x : BitVec 32) : toBits x.toNat = x := by
  rw [toBits_natCast, BitVec.ofNat_toNat, BitVec.setWidth_eq]

/-- `a >>> 0` reads the bits without a sign. -/
theorem unsignedShiftRight_zero (a : Rat) : unsignedShiftRight a 0 = (toBits a).toNat := by
  have h : (toBits 0).toNat % 32 = 0 := by
    rw [show (0 : Rat) = (0 : Nat) by rfl, toBits_natCast]
    rfl
  rw [unsignedShiftRight, h, BitVec.ushiftRight_zero]

end Js
