import OidFed.Js.LowerCase
import OidFed.Js.Utf16
import OidFed.Lib.Positional
import OidFed.Lib.Regular
import OidFed.Resolve.Addresses

/-!
# IPv6 addresses that are not fetched from (`trust-chain/fetch.ts`)

* `expandIPv6`, `isSpecialUseIPv6`, `isSpecialUseIP`: the checks of an IPv6 host.
* `HexGroup`, `IsTail`, `IsIpv6Address`: the texts of an address, with `::` in the place of groups of
  zeros and a dotted address in the place of the last two groups.
* `ipv6_checks`: an address is expanded to the digits of its 128 bits, and it is for a special use
  where it lies in one of the documented ranges.
-/

namespace OidFed

open Js Positional Regular RegularExpression

/-! ## The checks -/

/-- `text.padStart(4, "0")`. -/
def padGroup (text : List Char) : List Char :=
  List.replicate (4 - (text.flatMap Js.unitsOf).length) '0' ++ text

/-- `n.toString(16)`. -/
def hexText (n : Int) : List Char := Nat.toDigits 16 n.toNat

/-- `\d{1,3}\.\d{1,3}\.\d{1,3}\.\d{1,3}`. -/
def dottedPattern : RegularExpression Char :=
  let octet := between (anyOf "0123456789".toList) 1 3
  octet * behind '.' octet * behind '.' octet * behind '.' octet

/-- The characters that `.` does not match. -/
def isLineEnd (c : Char) : Bool := ['\n', '\r', '\u2028', '\u2029'].contains c

/-- `address.match(/^(.*:)(\d{1,3}\.\d{1,3}\.\d{1,3}\.\d{1,3})$/)`: what the two groups match. As
the second has no colon, the first ends with the last one. -/
def dottedMatch (address : List Char) : Option (List Char × List Char) :=
  let dotted := (address.reverse.takeWhile (· != ':')).reverse
  let before := (address.reverse.dropWhile (· != ':')).reverse
  if before = [] ∨ before.any isLineEnd ∨ dottedPattern.rmatch dotted = false then none
  else some (before, dotted)

/-- The address with two groups in the place of a dotted part; `none` where that is out of range. -/
def embedIPv4 (address : List Char) : Option (List Char) :=
  match dottedMatch address with
  | none => some address
  | some (before, dotted) =>
    let ipv4Int := ipv4ToInt (String.ofList dotted)
    if ipv4Int < 0 then none
    else
      let hi := padGroup (hexText (bitAnd (unsignedShiftRight ipv4Int 16) 0xffff))
      let lo := padGroup (hexText (bitAnd ipv4Int 0xffff))
      some (before ++ hi ++ ':' :: lo)

/-- A text before what a list of texts begins with. -/
def consFirst (text : List Char) : List (List Char) → List (List Char)
  | [] => [text]
  | first :: rest => (text ++ first) :: rest

/-- `address.split("::")`. -/
def splitHalves : List Char → List (List Char)
  | [] => [[]]
  | ':' :: ':' :: rest => [] :: splitHalves rest
  | c :: rest => consFirst [c] (splitHalves rest)

/-- `half ? half.split(":") : []`. -/
def groupsOf (half : List Char) : List (List Char) := if half = [] then [] else half.splitOn ':'

section Checks

variable (toLowerCase : String → String)

def joinGroups (groups : List (List Char)) : String :=
  if groups.length ≠ 8 then "" else toLowerCase (String.ofList (groups.flatMap padGroup))

/-- Expand an IPv6 address to its full 32-character lowercase hex form (no colons).
Returns empty string on parse error. -/
def expandIPv6 (address : String) : String :=
  match embedIPv4 address.toList with
  | none => ""
  | some addr =>
    match splitHalves addr with
    | [left, right] =>
      let left := groupsOf left
      let right := groupsOf right
      if 8 < left.length + right.length then ""
      else joinGroups toLowerCase
        (left ++ List.replicate (8 - (left.length + right.length)) ['0'] ++ right)
    | [_] => joinGroups toLowerCase (addr.splitOn ':')
    -- more than one `::`
    | _ => ""

/-- `Number.parseInt(text, 16)`. -/
def parseIntHex (text : List Char) : Number :=
  let text := text.dropWhile isWhiteSpace
  let unsigned := if text.head? = some '-' ∨ text.head? = some '+' then text.tail else text
  let number : List Char := match unsigned with
    | '0' :: x :: rest => if x = 'x' ∨ x = 'X' then rest else unsigned
    | _ => unsigned
  let digits := number.takeWhile fun c => (digitNumber c).any (· < 16)
  if digits = [] then .nan
  else
    match digitsNumber 16 0 digits with
    | none => .nan
    | some n => .finite (if text.head? = some '-' then -n else n)

/-- `a & b`, where `a` may be `NaN`. -/
def bitAndNumber (a : Number) (b : Rat) : Int := (a.bits &&& toBits b).toInt

/-- Returns true if the given IPv6 address string is in any IANA special-use range. -/
def isSpecialUseIPv6 (address : String) : Bool :=
  let hex := (expandIPv6 toLowerCase address).toList
  if hex = [] then false
  else
    hex == "00000000000000000000000000000000".toList ||
    hex == "00000000000000000000000000000001".toList ||
    "00000000000000000000ffff".toList.isPrefixOf hex ||
    "0064ff9b0000000000000000".toList.isPrefixOf hex ||
    "0064ff9b0001".toList.isPrefixOf hex ||
    "0100000000000000".toList.isPrefixOf hex ||
    ("200100".toList.isPrefixOf hex || "200101".toList.isPrefixOf hex) ||
    "20010db8".toList.isPrefixOf hex ||
    "2002".toList.isPrefixOf hex ||
    "2620004f8000".toList.isPrefixOf hex ||
    bitAndNumber (parseIntHex (hex.take 2)) 0xfe == 0xfc ||
    bitAndNumber (parseIntHex (hex.take 4)) 0xffc0 == 0xfe80 ||
    "ff".toList.isPrefixOf hex

/-- Returns true if the address (IPv4 or IPv6) is in any IANA special-use range.
IPv6 literals from URL hostnames may arrive bracketed as `[::1]`. -/
def isSpecialUseIP (address : String) : Bool :=
  if address.toList.head? = some '[' ∧ address.toList.getLast? = some ']' then
    isSpecialUseIPv6 toLowerCase (String.ofList (address.toList.drop 1).dropLast)
  else if address.toList.contains ':' then isSpecialUseIPv6 toLowerCase address
  else isSpecialUseIPv4 address

end Checks

/-! ## Addresses -/

/-- One to four hexadecimal digits, in any case. -/
structure HexGroup where
  text : List Char
  value : Nat
  nonempty : text ≠ []
  length_le : text.length ≤ 4
  number : digitsNumber 16 0 text = some value

/-- Texts with colons between them. -/
def colons (texts : List (List Char)) : List Char := [':'].intercalate texts

/-- A dotted address of up to three digits for each octet, as two groups. -/
inductive IsQuad : List Char → Nat → Nat → Prop where
  | mk {ta tb tc td : List Char} {a b c d : Nat} : IsNumeral ta a → IsNumeral tb b →
      IsNumeral tc c → IsNumeral td d → a ≤ 255 → b ≤ 255 → c ≤ 255 → d ≤ 255 →
      (∀ t ∈ [ta, tb, tc, td], t.length ≤ 3) →
      IsQuad (ta ++ '.' :: (tb ++ '.' :: (tc ++ '.' :: td))) (a * 256 + b) (c * 256 + d)

/-- The end of an address: groups, of which a dotted address may be the last two. -/
inductive IsTail : List Char → List Nat → Prop where
  | groups {groups : List HexGroup} : groups ≠ [] →
      IsTail (colons (groups.map HexGroup.text)) (groups.map HexGroup.value)
  | dotted {quad : List Char} {hi lo : Nat} (groups : List HexGroup) : IsQuad quad hi lo →
      IsTail (colons (groups.map HexGroup.text ++ [quad])) (groups.map HexGroup.value ++ [hi, lo])

/-- The bits of an address by its groups, the first the highest. -/
def ipv6 (groups : List Nat) : BitVec 128 := BitVec.ofNat 128 (Nat.ofDigits 65536 groups.reverse)

/-- A text of an address: all eight groups, or `::` in the place of some. -/
inductive IsIpv6Address : String → BitVec 128 → Prop where
  | full {text : List Char} {values : List Nat} : IsTail text values → values.length = 8 →
      IsIpv6Address (String.ofList text) (ipv6 values)
  | shortened {right : List Char} {values : List Nat} (left : List HexGroup) :
      right = [] ∧ values = [] ∨ IsTail right values → left.length + values.length ≤ 7 →
      IsIpv6Address (String.ofList (colons (left.map HexGroup.text) ++ ':' :: ':' :: right))
        (ipv6 (left.map HexGroup.value ++
          List.replicate (8 - (left.length + values.length)) 0 ++ values))

/-- The 32 hexadecimal digits of an address, in lower case. -/
def hexDigits (x : BitVec 128) : String :=
  String.ofList ((placeDigits 16 32 x.toNat).map Nat.digitChar)

/-- The documented ranges: an address, and the number of bits that are fixed. -/
def specialUseIPv6Blocks : List (BitVec 128 × Nat) :=
  [(ipv6 [0, 0, 0, 0, 0, 0, 0, 0], 128), (ipv6 [0, 0, 0, 0, 0, 0, 0, 1], 128),
    (ipv6 [0, 0, 0, 0, 0, 0xffff, 0, 0], 96), (ipv6 [0x64, 0xff9b, 0, 0, 0, 0, 0, 0], 96),
    (ipv6 [0x64, 0xff9b, 1, 0, 0, 0, 0, 0], 48), (ipv6 [0x100, 0, 0, 0, 0, 0, 0, 0], 64),
    (ipv6 [0x2001, 0, 0, 0, 0, 0, 0, 0], 23), (ipv6 [0x2001, 0xdb8, 0, 0, 0, 0, 0, 0], 32),
    (ipv6 [0x2002, 0, 0, 0, 0, 0, 0, 0], 16), (ipv6 [0x2620, 0x4f, 0x8000, 0, 0, 0, 0, 0], 48),
    (ipv6 [0xfc00, 0, 0, 0, 0, 0, 0, 0], 7), (ipv6 [0xfe80, 0, 0, 0, 0, 0, 0, 0], 10),
    (ipv6 [0xff00, 0, 0, 0, 0, 0, 0, 0], 8)]

/-- The address has the first bits of a range. -/
def InBlock (x : BitVec 128) (block : BitVec 128 × Nat) : Prop :=
  x.toNat / 2 ^ (128 - block.2) = block.1.toNat / 2 ^ (128 - block.2)

/-! ## Hexadecimal digits -/

theorem digitNumber_lower {c : Char} {d : Nat} (h : digitNumber c = some d) (hd : d < 16) :
    c.toLower = d.digitChar ∧ c.toNat < 128 := by
  have hascii : c.toNat < 128 := by
    have hz : ∀ e : Char, c ≤ e → e.toNat < 128 → c.toNat < 128 := fun e hce he =>
      lt_of_le_of_lt (UInt32.le_iff_toNat_le.mp hce) he
    unfold digitNumber at h
    split_ifs at h with h0 ha hA
    · exact hz '9' h0.2 (by decide)
    · exact hz 'z' ha.2 (by decide)
    · exact hz 'Z' hA.2 (by decide)
  have htable : ∀ n < 128, ∀ d < 16, digitNumber (Char.ofNat n) = some d →
      (Char.ofNat n).toLower = d.digitChar := by decide +kernel
  have hlower := htable c.toNat hascii d hd
  rw [Char.ofNat_toNat] at hlower
  exact ⟨hlower h, hascii⟩

@[simp] theorem digitNumber_digitChar {d : Nat} (hd : d < 16) : digitNumber d.digitChar = some d := by
  revert d
  decide

/-- What a text of hexadecimal digits tells: its digits in lower case, and what was before them. -/
theorem digitsNumber_lower {text : List Char} {start n : Nat}
    (h : digitsNumber 16 start text = some n) :
    text.map Char.toLower = (placeDigits 16 text.length n).map Nat.digitChar ∧
      n / 16 ^ text.length = start ∧ ∀ c ∈ text, ∃ d < 16, digitNumber c = some d := by
  induction text generalizing start with
  | nil =>
    obtain rfl := Option.some.inj h
    exact ⟨rfl, Nat.div_one _, by simp⟩
  | cons c text ih =>
    obtain ⟨d, hd, hrest⟩ := Option.bind_eq_some_iff.mp h
    split at hrest
    · rename_i hlt
      obtain ⟨hlower, hdiv, hdigits⟩ := ih hrest
      refine ⟨?_, ?_, List.forall_mem_cons.mpr ⟨⟨d, hlt, hd⟩, hdigits⟩⟩
      · rw [List.map_cons, hlower, (digitNumber_lower hd hlt).1, List.length_cons, placeDigits_succ, hdiv,
          List.map_cons]
        congr 2
        omega
      · rw [List.length_cons, Nat.pow_succ, ← Nat.div_div_eq_div_mul, hdiv]
        omega
    · simp at hrest

theorem digitsNumber_append (b start : Nat) (l m : List Char) :
    digitsNumber b start (l ++ m) = (digitsNumber b start l).bind fun n => digitsNumber b n m := by
  induction l generalizing start with
  | nil => rfl
  | cons c l ih =>
    rw [List.cons_append, digitsNumber, digitsNumber]
    cases digitNumber c with
    | none => rfl
    | some d =>
      change (if d < b then digitsNumber b (start * b + d) (l ++ m) else none) =
        Option.bind (if d < b then digitsNumber b (start * b + d) l else none) _
      split
      · exact ih _
      · rfl

/-- The digits of a number are read as the number. -/
theorem digitsNumber_digits (k n start : Nat) (hn : n < 16 ^ k) :
    digitsNumber 16 start ((placeDigits 16 k n).map Nat.digitChar) = some (start * 16 ^ k + n) := by
  induction k generalizing n with
  | zero =>
    obtain rfl : n = 0 := by simpa using hn
    simp [placeDigits, digitsNumber]
  | succ k ih =>
    have hlt : n % 16 < 16 := Nat.mod_lt n (by omega)
    have hdiv : n / 16 < 16 ^ k := Nat.div_lt_of_lt_mul (by rwa [← Nat.pow_succ'])
    rw [placeDigits, List.map_append, digitsNumber_append, ih _ hdiv, Option.bind_some, List.map_singleton,
      digitsNumber, digitNumber_digitChar hlt]
    change (if n % 16 < 16 then _ else none) = _
    rw [if_pos hlt, digitsNumber, Nat.pow_succ, ← Nat.mul_assoc]
    congr 1
    omega

theorem length_units_ascii {text : List Char} (h : ∀ c ∈ text, c.toNat < 128) :
    (text.flatMap Js.unitsOf).length = text.length := by
  induction text with
  | nil => rfl
  | cons c text ih =>
    rw [List.forall_mem_cons] at h
    have hone : Js.unitsOf c = [c.toNat] := by rw [Js.unitsOf, if_pos (by omega)]
    rw [List.flatMap_cons, List.length_append, ih h.2, hone, List.length_singleton, List.length_cons]
    omega

/-! ## Groups -/

namespace HexGroup

variable (g : HexGroup)

theorem digit {c : Char} (h : c ∈ g.text) : ∃ d < 16, digitNumber c = some d :=
  (digitsNumber_lower g.number).2.2 c h

theorem ascii : ∀ c ∈ g.text, c.toNat < 128 := by
  intro c hc
  obtain ⟨d, hlt, hd⟩ := g.digit hc
  exact (digitNumber_lower hd hlt).2

/-- No character of an address but its digits is in a group. -/
theorem not_mem {c : Char} (h : digitNumber c = none) : c ∉ g.text := by
  intro hc
  obtain ⟨d, -, hd⟩ := g.digit hc
  rw [h] at hd
  simp at hd

theorem length_units : (g.text.flatMap Js.unitsOf).length = g.text.length :=
  length_units_ascii g.ascii

theorem value_lt : g.value < 65536 := by
  have hdiv : g.value / 16 ^ g.text.length = 0 := (digitsNumber_lower g.number).2.1
  have hlt : g.value < 16 ^ g.text.length := by
    have hpos : 0 < 16 ^ g.text.length := Nat.pow_pos (by omega)
    by_contra hge
    have := Nat.div_pos (not_lt.mp hge) hpos
    omega
  exact lt_of_lt_of_le hlt (Nat.pow_le_pow_right (by omega) g.length_le)

/-- A group is padded to its four digits. -/
theorem padGroup_lower :
    (padGroup g.text).map Char.toLower = (placeDigits 16 4 g.value).map Nat.digitChar := by
  obtain ⟨hlower, hdiv, -⟩ := digitsNumber_lower g.number
  have hfour : 4 = (4 - g.text.length) + g.text.length := by
    have := g.length_le
    omega
  rw [padGroup, g.length_units, List.map_append, hlower, List.map_replicate]
  conv_rhs => rw [hfour, placeDigits_add, hdiv, placeDigits_zero, List.map_append, List.map_replicate]
  rfl

theorem ascii_padGroup : ∀ c ∈ padGroup g.text, c.toNat < 128 := by
  intro c hc
  rw [padGroup, List.mem_append] at hc
  rcases hc with hc | hc
  · rw [List.eq_of_mem_replicate hc]
    decide
  · exact g.ascii c hc

end HexGroup

/-- A group of zeros, as the expansion fills it in. -/
def zeroGroup : HexGroup :=
  { text := ['0'], value := 0, nonempty := by simp, length_le := by decide, number := by decide }

theorem ipv6_toNat {values : List Nat} (hlen : values.length = 8) (hlt : ∀ v ∈ values, v < 65536) :
    placeDigits 65536 8 (ipv6 values).toNat = values := by
  have hrev : ∀ v ∈ values.reverse, v < 65536 := fun v hv => hlt v (List.mem_reverse.mp hv)
  have hbound : Nat.ofDigits 65536 values.reverse < 2 ^ 128 := by
    have h := Nat.ofDigits_lt_base_pow_length (by omega) hrev
    rw [List.length_reverse, hlen] at h
    exact h.trans_eq (by norm_num)
  have hdigits := placeDigits_ofDigits hrev
  rw [List.length_reverse, hlen, List.reverse_reverse] at hdigits
  rw [ipv6, BitVec.toNat_ofNat, Nat.mod_eq_of_lt hbound, hdigits]

/-- Eight groups are joined to the digits of the address. -/
theorem joinGroups_eq {toLowerCase : String → String} (hlower : LowersAscii toLowerCase)
    {groups : List HexGroup} (hlen : groups.length = 8) :
    joinGroups toLowerCase (groups.map HexGroup.text) =
      hexDigits (ipv6 (groups.map HexGroup.value)) := by
  have hascii : ∀ c ∈ (String.ofList ((groups.map HexGroup.text).flatMap padGroup)).toList,
      c.toNat < 128 := by
    intro c hc
    rw [String.toList_ofList, List.mem_flatMap] at hc
    obtain ⟨t, ht, hc⟩ := hc
    obtain ⟨g, -, rfl⟩ := List.mem_map.mp ht
    exact g.ascii_padGroup c hc
  have hvalues : placeDigits 65536 8 (ipv6 (groups.map HexGroup.value)).toNat =
      groups.map HexGroup.value := by
    refine ipv6_toNat (by rw [List.length_map, hlen]) fun v hv => ?_
    obtain ⟨g, -, rfl⟩ := List.mem_map.mp hv
    exact g.value_lt
  rw [joinGroups, if_neg (by rw [List.length_map, hlen]; exact fun h => h rfl), hlower.eq hascii,
    String.toList_ofList, hexDigits]
  -- the digits of an address are the digits of its groups
  have hpow : placeDigits 16 32 (ipv6 (groups.map HexGroup.value)).toNat =
      (groups.map HexGroup.value).flatMap (placeDigits 16 4) := by
    have h := placeDigits_pow (b := 16) 4 8 (ipv6 (groups.map HexGroup.value)).toNat
    rwa [show (16 : Nat) ^ 4 = 65536 by norm_num, hvalues] at h
  rw [hpow, List.map_flatMap, List.flatMap_map, List.map_flatMap, List.flatMap_map]
  exact congrArg _ (List.flatMap_congr fun g _ => g.padGroup_lower)

/-! ## Splitting -/

theorem colons_cons (t : List Char) {texts : List (List Char)} (h : texts ≠ []) :
    colons (t :: texts) = t ++ ':' :: colons texts := by
  cases texts with
  | nil => exact absurd rfl h
  | cons u texts => simp [colons, List.intercalate, List.intersperse]

@[simp] theorem colons_singleton (t : List Char) : colons [t] = t := by
  simp [colons, List.intercalate]

/-- Texts between colons. -/
def Words (texts : List (List Char)) : Prop := ∀ t ∈ texts, t ≠ [] ∧ ':' ∉ t

theorem splitHalves_ne_nil (text : List Char) : splitHalves text ≠ [] := by
  fun_cases splitHalves text with
  | case1 => simp
  | case2 => simp
  | case3 c rest _ =>
    cases splitHalves rest <;> simp [consFirst]

theorem consFirst_append (v w : List Char) {texts : List (List Char)} (h : texts ≠ []) :
    consFirst (v ++ w) texts = consFirst v (consFirst w texts) := by
  cases texts with
  | nil => exact absurd rfl h
  | cons t texts => simp [consFirst]

theorem consFirst_nil {texts : List (List Char)} (h : texts ≠ []) : consFirst [] texts = texts := by
  cases texts with
  | nil => exact absurd rfl h
  | cons t texts => rfl

theorem splitHalves_cons {c : Char} {rest : List Char} (h : c = ':' → rest.head? ≠ some ':') :
    splitHalves (c :: rest) = consFirst [c] (splitHalves rest) := by
  rw [splitHalves.eq_def]
  split
  · rename_i heq
    simp at heq
  · rename_i heq
    obtain ⟨rfl, rfl⟩ := List.cons.inj heq
    exact absurd rfl (h rfl)
  · rename_i heq
    obtain ⟨rfl, rfl⟩ := List.cons.inj heq
    rfl

/-- A text without colons stays together. -/
theorem splitHalves_word {w : List Char} (h : ':' ∉ w) (rest : List Char) :
    splitHalves (w ++ rest) = consFirst w (splitHalves rest) := by
  induction w with
  | nil => rw [List.nil_append, consFirst_nil (splitHalves_ne_nil rest)]
  | cons c w ih =>
    rw [List.mem_cons, not_or] at h
    rw [List.cons_append, splitHalves_cons fun hc => absurd hc.symm h.1, ih h.2, ← consFirst_append _ _
      (splitHalves_ne_nil rest)]
    rfl

/-- Words with one colon between them stay together, up to the end or to a `::`. -/
theorem splitHalves_colons {texts : List (List Char)} (h : Words texts) (hne : texts ≠ [])
    (rest : List Char) :
    splitHalves (colons texts ++ rest) = consFirst (colons texts) (splitHalves rest) := by
  induction texts with
  | nil => exact absurd rfl hne
  | cons w texts ih =>
    rw [Words, List.forall_mem_cons] at h
    by_cases htexts : texts = []
    · subst htexts
      rw [colons_singleton]
      exact splitHalves_word h.1.2 rest
    · have hhead : (colons texts ++ rest).head? ≠ some ':' := by
        obtain ⟨u, more, rfl⟩ := List.exists_cons_of_ne_nil htexts
        have hu := h.2 u List.mem_cons_self
        obtain ⟨c, v, rfl⟩ := List.exists_cons_of_ne_nil hu.1
        have hc : c ≠ ':' := fun hc => hu.2 (by rw [hc]; exact List.mem_cons_self)
        by_cases hmore : more = []
        · subst hmore
          simpa using hc
        · rw [colons_cons _ hmore]
          simpa using hc
      rw [colons_cons w htexts, List.append_assoc, splitHalves_word h.1.2, List.cons_append,
        splitHalves_cons fun _ => hhead, ih h.2 htexts, ← consFirst_append _ _
        (splitHalves_ne_nil rest), ← consFirst_append _ _ (splitHalves_ne_nil rest)]
      rw [List.singleton_append]

theorem words_groups (groups : List HexGroup) : Words (groups.map HexGroup.text) := by
  intro t ht
  obtain ⟨g, -, rfl⟩ := List.mem_map.mp ht
  exact ⟨g.nonempty, g.not_mem (by decide)⟩

theorem splitOn_colons {texts : List (List Char)} (h : Words texts) (hne : texts ≠ []) :
    (colons texts).splitOn ':' = texts :=
  List.splitOn_intercalate ':' (fun t ht => (h t ht).2) hne

theorem colons_ne_nil {texts : List (List Char)} (h : Words texts) (hne : texts ≠ []) :
    colons texts ≠ [] := by
  obtain ⟨w, more, rfl⟩ := List.exists_cons_of_ne_nil hne
  have hw := (h w List.mem_cons_self).1
  by_cases hmore : more = []
  · subst hmore
    rwa [colons_singleton]
  · rw [colons_cons w hmore]
    simp

theorem groupsOf_colons {texts : List (List Char)} (h : Words texts) : groupsOf (colons texts) = texts := by
  by_cases hne : texts = []
  · subst hne
    rfl
  · rw [groupsOf, if_neg (colons_ne_nil h hne), splitOn_colons h hne]

/-- All eight groups. -/
theorem splitHalves_full {texts : List (List Char)} (h : Words texts) :
    splitHalves (colons texts) = [colons texts] := by
  by_cases hne : texts = []
  · subst hne
    rfl
  · have hsplit := splitHalves_colons h hne []
    rw [List.append_nil] at hsplit
    rw [hsplit, splitHalves, consFirst, List.append_nil]

/-- Groups on both sides of a `::`. -/
theorem splitHalves_shortened {left right : List (List Char)} (hleft : Words left)
    (hright : Words right) :
    splitHalves (colons left ++ ':' :: ':' :: colons right) = [colons left, colons right] := by
  have hrest : splitHalves (':' :: ':' :: colons right) = [[], colons right] := by
    rw [splitHalves, splitHalves_full hright]
  by_cases hne : left = []
  · subst hne
    exact hrest
  · rw [splitHalves_colons hleft hne, hrest, consFirst, List.append_nil]

/-! ## The dotted part -/

theorem mem_decimal_iff {c : Char} : c ∈ "0123456789".toList ↔ c.isDigit = true := by
  constructor
  · have hall : "0123456789".toList.all Char.isDigit = true := by decide
    exact List.all_eq_true.mp hall c
  · intro h
    obtain ⟨h48, h57⟩ := toNat_of_isDigit h
    have htable : ∀ d < 10, Char.ofNat (48 + d) ∈ "0123456789".toList := by decide
    have hmem := htable (c.toNat - 48) (by omega)
    rwa [Nat.add_sub_cancel' h48, Char.ofNat_toNat] at hmem

/-- Four octets with dots between them. -/
theorem mem_dottedPattern {text : List Char} : text ∈ dottedPattern.matches' ↔
    ∃ ta tb tc td, (∀ t ∈ [ta, tb, tc, td], 1 ≤ t.length ∧ t.length ≤ 3 ∧ ∀ c ∈ t, c.isDigit = true) ∧
      text = ta ++ '.' :: (tb ++ '.' :: (tc ++ '.' :: td)) := by
  have hoctet : ∀ t, t ∈ (between (anyOf "0123456789".toList) 1 3).matches' ↔
      1 ≤ t.length ∧ t.length ≤ 3 ∧ ∀ c ∈ t, c.isDigit = true := by
    intro t
    rw [mem_word]
    simp only [mem_decimal_iff]
  simp only [dottedPattern, mem_mul, mem_behind, hoctet, List.forall_mem_cons, List.not_mem_nil,
    false_implies, implies_true, and_true]
  constructor
  · rintro ⟨_, ⟨_, ⟨ta, ha, _, ⟨tb, hb, rfl⟩, rfl⟩, _, ⟨tc, hc, rfl⟩, rfl⟩, _, ⟨td, hd, rfl⟩, rfl⟩
    exact ⟨ta, tb, tc, td, ⟨ha, hb, hc, hd⟩, by simp⟩
  · rintro ⟨ta, tb, tc, td, ⟨ha, hb, hc, hd⟩, rfl⟩
    exact ⟨_, ⟨_, ⟨ta, ha, _, ⟨tb, hb, rfl⟩, rfl⟩, _, ⟨tc, hc, rfl⟩, rfl⟩, _, ⟨td, hd, rfl⟩, by simp⟩

/-- The text behind the last colon, and what is before it. -/
theorem dottedMatch_append {before last : List Char} (hbefore : before = [] ∨ before.getLast? = some ':')
    (hlast : ':' ∉ last) : dottedMatch (before ++ last) =
      if before = [] ∨ before.any isLineEnd ∨ dottedPattern.rmatch last = false then none
      else some (before, last) := by
  have hpass : ∀ c ∈ last.reverse, (c != ':') = true := by
    intro c hc
    rw [bne_iff_ne]
    rintro rfl
    exact hlast (List.mem_reverse.mp hc)
  have hstop : before.reverse.takeWhile (· != ':') = [] ∧
      before.reverse.dropWhile (· != ':') = before.reverse := by
    rcases hbefore with rfl | hcolon
    · exact ⟨rfl, rfl⟩
    · obtain ⟨front, rfl⟩ := List.getLast?_eq_some_iff.mp hcolon
      simp
  have htake : ((before ++ last).reverse.takeWhile (· != ':')).reverse = last := by
    rw [List.reverse_append, List.takeWhile_append_of_pos hpass, hstop.1, List.append_nil,
      List.reverse_reverse]
  have hdrop : ((before ++ last).reverse.dropWhile (· != ':')).reverse = before := by
    rw [List.reverse_append, List.dropWhile_append_of_pos hpass, hstop.2, List.reverse_reverse]
  simp only [dottedMatch, htake, hdrop]

/-- A text whose last part has no dot stays. -/
theorem embedIPv4_plain {before last : List Char}
    (hbefore : before = [] ∨ before.getLast? = some ':') (hlast : ':' ∉ last) (hdot : '.' ∉ last) :
    embedIPv4 (before ++ last) = some (before ++ last) := by
  have hno : dottedPattern.rmatch last = false := by
    by_contra hmatch
    rw [Bool.not_eq_false, rmatch_iff_matches', mem_dottedPattern] at hmatch
    obtain ⟨ta, tb, tc, td, -, rfl⟩ := hmatch
    exact hdot (by simp)
  rw [embedIPv4, dottedMatch_append hbefore hlast, if_pos (.inr (.inr hno))]

/-! ### Its number -/

theorem bitAnd_low (n : Nat) : bitAnd n 0xffff = (n % 65536 : Nat) := by
  have hmask : toBits (0xffff : Rat) = BitVec.ofNat 32 (2 ^ 16 - 1) := by
    rw [show (0xffff : Rat) = ((2 ^ 16 - 1 : Nat) : Rat) by norm_num, toBits_natCast]
  have hnat : (toBits n &&& toBits 0xffff).toNat = n % 65536 := by
    rw [hmask, toBits_natCast, BitVec.toNat_and, BitVec.toNat_ofNat, BitVec.toNat_ofNat,
      Nat.mod_eq_of_lt (a := 2 ^ 16 - 1) (by norm_num), Nat.and_two_pow_sub_one_eq_mod]
    omega
  rw [bitAnd, BitVec.toInt_eq_toNat_of_lt, hnat]
  rw [hnat]
  omega

theorem unsignedShiftRight_high {n : Nat} (h : n < 2 ^ 32) :
    unsignedShiftRight n 16 = n / 65536 := by
  have hsixteen : (toBits (16 : Rat)).toNat % 32 = 16 := by
    rw [show (16 : Rat) = ((16 : Nat) : Rat) by norm_num, toBits_natCast]
    rfl
  rw [unsignedShiftRight, hsixteen, toBits_natCast, BitVec.toNat_ushiftRight, BitVec.toNat_ofNat,
    Nat.mod_eq_of_lt h, Nat.shiftRight_eq_div_pow]

theorem digitsNumber_toDigits (n : Nat) : digitsNumber 16 0 (Nat.toDigits 16 n) = some n := by
  induction n using Nat.strongRecOn with
  | ind n ih =>
    have hread : ∀ start d, d < 16 → digitsNumber 16 start [d.digitChar] = some (start * 16 + d) := by
      intro start d hd
      have h := digitsNumber_digits 1 d start (by omega)
      have hone : placeDigits 16 1 d = [d] := by simp [placeDigits, Nat.mod_eq_of_lt hd]
      rwa [hone, List.map_singleton, Nat.pow_one] at h
    by_cases hlt : n < 16
    · rw [Nat.toDigits_of_lt_base hlt, hread 0 n hlt, Nat.zero_mul, Nat.zero_add]
    · rw [Nat.toDigits_of_base_le (by omega) (not_lt.mp hlt), digitsNumber_append, ih (n / 16) (by omega),
        Option.bind_some, hread _ _ (Nat.mod_lt n (by omega))]
      congr 1
      omega

/-- The text of a group in the place of two octets. -/
theorem exists_hexText {n : Nat} (h : n < 65536) :
    ∃ g : HexGroup, g.text = padGroup (hexText n) ∧ g.value = n := by
  have hnumber := digitsNumber_toDigits n
  have hascii : ∀ c ∈ Nat.toDigits 16 n, c.toNat < 128 := by
    intro c hc
    obtain ⟨d, hlt, hd⟩ := (digitsNumber_lower hnumber).2.2 c hc
    exact (digitNumber_lower hd hlt).2
  have hlen : (Nat.toDigits 16 n).length ≤ 4 :=
    (Nat.length_toDigits_le_iff (by omega) (by omega)).mpr (by omega)
  have hzeros : ∀ k, digitsNumber 16 0 (List.replicate k '0') = some 0 := by
    intro k
    induction k with
    | zero => rfl
    | succ k ih => exact ih
  refine ⟨⟨padGroup (hexText n), n, ?_, ?_, ?_⟩, rfl, rfl⟩
  · rw [padGroup, hexText, Int.toNat_natCast, Ne, List.append_eq_nil_iff, not_and]
    exact fun _ => Nat.toDigits_ne_nil
  · rw [padGroup, hexText, Int.toNat_natCast, length_units_ascii hascii, List.length_append,
      List.length_replicate]
    omega
  · rw [padGroup, hexText, Int.toNat_natCast, digitsNumber_append, hzeros, Option.bind_some, hnumber]

/-- A dotted part becomes two groups. -/
theorem embedIPv4_quad {before quad : List Char} {hi lo : Nat} (hquad : IsQuad quad hi lo)
    (hcolon : before.getLast? = some ':') (hline : before.any isLineEnd = false) :
    ∃ high low : HexGroup, high.value = hi ∧ low.value = lo ∧
      embedIPv4 (before ++ quad) = some (before ++ (high.text ++ ':' :: low.text)) := by
  obtain @⟨ta, tb, tc, td, a, b, c, d, ha, hb, hc, hd, ha', hb', hc', hd', hlen⟩ := hquad
  have hip := ipv4ToInt_of_isAddress (IsAddress.mk ha hb hc hd ha' hb' hc' hd')
  generalize hquad : ta ++ '.' :: (tb ++ '.' :: (tc ++ '.' :: td)) = quad at hip
  have hnat : (address a b c d).toNat = ((a * 256 + b) * 256 + c) * 256 + d := by
    rw [address, BitVec.toNat_ofNat]
    omega
  have hdigit : ∀ {t : List Char} {n : Nat}, IsNumeral t n → t.length ≤ 3 →
      1 ≤ t.length ∧ t.length ≤ 3 ∧ ∀ x ∈ t, x.isDigit = true := fun ht hle =>
    ⟨List.length_pos_iff.mpr ht.ne_nil, hle, ht.isDigit⟩
  simp only [List.forall_mem_cons, List.not_mem_nil, false_implies, implies_true, and_true] at hlen
  have hmatch : dottedPattern.rmatch quad = true := by
    rw [rmatch_iff_matches', mem_dottedPattern]
    refine ⟨ta, tb, tc, td, ?_, hquad.symm⟩
    simp only [List.forall_mem_cons, List.not_mem_nil, false_implies, implies_true, and_true]
    exact ⟨hdigit ha hlen.1, hdigit hb hlen.2.1, hdigit hc hlen.2.2.1, hdigit hd hlen.2.2.2⟩
  have hnone : ':' ∉ quad := by
    have hfree : ∀ {t : List Char} {n : Nat}, IsNumeral t n → ':' ∉ t := fun ht =>
      ht.not_mem (by decide)
    rw [← hquad]
    simp [hfree ha, hfree hb, hfree hc, hfree hd]
  have hbefore : before ≠ [] := by
    rintro rfl
    simp at hcolon
  obtain ⟨high, hhigh, hhigh'⟩ := exists_hexText (n := a * 256 + b) (by omega)
  obtain ⟨low, hlow, hlow'⟩ := exists_hexText (n := c * 256 + d) (by omega)
  refine ⟨high, low, hhigh', hlow', ?_⟩
  have hhi : bitAnd (unsignedShiftRight ((address a b c d).toNat : Int) 16 : Nat) 0xffff =
      (a * 256 + b : Nat) := by
    rw [Int.cast_natCast, unsignedShiftRight_high (address a b c d).isLt, bitAnd_low, hnat]
    congr 1
    omega
  have hlo : bitAnd ((address a b c d).toNat : Int) 0xffff = (c * 256 + d : Nat) := by
    rw [Int.cast_natCast, bitAnd_low, hnat]
    congr 1
    omega
  rw [embedIPv4, dottedMatch_append (.inr hcolon) hnone, if_neg]
  · simp only [hip, hhi, hlo]
    rw [if_neg (by omega), ← hhigh, ← hlow, List.append_assoc]
  · simp [hbefore, hline, hmatch]

/-! ## The expansion -/

theorem colons_concat (texts : List (List Char)) (t : List Char) :
    colons (texts ++ [t]) = texts.flatMap (· ++ [':']) ++ t := by
  induction texts with
  | nil => simp
  | cons u texts ih =>
    rw [List.cons_append, colons_cons u (by simp), ih]
    simp

theorem colons_append_colon {texts : List (List Char)} (h : texts ≠ []) :
    colons texts ++ [':'] = texts.flatMap (· ++ [':']) := by
  obtain ⟨front, t, rfl⟩ : ∃ front t, texts = front ++ [t] :=
    ⟨_, _, (List.dropLast_append_getLast h).symm⟩
  rw [colons_concat, List.append_assoc, List.flatMap_append, List.flatMap_singleton]

/-- What stands before a last text ends with a colon. -/
theorem getLast?_before {before : List Char} (hbefore : before = [] ∨ before.getLast? = some ':')
    (texts : List (List Char)) :
    before ++ texts.flatMap (· ++ [':']) = [] ∨
      (before ++ texts.flatMap (· ++ [':'])).getLast? = some ':' := by
  induction texts using List.reverseRecOn with
  | nil => simpa using hbefore
  | append_singleton texts t ih =>
    right
    simp [List.getLast?_append]

theorem digitNumber_lineEnd {c : Char} (h : isLineEnd c = true) : digitNumber c = none := by
  have hall : ['\n', '\r', '\u2028', '\u2029'].all (fun d => (digitNumber d).isNone) = true := by
    decide
  rw [isLineEnd, List.contains_iff_mem] at h
  exact Option.isNone_iff_eq_none.mp (List.all_eq_true.mp hall c h)

theorem line_before (before : List Char) (hline : before.any isLineEnd = false)
    (groups : List HexGroup) :
    (before ++ (groups.map HexGroup.text).flatMap (· ++ [':'])).any isLineEnd = false := by
  rw [List.any_eq_false] at hline ⊢
  intro c hc
  rw [List.mem_append, List.flatMap_map, List.mem_flatMap] at hc
  rcases hc with hc | ⟨g, -, hc⟩
  · exact hline c hc
  · rw [List.mem_append, List.mem_singleton] at hc
    rcases hc with hc | rfl
    · intro hend
      exact g.not_mem (digitNumber_lineEnd hend) hc
    · decide

/-- The end of an address becomes groups. -/
theorem embedIPv4_tail (before : List Char) {right : List Char} {values : List Nat} (h : IsTail right values)
    (hbefore : before = [] ∨ before.getLast? = some ':') (hline : before.any isLineEnd = false)
    (hne : before = [] → values.length ≠ 2) :
    ∃ groups : List HexGroup, groups.map HexGroup.value = values ∧
      embedIPv4 (before ++ right) = some (before ++ colons (groups.map HexGroup.text)) := by
  cases h with
  | @groups groups hgroups =>
    refine ⟨groups, rfl, ?_⟩
    obtain ⟨front, g, rfl⟩ : ∃ front g, groups = front ++ [g] :=
      ⟨_, _, (List.dropLast_append_getLast hgroups).symm⟩
    rw [List.map_append, List.map_singleton, colons_concat, ← List.append_assoc]
    exact embedIPv4_plain (getLast?_before hbefore _) (g.not_mem (by decide)) (g.not_mem (by decide))
  | @dotted quad hi lo groups hquad =>
    have hcolon : (before ++ (groups.map HexGroup.text).flatMap (· ++ [':'])).getLast? = some ':' := by
      rcases getLast?_before hbefore (groups.map HexGroup.text) with hnil | hlast
      · rw [List.append_eq_nil_iff, List.flatMap_map] at hnil
        refine absurd ?_ (hne hnil.1)
        cases groups with
        | nil => rfl
        | cons g groups => simp at hnil
      · exact hlast
    obtain ⟨high, low, rfl, rfl, hembed⟩ := embedIPv4_quad hquad hcolon (line_before before hline groups)
    refine ⟨groups ++ [high, low], by simp, ?_⟩
    have htwo : colons ((groups ++ [high, low]).map HexGroup.text) =
        (groups.map HexGroup.text).flatMap (· ++ [':']) ++ (high.text ++ ':' :: low.text) := by
      have h := colons_concat (groups.map HexGroup.text ++ [high.text]) low.text
      rw [List.append_assoc] at h
      rw [List.map_append, List.map_cons, List.map_singleton]
      simpa using h
    rw [colons_concat, htwo, ← List.append_assoc, ← List.append_assoc]
    exact hembed

variable {toLowerCase : String → String}

/-- An address is expanded to its digits. -/
theorem expandIPv6_eq (hlower : LowersAscii toLowerCase) {text : String} {x : BitVec 128}
    (h : IsIpv6Address text x) : expandIPv6 toLowerCase text = hexDigits x := by
  cases h with
  | @full text values htail hlen =>
    obtain ⟨groups, rfl, hembed⟩ := embedIPv4_tail [] htail (.inl rfl) rfl
      (fun _ => by omega)
    have hwords := words_groups groups
    rw [List.length_map] at hlen
    have hne : groups.map HexGroup.text ≠ [] := by
      intro hnil
      rw [List.map_eq_nil_iff] at hnil
      rw [hnil] at hlen
      simp at hlen
    rw [List.nil_append, List.nil_append] at hembed
    rw [expandIPv6, String.toList_ofList, hembed]
    simp only [splitHalves_full hwords]
    rw [splitOn_colons hwords hne, joinGroups_eq hlower hlen]
  | @shortened right values left hright hlen =>
    have hleft := words_groups left
    -- the groups on the right, of which there may be none
    obtain ⟨groups, rfl, hembed⟩ : ∃ groups : List HexGroup, groups.map HexGroup.value = values ∧
        embedIPv4 (colons (left.map HexGroup.text) ++ [':', ':'] ++ right) =
          some (colons (left.map HexGroup.text) ++ [':', ':'] ++
            colons (groups.map HexGroup.text)) := by
      have hcolon : (colons (left.map HexGroup.text) ++ [':', ':']).getLast? = some ':' := by simp
      rcases hright with ⟨rfl, rfl⟩ | htail
      · exact ⟨[], rfl, embedIPv4_plain (.inr hcolon) (by simp) (by simp)⟩
      · refine embedIPv4_tail _ htail (.inr hcolon) ?_ (by simp)
        cases left with
        | nil => decide
        | cons g left =>
          have hends := line_before [] rfl (g :: left)
          rw [List.nil_append, ← colons_append_colon (by simp)] at hends
          have htwo : colons ((g :: left).map HexGroup.text) ++ [':', ':'] =
              colons ((g :: left).map HexGroup.text) ++ [':'] ++ [':'] := by simp
          rw [htwo, List.any_append, hends]
          decide
    rw [List.append_assoc, List.append_assoc] at hembed
    have hright := words_groups groups
    rw [List.length_map] at hlen
    have hlen' : (left ++ List.replicate (8 - (left.length + groups.length)) zeroGroup ++
        groups).length = 8 := by
      simp only [List.length_append, List.length_replicate]
      omega
    have hjoin := joinGroups_eq hlower hlen'
    simp only [List.map_append, List.map_replicate] at hjoin
    rw [expandIPv6, String.toList_ofList]
    simp only [List.cons_append, List.nil_append] at hembed
    rw [hembed]
    simp only [splitHalves_shortened hleft hright, groupsOf_colons hleft, groupsOf_colons hright,
      List.length_map]
    rw [if_neg (by omega)]
    exact hjoin

/-! ## The ranges -/

/-- The digits of an address begin with those of a number exactly if its first bits are that number. -/
theorem isPrefixOf_hexDigits {j m : Nat} (hj : j ≤ 32) (hm : m < 16 ^ j) {text : List Char}
    (htext : text = (placeDigits 16 j m).map Nat.digitChar) (x : BitVec 128) :
    text.isPrefixOf (hexDigits x).toList = true ↔ x.toNat / 2 ^ (128 - 4 * j) = m := by
  have hx : x.toNat < 16 ^ (j + (32 - j)) := by
    rw [Nat.add_sub_cancel' hj]
    exact x.isLt.trans_eq (by norm_num)
  have hpow : (16 : Nat) ^ (32 - j) = 2 ^ (128 - 4 * j) := by
    rw [show (16 : Nat) = 2 ^ 4 by norm_num, ← Nat.pow_mul]
    congr 1
    omega
  have hread : ∀ l : List Nat, (∀ d ∈ l, d < 16) →
      (l.map Nat.digitChar).map (fun c => (digitNumber c).getD 0) = l := by
    intro l hl
    rw [List.map_map]
    conv_rhs => rw [← List.map_id l]
    exact List.map_congr_left fun d hd => by simp [digitNumber_digitChar (hl d hd)]
  have hprefix := placeDigits_prefix_iff hm hx
  rw [Nat.add_sub_cancel' hj, hpow] at hprefix
  rw [List.isPrefixOf_iff_prefix, htext, hexDigits, String.toList_ofList, ← hprefix]
  constructor
  · intro h
    have hmap := h.map fun c => (digitNumber c).getD 0
    rwa [hread _ fun d hd => mem_placeDigits_lt (by omega) hd,
      hread _ fun d hd => mem_placeDigits_lt (by omega) hd] at hmap
  · exact fun h => h.map _

/-- What `Number.parseInt` makes of the first digits. -/
theorem parseIntHex_take {j : Nat} (hj : 0 < j) (hle : j ≤ 32) (x : BitVec 128) :
    parseIntHex ((hexDigits x).toList.take j) =
      .finite ((x.toNat / 2 ^ (128 - 4 * j) : Nat) : Rat) := by
  obtain ⟨m, hm⟩ : ∃ m, x.toNat / 2 ^ (128 - 4 * j) = m := ⟨_, rfl⟩
  have hpow : (16 : Nat) ^ (32 - j) = 2 ^ (128 - 4 * j) := by
    rw [show (16 : Nat) = 2 ^ 4 by norm_num, ← Nat.pow_mul]
    congr 1
    omega
  have hlt : m < 16 ^ j := by
    rw [← hm, ← hpow]
    refine Nat.div_lt_of_lt_mul ?_
    rw [← Nat.pow_add, Nat.sub_add_cancel hle]
    exact x.isLt.trans_eq (by norm_num)
  have htake : (hexDigits x).toList.take j = (placeDigits 16 j m).map Nat.digitChar := by
    have hsplit := placeDigits_add (b := 16) j (32 - j) x.toNat
    rw [Nat.add_sub_cancel' hle, hpow, hm] at hsplit
    rw [hexDigits, String.toList_ofList, hsplit, List.map_append, List.take_left']
    simp
  have hdigit : ∀ c ∈ (placeDigits 16 j m).map Nat.digitChar, ∃ d < 16, c = d.digitChar := by
    intro c hc
    obtain ⟨d, hd, rfl⟩ := List.mem_map.mp hc
    exact ⟨d, mem_placeDigits_lt (by omega) hd, rfl⟩
  have hnumber := digitsNumber_digits j m 0 hlt
  rw [Nat.zero_mul, Nat.zero_add] at hnumber
  rw [htake, hm]
  generalize (placeDigits 16 j m).map Nat.digitChar = text at htake hdigit hnumber
  have hne : text ≠ [] := by
    rintro rfl
    have hlen := congrArg List.length htake
    simp [hexDigits] at hlen
    omega
  -- of the digits none is a space, a sign or the letter of a prefix
  have htable : ∀ d < 16, isWhiteSpace d.digitChar = false ∧ d.digitChar ≠ '-' ∧
      d.digitChar ≠ '+' ∧ d.digitChar ≠ 'x' ∧ d.digitChar ≠ 'X' := by decide
  have hplain : ∀ c ∈ text, isWhiteSpace c = false ∧ c ≠ '-' ∧ c ≠ '+' ∧ c ≠ 'x' ∧ c ≠ 'X' := by
    intro c hc
    obtain ⟨d, hd, rfl⟩ := hdigit c hc
    exact htable d hd
  have hdrop : text.dropWhile isWhiteSpace = text :=
    dropWhile_eq_self_of_forall fun c hc => (hplain c hc).1
  have hsign : text.head? ≠ some '-' ∧ text.head? ≠ some '+' := by
    constructor <;> intro hhead
    · exact (hplain _ (List.mem_of_mem_head? hhead)).2.1 rfl
    · exact (hplain _ (List.mem_of_mem_head? hhead)).2.2.1 rfl
  have hdigits : text.takeWhile (fun c => (digitNumber c).any (· < 16)) = text := by
    rw [List.takeWhile_eq_self_iff]
    intro c hc
    obtain ⟨d, hd, rfl⟩ := hdigit c hc
    simp [digitNumber_digitChar hd, hd]
  have hprefix : (match text with
      | '0' :: x :: rest => if x = 'x' ∨ x = 'X' then rest else text
      | _ => text) = text := by
    split
    · rename_i y rest
      have hy := hplain y (by simp)
      rw [if_neg (by simp [hy.2.2.2])]
    · rfl
  simp only [parseIntHex, hdrop, hsign, or_self, if_false, hprefix, hdigits, hne, hnumber]

theorem bitAndNumber_natCast {m k : Nat} (hm : m < 2 ^ 31) (hk : k < 2 ^ 31) :
    bitAndNumber (.finite m) k = (m &&& k : Nat) := by
  have hnat : (toBits m &&& toBits k).toNat = m &&& k := by
    rw [toBits_natCast, toBits_natCast, BitVec.toNat_and, BitVec.toNat_ofNat, BitVec.toNat_ofNat,
      Nat.mod_eq_of_lt (by omega), Nat.mod_eq_of_lt (by omega)]
  rw [bitAndNumber, Number.bits, BitVec.toInt_eq_toNat_of_lt, hnat]
  rw [hnat]
  have := Nat.and_le_left (n := m) (m := k)
  omega

/-- A mask of the highest of some bits. -/
theorem and_shiftLeft_eq_iff {m w s v : Nat} (hm : m < 2 ^ (w + s)) :
    m &&& ((2 ^ w - 1) <<< s) = v <<< s ↔ m / 2 ^ s = v := by
  have hhigh : m &&& ((2 ^ w - 1) <<< s) = (m / 2 ^ s) <<< s := by
    refine Nat.eq_of_testBit_eq fun i => ?_
    rw [Nat.testBit_and, Nat.testBit_shiftLeft, Nat.testBit_shiftLeft, Nat.testBit_two_pow_sub_one,
      Nat.testBit_div_two_pow]
    by_cases hi : s ≤ i
    · have hsum : i - s + s = i := by omega
      by_cases hw : i - s < w
      · simp [hi, hw, hsum]
      · have hzero : m.testBit i = false :=
          Nat.testBit_lt_two_pow (hm.trans_le (Nat.pow_le_pow_right (by omega) (by omega)))
        simp [hi, hsum, hzero]
    · simp [hi]
  rw [hhigh, Nat.shiftLeft_eq, Nat.shiftLeft_eq]
  exact Nat.mul_left_inj (Nat.two_pow_pos s).ne'

/-- A prefix of `j` digits is the test of a range with `4 * j` fixed bits. -/
theorem isPrefixOf_iff_inBlock (j m : Nat) (values : List Nat) (text : List Char) (hj : j ≤ 32)
    (hm : m < 16 ^ j) (htext : text = (placeDigits 16 j m).map Nat.digitChar)
    (hblock : (ipv6 values).toNat / 2 ^ (128 - 4 * j) = m) (x : BitVec 128) :
    text.isPrefixOf (hexDigits x).toList = true ↔ InBlock x (ipv6 values, 4 * j) := by
  rw [isPrefixOf_hexDigits hj hm htext, InBlock, hblock]

theorem eq_iff_inBlock (m : Nat) (values : List Nat) (text : List Char) (hm : m < 16 ^ 32)
    (htext : text = (placeDigits 16 32 m).map Nat.digitChar) (hblock : (ipv6 values).toNat = m)
    (x : BitVec 128) :
    (hexDigits x).toList = text ↔ InBlock x (ipv6 values, 128) := by
  have hlen : text.length = (hexDigits x).toList.length := by
    simp [htext, hexDigits]
  have hprefix := isPrefixOf_iff_inBlock 32 m values text (by omega) hm htext
    (by rw [hblock, Nat.pow_zero, Nat.div_one]) x
  rw [← hprefix, List.isPrefixOf_iff_prefix]
  exact ⟨fun heq => heq ▸ List.prefix_rfl, fun h => (h.eq_of_length hlen).symm⟩

/-- A mask of the first digits is the test of the range of its bits. -/
theorem bitAnd_iff_inBlock (j w s v mask value : Nat) (values : List Nat) (hj : 0 < j) (hle : j ≤ 7)
    (hbits : w + s = 4 * j) (hmask : mask = (2 ^ w - 1) <<< s) (hvalue : value = v <<< s)
    (hblock : (ipv6 values).toNat / 2 ^ (128 - w) = v) (x : BitVec 128) :
    bitAndNumber (parseIntHex ((hexDigits x).toList.take j)) mask = value ↔
      InBlock x (ipv6 values, w) := by
  have hlt : x.toNat / 2 ^ (128 - 4 * j) < 2 ^ (w + s) := by
    refine Nat.div_lt_of_lt_mul ?_
    rw [← Nat.pow_add, hbits, Nat.sub_add_cancel (by omega)]
    exact x.isLt
  have hsmall : (2 : Nat) ^ (w + s) ≤ 2 ^ 28 := Nat.pow_le_pow_right (by omega) (by omega)
  have hmask' : mask < 2 ^ 31 := by
    rw [hmask, Nat.shiftLeft_eq]
    have hprod : (2 ^ w - 1) * 2 ^ s ≤ 2 ^ (w + s) := by
      rw [Nat.pow_add]
      exact Nat.mul_le_mul_right _ (Nat.sub_le _ _)
    omega
  have hpow : 128 - 4 * j + s = 128 - w := by omega
  rw [parseIntHex_take hj (by omega), bitAndNumber_natCast (by omega) hmask', Int.natCast_inj, hmask,
    hvalue, and_shiftLeft_eq_iff hlt, Nat.div_div_eq_div_mul, ← Nat.pow_add, hpow, InBlock, hblock]

/-- A range with 23 fixed bits is two prefixes of 24 bits. -/
theorem isPrefixOf_pair_iff_inBlock (x : BitVec 128) :
    ("200100".toList.isPrefixOf (hexDigits x).toList = true ∨
      "200101".toList.isPrefixOf (hexDigits x).toList = true) ↔
        InBlock x (ipv6 [0x2001, 0, 0, 0, 0, 0, 0, 0], 23) := by
  have hblock : (ipv6 [0x2001, 0, 0, 0, 0, 0, 0, 0]).toNat / 2 ^ (128 - 23) = 0x100080 := by decide
  have hhalf : x.toNat / 2 ^ (128 - 23) = x.toNat / 2 ^ 104 / 2 := by
    rw [Nat.div_div_eq_div_mul, ← Nat.pow_succ]
  have h0 := isPrefixOf_hexDigits (j := 6) (m := 0x200100) (by omega) (by norm_num)
    (show "200100".toList = _ by decide) x
  have h1 := isPrefixOf_hexDigits (j := 6) (m := 0x200101) (by omega) (by norm_num)
    (show "200101".toList = _ by decide) x
  rw [h0, h1, InBlock, hblock, hhalf]
  omega

/-- The tests of the digits in which a mask is used. -/
theorem bitAnd_hexDigits_iff_inBlock (x : BitVec 128) :
    (bitAndNumber (parseIntHex ((hexDigits x).toList.take 2)) 0xfe = 0xfc ↔
      InBlock x (ipv6 [0xfc00, 0, 0, 0, 0, 0, 0, 0], 7)) ∧
    (bitAndNumber (parseIntHex ((hexDigits x).toList.take 4)) 0xffc0 = 0xfe80 ↔
      InBlock x (ipv6 [0xfe80, 0, 0, 0, 0, 0, 0, 0], 10)) := by
  have hlocal := bitAnd_iff_inBlock 2 7 1 0x7e 0xfe 0xfc [0xfc00, 0, 0, 0, 0, 0, 0, 0] (by omega)
    (by omega) rfl rfl rfl (by decide) x
  have hlink := bitAnd_iff_inBlock 4 10 6 0x3fa 0xffc0 0xfe80 [0xfe80, 0, 0, 0, 0, 0, 0, 0] (by omega)
    (by omega) rfl rfl rfl (by decide) x
  simp only [Nat.cast_ofNat] at hlocal hlink
  exact ⟨hlocal, hlink⟩

theorem isSpecialUseIPv6_iff {text : String} {x : BitVec 128}
    (h : expandIPv6 toLowerCase text = hexDigits x) :
    isSpecialUseIPv6 toLowerCase text = true ↔ ∃ block ∈ specialUseIPv6Blocks, InBlock x block := by
  have hne : (hexDigits x).toList ≠ [] := by
    intro hnil
    have hlen := congrArg List.length hnil
    simp [hexDigits] at hlen
  have h1 := eq_iff_inBlock 0 [0, 0, 0, 0, 0, 0, 0, 0] "00000000000000000000000000000000".toList
    (by norm_num) (by decide) (by decide) x
  have h2 := eq_iff_inBlock 1 [0, 0, 0, 0, 0, 0, 0, 1] "00000000000000000000000000000001".toList
    (by norm_num) (by decide) (by decide) x
  have h3 := isPrefixOf_iff_inBlock 24 0xffff [0, 0, 0, 0, 0, 0xffff, 0, 0]
    "00000000000000000000ffff".toList (by omega) (by norm_num) (by decide) (by decide) x
  have h4 := isPrefixOf_iff_inBlock 24 0x64ff9b0000000000000000 [0x64, 0xff9b, 0, 0, 0, 0, 0, 0]
    "0064ff9b0000000000000000".toList (by omega) (by norm_num) (by decide) (by decide) x
  have h5 := isPrefixOf_iff_inBlock 12 0x64ff9b0001 [0x64, 0xff9b, 1, 0, 0, 0, 0, 0]
    "0064ff9b0001".toList (by omega) (by norm_num) (by decide) (by decide) x
  have h6 := isPrefixOf_iff_inBlock 16 0x100000000000000 [0x100, 0, 0, 0, 0, 0, 0, 0]
    "0100000000000000".toList (by omega) (by norm_num) (by decide) (by decide) x
  have h8 := isPrefixOf_iff_inBlock 8 0x20010db8 [0x2001, 0xdb8, 0, 0, 0, 0, 0, 0]
    "20010db8".toList (by omega) (by norm_num) (by decide) (by decide) x
  have h9 := isPrefixOf_iff_inBlock 4 0x2002 [0x2002, 0, 0, 0, 0, 0, 0, 0]
    "2002".toList (by omega) (by norm_num) (by decide) (by decide) x
  have h10 := isPrefixOf_iff_inBlock 12 0x2620004f8000 [0x2620, 0x4f, 0x8000, 0, 0, 0, 0, 0]
    "2620004f8000".toList (by omega) (by norm_num) (by decide) (by decide) x
  have h13 := isPrefixOf_iff_inBlock 2 0xff [0xff00, 0, 0, 0, 0, 0, 0, 0]
    "ff".toList (by omega) (by norm_num) (by decide) (by decide) x
  have h7 := isPrefixOf_pair_iff_inBlock x
  obtain ⟨h11, h12⟩ := bitAnd_hexDigits_iff_inBlock x
  simp only [isSpecialUseIPv6, h, if_neg hne, Bool.or_eq_true, beq_iff_eq, h1, h2, h3, h4, h5, h6, h7,
    h8, h9, h10, h11, h12, h13]
  simp only [specialUseIPv6Blocks, List.exists_mem_cons_iff, List.not_mem_nil, false_and, exists_false,
    or_false, or_assoc]

/-! ## The decision -/

theorem mem_colons {texts : List (List Char)} {c : Char} (h : c ∈ colons texts) :
    c = ':' ∨ ∃ t ∈ texts, c ∈ t := by
  induction texts with
  | nil => simp [colons] at h
  | cons t texts ih =>
    by_cases hne : texts = []
    · subst hne
      rw [colons_singleton] at h
      exact .inr ⟨t, List.mem_cons_self, h⟩
    · rw [colons_cons t hne, List.mem_append, List.mem_cons] at h
      rcases h with h | rfl | h
      · exact .inr ⟨t, List.mem_cons_self, h⟩
      · exact .inl rfl
      · rcases ih h with hcolon | ⟨u, hu, hc⟩
        · exact .inl hcolon
        · exact .inr ⟨u, List.mem_cons_of_mem t hu, hc⟩

/-- What an address is not written with. -/
theorem not_mem_colons {groups : List HexGroup} {c : Char} (hc : c ≠ ':') (hdigit : digitNumber c = none) :
    c ∉ colons (groups.map HexGroup.text) := by
  intro hmem
  rcases mem_colons hmem with heq | ⟨t, ht, hct⟩
  · exact hc heq
  · obtain ⟨g, -, rfl⟩ := List.mem_map.mp ht
    exact g.not_mem hdigit hct

theorem not_mem_quad {quad : List Char} {hi lo : Nat} (h : IsQuad quad hi lo) {c : Char}
    (hdot : c ≠ '.') (hdigit : c.isDigit = false) : c ∉ quad := by
  obtain ⟨ha, hb, hc, hd, -, -, -, -, -⟩ := h
  have hfree : ∀ {t : List Char} {n : Nat}, IsNumeral t n → c ∉ t := by
    intro t n ht hmem
    rw [ht.isDigit c hmem] at hdigit
    exact Bool.false_ne_true hdigit.symm
  simp [hfree ha, hfree hb, hfree hc, hfree hd, hdot]

theorem not_mem_tail {right : List Char} {values : List Nat} (h : IsTail right values) :
    '[' ∉ right := by
  cases h with
  | groups _ => exact not_mem_colons (by decide) (by decide)
  | dotted groups hquad =>
    intro hmem
    rcases mem_colons hmem with heq | ⟨t, ht, hct⟩
    · revert heq
      decide
    · rw [List.mem_append, List.mem_singleton] at ht
      rcases ht with ht | rfl
      · obtain ⟨g, -, rfl⟩ := List.mem_map.mp ht
        exact g.not_mem (by decide) hct
      · exact not_mem_quad hquad (by decide) (by decide) hct

theorem isIpv6Address_chars {text : String} {x : BitVec 128} (h : IsIpv6Address text x) :
    ':' ∈ text.toList ∧ '[' ∉ text.toList := by
  cases h with
  | @full text values htail hlen =>
    rw [String.toList_ofList]
    refine ⟨?_, not_mem_tail htail⟩
    have htwo : ∀ (t : List Char) {texts : List (List Char)}, texts ≠ [] →
        ':' ∈ colons (t :: texts) := by
      intro t texts hne
      rw [colons_cons t hne]
      simp
    cases htail with
    | @groups groups _ =>
      match groups, hlen with
      | g :: g' :: rest, _ => exact htwo g.text (by simp)
    | @dotted quad hi lo groups hquad =>
      match groups, hlen with
      | g :: rest, _ => exact htwo g.text (by simp)
  | @shortened right values left hright hlen =>
    rw [String.toList_ofList, List.mem_append, List.mem_append, not_or]
    refine ⟨.inr List.mem_cons_self, not_mem_colons (by decide) (by decide), ?_⟩
    have hnone : '[' ∉ right := by
      rcases hright with ⟨rfl, -⟩ | htail
      · exact List.not_mem_nil
      · exact not_mem_tail htail
    simpa using hnone

/-- The checks of an IPv6 host: what its text is expanded to, and whether it is for a special use,
also where it is bracketed. -/
theorem ipv6_checks (hlower : LowersAscii toLowerCase) {host : String} {x : BitVec 128}
    (hhost : IsIpv6Address host x) :
    expandIPv6 toLowerCase host = hexDigits x ∧
      (isSpecialUseIPv6 toLowerCase host = true ↔ ∃ block ∈ specialUseIPv6Blocks, InBlock x block) ∧
      isSpecialUseIP toLowerCase host = isSpecialUseIPv6 toLowerCase host ∧
      isSpecialUseIP toLowerCase ("[" ++ host ++ "]") = isSpecialUseIPv6 toLowerCase host := by
  obtain ⟨hcolon, hbracket⟩ := isIpv6Address_chars hhost
  refine ⟨expandIPv6_eq hlower hhost, isSpecialUseIPv6_iff (expandIPv6_eq hlower hhost), ?_, ?_⟩
  · have hhead : host.toList.head? ≠ some '[' := fun h => hbracket (List.mem_of_mem_head? h)
    rw [isSpecialUseIP, if_neg fun h => hhead h.1, if_pos (List.contains_iff_mem.mpr hcolon)]
  · have htext : ("[" ++ host ++ "]").toList = '[' :: (host.toList ++ [']']) := by simp
    rw [isSpecialUseIP, htext, if_pos]
    · simp
    · simp [List.getLast?_cons]

/-- A mapped address, in capitals and with a dotted part. -/
theorem ipv6_checks_mapped :
    expandIPv6 (fun s => String.ofList (s.toList.map foldLetter)) "::FFFF:192.168.1.1" =
        "00000000000000000000ffffc0a80101" ∧
      (isSpecialUseIPv6 (fun s => String.ofList (s.toList.map foldLetter)) "::FFFF:192.168.1.1" =
        true ↔ ∃ block ∈ specialUseIPv6Blocks,
          InBlock (ipv6 [0, 0, 0, 0, 0, 0xffff, 0xc0a8, 0x101]) block) := by
  have hlower : LowersAscii fun s => String.ofList (s.toList.map foldLetter) := by
    intro s t _
    constructor
    · rintro rfl
      rw [String.toList_ofList]
    · intro h
      show String.ofList (s.toList.map foldLetter) = t
      rw [h, String.ofList_toList]
  have h192 : IsNumeral ['1', '9', '2'] 192 := isNumeral_repr 192
  have h168 : IsNumeral ['1', '6', '8'] 168 := isNumeral_repr 168
  have h1 : IsNumeral ['1'] 1 := isNumeral_repr 1
  have hquad : IsQuad "192.168.1.1".toList (192 * 256 + 168) (1 * 256 + 1) :=
    .mk h192 h168 h1 h1 (by decide) (by decide) (by decide) (by decide) (by decide)
  let group : HexGroup :=
    { text := "FFFF".toList, value := 0xffff, nonempty := by decide, length_le := by decide
      number := by decide }
  have htail : IsTail "FFFF:192.168.1.1".toList [0xffff, 0xc0a8, 0x101] := .dotted [group] hquad
  have hhost : IsIpv6Address "::FFFF:192.168.1.1"
      (ipv6 [0, 0, 0, 0, 0, 0xffff, 0xc0a8, 0x101]) := .shortened [] (.inr htail) (by decide)
  obtain ⟨hexpand, hspecial, -, -⟩ := ipv6_checks hlower hhost
  exact ⟨hexpand.trans (by decide), hspecial⟩

end OidFed
