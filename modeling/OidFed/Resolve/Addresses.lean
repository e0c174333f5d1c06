import OidFed.Js.Json
import OidFed.Js.Number
import OidFed.Js.Split

/-!
# Addresses that are not fetched from (`trust-chain/fetch.ts`)

* `ipv4ToInt`, `isSpecialUseIPv4`, `parseCIDR`, `isBlockedCIDR`: the IPv4 checks of a host.
* `IsAddress`, `IsCidr`: texts of an address, and of a range of addresses. `AgreeOn`: two addresses
  have the same first bits.
* `ipv4_checks`: an address is read as its 32 bits, it is for a special use where it lies in one of
  the blocks of the registry, and it is blocked where it lies in one of the ranges.
-/

namespace OidFed

open Js

/-! ## The checks -/

/-- A range of addresses as the code compares them. -/
structure AddressRange where
  network : Nat
  mask : Nat
  deriving DecidableEq

/-- Full IANA IPv4 Special-Purpose Address Registry (16 entries). -/
def specialUseIPv4Table : List AddressRange :=
  [⟨0x00000000, 0xff000000⟩, ⟨0x0a000000, 0xff000000⟩, ⟨0x64400000, 0xffc00000⟩,
    ⟨0x7f000000, 0xff000000⟩, ⟨0xa9fe0000, 0xffff0000⟩, ⟨0xac100000, 0xfff00000⟩,
    ⟨0xc0000000, 0xffffff00⟩, ⟨0xc0000200, 0xffffff00⟩, ⟨0xc0586300, 0xffffff00⟩,
    ⟨0xc0a80000, 0xffff0000⟩, ⟨0xc6120000, 0xfffe0000⟩, ⟨0xc6336400, 0xffffff00⟩,
    ⟨0xcb007100, 0xffffff00⟩, ⟨0xe0000000, 0xf0000000⟩, ⟨0xf0000000, 0xf0000000⟩,
    ⟨0xffffffff, 0xffffffff⟩]

/-- The loop of `ipv4ToInt` over the characters; the end of the text separates like a dot. -/
def ipv4Loop (result octet dots : Nat) : List Char → Int
  | [] =>
    if dots > 3 ∨ octet > 255 then -1
    else if dots + 1 ≠ 4 then -1
    else unsignedShiftRight ((result * 256 + octet : Nat) : Rat) 0
  | ch :: rest =>
    if ch = '.' then
      if dots > 3 ∨ octet > 255 then -1
      else ipv4Loop (unsignedShiftRight ((result * 256 + octet : Nat) : Rat) 0) 0 (dots + 1) rest
    else if ch.isDigit then ipv4Loop result (octet * 10 + (ch.toNat - '0'.toNat)) dots rest
    else -1

/-- Convert IPv4 dotted-decimal string to unsigned 32-bit integer, or -1 on failure. -/
def ipv4ToInt (ip : String) : Int := ipv4Loop 0 0 0 ip.toList

/-- The address lies in a range. -/
def AddressRange.contains (range : AddressRange) (ip : Int) : Bool :=
  unsignedShiftRight (bitAnd ip range.mask) 0 == range.network

/-- Returns true if the given IPv4 address string is in any IANA special-use range. -/
def isSpecialUseIPv4 (address : String) : Bool :=
  let ip := ipv4ToInt address
  if ip < 0 then false else specialUseIPv4Table.any fun range => range.contains ip

/-- The range of a network and the number of its fixed bits. -/
def cidrRange (network : Int) (bits : Rat) : AddressRange :=
  let mask : Nat :=
    if bits = 0 then 0
    else unsignedShiftRight (shiftLeft (bitNot 0) (roundDouble (32 - bits))) 0
  { network := unsignedShiftRight (bitAnd network mask) 0, mask }

def parseCIDR (cidr : String) : Option AddressRange :=
  match Json.splitText '/' cidr with
  | ip :: bitsText :: _ =>
    if ip = "" then none
    else
      let network := ipv4ToInt ip
      if network < 0 then none
      else
        match stringToNumber bitsText with
        | .finite bits => if bits < 0 ∨ 32 < bits then none else some (cidrRange network bits)
        -- Not a number, or out of the range.
        | _ => none
  | _ => none

def isBlockedCIDR (hostname : String) (cidrs : List String) : Bool :=
  let ip := ipv4ToInt hostname
  if ip < 0 then false
  else cidrs.any fun cidr =>
    match parseCIDR cidr with
    | none => false
    | some range => range.contains ip

/-! ## Addresses -/

/-- The bits of an address by its octets, the first the highest. -/
def address (a b c d : Nat) : BitVec 32 := BitVec.ofNat 32 (((a * 256 + b) * 256 + c) * 256 + d)

/-- The first `n` bits are the same. -/
def AgreeOn (n : Nat) (x y : BitVec 32) : Prop := ∀ i < n, x.getMsbD i = y.getMsbD i

/-- The blocks of the registry: an address, and the number of bits that are fixed. -/
def specialUseBlocks : List (BitVec 32 × Nat) :=
  [(address 0 0 0 0, 8), (address 10 0 0 0, 8), (address 100 64 0 0, 10), (address 127 0 0 0, 8),
    (address 169 254 0 0, 16), (address 172 16 0 0, 12), (address 192 0 0 0, 24),
    (address 192 0 2 0, 24), (address 192 88 99 0, 24), (address 192 168 0 0, 16),
    (address 198 18 0 0, 15), (address 198 51 100 0, 24), (address 203 0 113 0, 24),
    (address 224 0 0 0, 4), (address 240 0 0 0, 4), (address 255 255 255 255, 32)]

/-- A dotted-decimal text of an address. -/
inductive IsAddress : String → BitVec 32 → Prop where
  | mk {ta tb tc td : List Char} {a b c d : Nat} : IsNumeral ta a → IsNumeral tb b →
      IsNumeral tc c → IsNumeral td d → a ≤ 255 → b ≤ 255 → c ≤ 255 → d ≤ 255 →
      IsAddress (String.ofList (ta ++ '.' :: (tb ++ '.' :: (tc ++ '.' :: td)))) (address a b c d)

/-- A text of an address and the number of its bits that are fixed. -/
inductive IsCidr : String → BitVec 32 → Nat → Prop where
  | mk {ip bitsText : String} {x : BitVec 32} {n : Nat} : IsAddress ip x →
      IsNumeral bitsText.toList n → n ≤ 32 → IsCidr (ip ++ "/" ++ bitsText) x n

/-! ## What they decide -/

theorem ipv4Loop_digits {digits : List Char} (h : ∀ c ∈ digits, c.isDigit = true)
    (result octet dots : Nat) (rest : List Char) :
    ipv4Loop result octet dots (digits ++ rest) =
      ipv4Loop result (Nat.ofDigitChars 10 digits octet) dots rest := by
  induction digits generalizing octet with
  | nil => simp
  | cons c digits ih =>
    have hc := h c List.mem_cons_self
    have hdot : c ≠ '.' := by
      rintro rfl
      revert hc
      decide
    rw [List.cons_append, ipv4Loop, if_neg hdot, if_pos hc,
      ih fun d hd => h d (List.mem_cons_of_mem c hd), Nat.ofDigitChars_cons, Nat.mul_comm octet]

/-- Digits before a dot are an octet more. -/
theorem ipv4Loop_octet {digits : List Char} {result dots : Nat}
    (h : ∀ c ∈ digits, c.isDigit = true) (hle : Nat.ofDigitChars 10 digits 0 ≤ 255) (hdots : dots ≤ 3)
    (rest : List Char) :
    ipv4Loop result 0 dots (digits ++ '.' :: rest) =
      ipv4Loop ((result * 256 + Nat.ofDigitChars 10 digits 0) % 2 ^ 32) 0 (dots + 1) rest := by
  rw [ipv4Loop_digits h, ipv4Loop, if_pos rfl, if_neg (by omega), unsignedShiftRight_zero,
    toBits_natCast, BitVec.toNat_ofNat]

theorem ipv4Loop_last {digits : List Char} {result : Nat} (h : ∀ c ∈ digits, c.isDigit = true)
    (hle : Nat.ofDigitChars 10 digits 0 ≤ 255) :
    ipv4Loop result 0 3 digits =
      ((result * 256 + Nat.ofDigitChars 10 digits 0) % 2 ^ 32 : Nat) := by
  have hdigits := ipv4Loop_digits h result 0 3 []
  rw [List.append_nil, ipv4Loop, if_neg (by omega), if_neg (by omega), unsignedShiftRight_zero,
    toBits_natCast, BitVec.toNat_ofNat] at hdigits
  exact hdigits

/-- Digits between dots, of which there may be none. -/
structure Octet where
  text : List Char
  isDigit : ∀ c ∈ text, c.isDigit = true
  le : Nat.ofDigitChars 10 text 0 ≤ 255

def Octet.value (o : Octet) : Nat := Nat.ofDigitChars 10 o.text 0

/-- Four octets with dots between them. -/
def dotted (a b c d : Octet) : String :=
  String.ofList (a.text ++ '.' :: (b.text ++ '.' :: (c.text ++ '.' :: d.text)))

/-- Four octets are read as their bits, also where one is empty. -/
theorem ipv4ToInt_dotted (a b c d : Octet) :
    ipv4ToInt (dotted a b c d) = (address a.value b.value c.value d.value).toNat := by
  have ha := a.le
  have hb := b.le
  have hc := c.le
  have hd := d.le
  rw [ipv4ToInt, dotted, String.toList_ofList, ipv4Loop_octet a.isDigit ha (by omega),
    ipv4Loop_octet b.isDigit hb (by omega), ipv4Loop_octet c.isDigit hc (by omega),
    ipv4Loop_last d.isDigit hd, address, BitVec.toNat_ofNat]
  simp only [Octet.value]
  omega

/-- An address is read as its bits. -/
theorem ipv4ToInt_of_isAddress {text : String} {x : BitVec 32} (h : IsAddress text x) :
    ipv4ToInt text = x.toNat := by
  obtain ⟨ha, hb, hc, hd, ha', hb', hc', hd'⟩ := h
  have hoctets := ipv4ToInt_dotted ⟨_, ha.isDigit, ha.number.trans_le ha'⟩
    ⟨_, hb.isDigit, hb.number.trans_le hb'⟩ ⟨_, hc.isDigit, hc.number.trans_le hc'⟩
    ⟨_, hd.isDigit, hd.number.trans_le hd'⟩
  simp only [dotted, Octet.value, ha.number, hb.number, hc.number, hd.number] at hoctets
  exact hoctets

/-! ### Ranges -/

/-- The mask that keeps the first `n` bits. -/
def maskBits (n : Nat) : BitVec 32 := BitVec.allOnes 32 <<< (32 - n)

/-- The range of the addresses that agree with `x` on the first `n` bits. -/
def blockRange (x : BitVec 32) (n : Nat) : AddressRange :=
  { network := (x &&& maskBits n).toNat, mask := (maskBits n).toNat }

theorem getMsbD_maskBits {n : Nat} (h : n ≤ 32) (i : Nat) :
    (maskBits n).getMsbD i = decide (i < n) := by
  rw [maskBits, BitVec.getMsbD_shiftLeft, BitVec.getMsbD_allOnes, decide_eq_decide]
  omega

theorem and_maskBits_eq_iff {n : Nat} (h : n ≤ 32) (x y : BitVec 32) :
    x &&& maskBits n = y &&& maskBits n ↔ AgreeOn n x y := by
  constructor
  · intro heq i hi
    have hbit := congrArg (fun z => BitVec.getMsbD z i) heq
    simpa [getMsbD_maskBits h, hi] using hbit
  · intro hagree
    refine BitVec.eq_of_getMsbD_eq fun i _ => ?_
    rw [BitVec.getMsbD_and, BitVec.getMsbD_and, getMsbD_maskBits h]
    by_cases hi : i < n
    · rw [hagree i hi]
    · simp [hi]

theorem contains_blockRange {n : Nat} (h : n ≤ 32) (x y : BitVec 32) :
    (blockRange y n).contains x.toNat = true ↔ AgreeOn n x y := by
  have hx : toBits ((x.toNat : Int) : Rat) = x := by
    rw [Int.cast_natCast, toBits_toNat]
  rw [← and_maskBits_eq_iff h, AddressRange.contains, blockRange, bitAnd, hx, toBits_toNat,
    unsignedShiftRight_zero, toBits_toInt, beq_iff_eq, BitVec.toNat_inj]

theorem cidrRange_eq {n : Nat} (h : n ≤ 32) (x : BitVec 32) :
    cidrRange x.toNat n = blockRange x n := by
  have hmask : (if (n : Rat) = 0 then 0
      else unsignedShiftRight (shiftLeft (bitNot 0) (roundDouble (32 - n))) 0) =
        (maskBits n).toNat := by
    rcases Nat.eq_zero_or_pos n with rfl | hpos
    · rfl
    · have hcast : (32 : Rat) - n = (32 - n : Nat) := by
        rw [Nat.cast_sub h]
        rfl
      have hshift : (roundDouble (32 - n)).bits.toNat % 32 = 32 - n := by
        rw [hcast, roundDouble_natCast (by omega), Number.bits, toBits_natCast, BitVec.toNat_ofNat]
        omega
      have hones : toBits (bitNot 0) = BitVec.allOnes 32 := by
        rw [bitNot, toBits_toInt, show (0 : Rat) = (0 : Nat) by rfl, toBits_natCast]
        rfl
      rw [if_neg (by exact_mod_cast hpos.ne'), unsignedShiftRight_zero, shiftLeft, toBits_toInt,
        hshift, hones, maskBits]
  have hx : toBits ((x.toNat : Int) : Rat) = x := by
    rw [Int.cast_natCast, toBits_toNat]
  simp only [cidrRange, hmask]
  rw [unsignedShiftRight_zero, bitAnd, toBits_toInt, toBits_toNat, hx, blockRange]

/-- The ranges of the table are those of the blocks. -/
theorem specialUseIPv4Table_eq :
    specialUseIPv4Table = specialUseBlocks.map fun block => blockRange block.1 block.2 := by
  decide

theorem specialUseBlocks_le : ∀ block ∈ specialUseBlocks, block.2 ≤ 32 := by decide

theorem splitText_range {ip bitsText : String} (hip : '/' ∉ ip.toList) (hbits : '/' ∉ bitsText.toList) :
    Json.splitText '/' (ip ++ "/" ++ bitsText) = [ip, bitsText] := by
  rw [← Json.splitText_eq_singleton hbits]
  exact Json.splitText_append hip bitsText

/-- A range is split into its address and the number of its bits. -/
theorem splitText_of_isCidr {cidr : String} {x : BitVec 32} {n : Nat} (h : IsCidr cidr x n) :
    ∃ ip bitsText, Json.splitText '/' cidr = [ip, bitsText] ∧ IsAddress ip x ∧
      IsNumeral bitsText.toList n ∧ n ≤ 32 := by
  obtain @⟨ip, bitsText, _, _, hip, hbits, hn⟩ := h
  refine ⟨ip, bitsText, splitText_range ?_ (hbits.not_mem (by decide)), hip, hbits, hn⟩
  obtain ⟨ha, hb, hc, hd, -, -, -, -⟩ := hip
  have hslash : ∀ {text : List Char} {m : Nat}, IsNumeral text m → '/' ∉ text := fun htext =>
    htext.not_mem (by decide)
  simp [hslash ha, hslash hb, hslash hc, hslash hd]

/-- A range is read as its address and the number of its bits. -/
theorem parseCIDR_of_isCidr {cidr : String} {x : BitVec 32} {n : Nat} (h : IsCidr cidr x n) :
    parseCIDR cidr = some (blockRange x n) := by
  obtain ⟨ip, bitsText, hsplit, hip, hbits, hn⟩ := splitText_of_isCidr h
  have hread := ipv4ToInt_of_isAddress hip
  have hne : ip ≠ "" := by
    rintro rfl
    have hempty : ipv4ToInt "" = -1 := by decide
    omega
  have hnumber : stringToNumber bitsText = .finite n := by
    rw [stringToNumber_digits hbits, roundDouble_natCast (by omega)]
  have hrange : ¬ ((n : Rat) < 0 ∨ 32 < (n : Rat)) := by
    rw [not_or, not_lt, not_lt]
    exact ⟨by positivity, by exact_mod_cast hn⟩
  simp only [parseCIDR, hsplit, if_neg hne, hread, hnumber]
  rw [if_neg (by omega), if_neg hrange, cidrRange_eq hn]

/-- The checks of an IPv4 host: what its text is read as, whether it is for a special use, and
whether it is in one of the blocked ranges. -/
theorem ipv4_checks {host : String} {x : BitVec 32} (hhost : IsAddress host x)
    {cidrs : List (String × BitVec 32 × Nat)} (hcidrs : ∀ c ∈ cidrs, IsCidr c.1 c.2.1 c.2.2) :
    ipv4ToInt host = x.toNat ∧
      (isSpecialUseIPv4 host = true ↔ ∃ block ∈ specialUseBlocks, AgreeOn block.2 x block.1) ∧
      (isBlockedCIDR host (cidrs.map Prod.fst) = true ↔ ∃ c ∈ cidrs, AgreeOn c.2.2 x c.2.1) := by
  have hip := ipv4ToInt_of_isAddress hhost
  have hnonneg : ¬ ((x.toNat : Int) < 0) := by omega
  refine ⟨hip, ?_, ?_⟩
  · simp only [isSpecialUseIPv4, hip, if_neg hnonneg, specialUseIPv4Table_eq, List.any_map,
      List.any_eq_true, Function.comp_apply]
    exact exists_congr fun block => and_congr_right fun hblock =>
      contains_blockRange (specialUseBlocks_le block hblock) x block.1
  · simp only [isBlockedCIDR, hip, if_neg hnonneg, List.any_map, List.any_eq_true,
      Function.comp_apply]
    refine exists_congr fun c => and_congr_right fun hc => ?_
    have hcidr := hcidrs c hc
    have hle : c.2.2 ≤ 32 := by
      generalize c.1 = text at hcidr
      generalize c.2.1 = y at hcidr
      generalize c.2.2 = n at hcidr
      obtain ⟨-, -, hn⟩ := hcidr
      exact hn
    rw [parseCIDR_of_isCidr hcidr]
    exact contains_blockRange hle x c.2.1

/-- An address with its top bit set, against the range of all addresses and that of one. -/
theorem ipv4_checks_top :
    ipv4ToInt "240.0.0.1" = (address 240 0 0 1).toNat ∧
      (isSpecialUseIPv4 "240.0.0.1" = true ↔
        ∃ block ∈ specialUseBlocks, AgreeOn block.2 (address 240 0 0 1) block.1) ∧
      (isBlockedCIDR "240.0.0.1" ["10.0.0.0/0", "240.0.0.0/32"] = true ↔
        ∃ c ∈ [("10.0.0.0/0", address 10 0 0 0, 0), ("240.0.0.0/32", address 240 0 0 0, 32)],
          AgreeOn c.2.2 (address 240 0 0 1) c.2.1) := by
  have h0 : IsNumeral ['0'] 0 := isNumeral_repr 0
  have h1 : IsNumeral ['1'] 1 := isNumeral_repr 1
  have h10 : IsNumeral ['1', '0'] 10 := isNumeral_repr 10
  have hnone : IsNumeral "0".toList 0 := isNumeral_repr 0
  have hfull : IsNumeral "32".toList 32 := isNumeral_repr 32
  have h240 : IsNumeral ['2', '4', '0'] 240 := isNumeral_repr 240
  have hhost : IsAddress "240.0.0.1" (address 240 0 0 1) :=
    .mk h240 h0 h0 h1 (by decide) (by decide) (by decide) (by decide)
  have hall : IsAddress "10.0.0.0" (address 10 0 0 0) :=
    .mk h10 h0 h0 h0 (by decide) (by decide) (by decide) (by decide)
  have hone : IsAddress "240.0.0.0" (address 240 0 0 0) :=
    .mk h240 h0 h0 h0 (by decide) (by decide) (by decide) (by decide)
  have hcidr : IsCidr "10.0.0.0/0" (address 10 0 0 0) 0 := .mk hall hnone (by decide)
  have hcidr' : IsCidr "240.0.0.0/32" (address 240 0 0 0) 32 := .mk hone hfull (by decide)
  have hcidrs : ∀ c ∈ ([("10.0.0.0/0", address 10 0 0 0, 0),
      ("240.0.0.0/32", address 240 0 0 0, 32)] : List (String × BitVec 32 × Nat)),
      IsCidr c.1 c.2.1 c.2.2 := by
    intro c hc
    simp only [List.mem_cons, List.not_mem_nil, or_false] at hc
    rcases hc with rfl | rfl
    · exact hcidr
    · exact hcidr'
  exact ipv4_checks hhost hcidrs

end OidFed
