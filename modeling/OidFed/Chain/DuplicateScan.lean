import OidFed.Chain.DuplicateMembers
import OidFed.Js.Grammar

/-!
# What the scan for repeated members finds

`occurrences path tree` are the members of the objects of a tree in document order, each with the
path of its object and with whether the object has stated the name before.

* `Settles`, `Agree`: the fuel of a text is enough for it, and more of it changes nothing.
* `reported`: the repeated members of the first three levels of `metadata_policy`.
* `findDuplicateMetadataPolicyMembers_exact`: the scan ends on every text, and on a JSON text of an
  object its result are the paths of `reported`.
-/

namespace OidFed

open Js.Grammar

/-! ## The scan ends -/

section Ends

theorem length_skipWhitespace (text : List Char) : (skipWhitespace text).length ≤ text.length :=
  (List.dropWhile_sublist _).length_le

theorem length_parsePrimitive (text : List Char) : (parsePrimitive text).length ≤ text.length :=
  (List.dropWhile_sublist _).length_le

theorem length_of_skipWhitespace {c : Char} {text rest : List Char}
    (h : skipWhitespace text = c :: rest) : rest.length < text.length := by
  have hskip := length_skipWhitespace text
  rw [h, List.length_cons] at hskip
  omega

/-- A string ends before the text does. -/
theorem length_scanString {text inside rest : List Char}
    (h : scanString text = some (inside, rest)) : rest.length < text.length := by
  fun_induction scanString text generalizing inside rest with
  | case1 => cases h
  | case2 rest =>
    cases h
    simp
  | case3 c text ih =>
    obtain ⟨⟨inside', rest'⟩, hscan, hpure⟩ := Option.bind_eq_some_iff.mp h
    cases hpure
    have := ih hscan
    simp only [List.length_cons]
    omega
  | case4 c text _ _ ih =>
    obtain ⟨⟨inside', rest'⟩, hscan, hpure⟩ := Option.bind_eq_some_iff.mp h
    cases hpure
    have := ih hscan
    simp only [List.length_cons]
    omega

theorem length_parseString {text rest : List Char} {units : Units}
    (h : parseString text = some (units, rest)) : rest.length < text.length := by
  obtain ⟨⟨inside, rest'⟩, hscan, hmap⟩ := Option.bind_eq_some_iff.mp h
  obtain ⟨units', -, hpure⟩ := Option.bind_eq_some_iff.mp hmap
  cases hpure
  exact length_scanString hscan

/-- The scan has returned or thrown, and what is left has at most `n` characters. -/
def Settles (n : Nat) : Except ScanStop (List Path × List Char) → Prop
  | .ok (_, rest) => rest.length ≤ n
  | .error stop => stop = .thrown

theorem Settles.mono {n m : Nat} {x : Except ScanStop (List Path × List Char)} (hx : Settles n x)
    (hnm : n ≤ m) : Settles m x := by
  cases x with
  | error stop => exact hx
  | ok a => exact Nat.le_trans hx hnm

theorem Settles.bind {n m : Nat} {x : Except ScanStop (List Path × List Char)}
    {f : List Path × List Char → Except ScanStop (List Path × List Char)} (hx : Settles n x)
    (hf : ∀ found rest, rest.length ≤ n → Settles m (f (found, rest))) : Settles m (x >>= f) := by
  cases x with
  | error stop => exact hx
  | ok a => exact hf a.1 a.2 hx

theorem Settles.orThrow {α : Type} {n : Nat} {result : Option α}
    {f : α → Except ScanStop (List Path × List Char)}
    (hf : ∀ a, result = some a → Settles n (f a)) : Settles n (OidFed.orThrow result >>= f) := by
  cases result with
  | none => rfl
  | some a => exact hf a rfl

theorem Settles.not_outOfFuel {n : Nat} {x : Except ScanStop (List Path × List Char)}
    (hx : Settles n x) : x ≠ .error .outOfFuel := by
  rintro rfl
  cases hx

/-- Two units of fuel for each character are enough, as two calls in a row consume one. -/
theorem scan_settles (fuel : Nat) :
    (∀ path text, 2 * text.length + 1 ≤ fuel → Settles text.length (parseValue fuel path text)) ∧
      (∀ path text, 2 * text.length + 2 ≤ fuel →
        Settles text.length (parseItems fuel path text)) ∧
      ∀ path seen text, 2 * text.length + 2 ≤ fuel →
        Settles text.length (parseMembers fuel path seen text) := by
  induction fuel with
  | zero => exact ⟨fun _ _ h => by omega, fun _ _ h => by omega, fun _ _ _ h => by omega⟩
  | succ fuel ih =>
    obtain ⟨ihvalue, ihitems, ihmembers⟩ := ih
    -- a value, the items of an array, the members of an object
    refine ⟨fun path text h => ?_, fun path text h => ?_, fun path seen text h => ?_⟩
    · rw [parseValue]
      split
      · rename_i rest hopen
        have hrest := length_of_skipWhitespace hopen
        split
        · rename_i rest' hclose
          have hrest' := length_of_skipWhitespace hclose
          exact le_of_lt (hrest'.trans hrest)
        · have hskip := length_skipWhitespace rest
          -- the brace has been consumed, which pays for the call
          exact (ihmembers path [] _ (by omega)).mono (by omega)
      · rename_i rest hopen
        have hrest := length_of_skipWhitespace hopen
        split
        · rename_i rest' hclose
          have hrest' := length_of_skipWhitespace hclose
          exact le_of_lt (hrest'.trans hrest)
        · have hskip := length_skipWhitespace rest
          exact (ihitems path _ (by omega)).mono (by omega)
      · rename_i rest hopen
        have hrest := length_of_skipWhitespace hopen
        cases hstring : parseString rest with
        | none => rfl
        | some string =>
          have hlast := length_parseString hstring
          exact le_of_lt (hlast.trans hrest)
      · have hskip := length_skipWhitespace text
        exact (length_parsePrimitive _).trans hskip
    · cases text with
      | nil => exact Nat.le_refl 0
      | cons c text =>
        rw [parseItems]
        · refine (ihvalue path (c :: text) (by omega)).bind fun found rest hrest => ?_
          dsimp only
          split
          · rename_i rest' hclose
            have hrest' := length_of_skipWhitespace hclose
            exact (hrest'.le.trans hrest)
          · rename_i rest' hcomma
            have hrest' := length_of_skipWhitespace hcomma
            have hskip := length_skipWhitespace rest'
            refine (ihitems path _ (by omega)).bind fun found' rest'' hrest'' => ?_
            exact hrest''.trans (by omega)
          · rfl
        · exact List.cons_ne_nil c text
    · rw [parseMembers.eq_def]
      dsimp only
      split
      · rename_i hzero
        cases hzero
      · exact Nat.zero_le _
      · rename_i fuel' rest heq
        obtain rfl := Nat.succ.inj heq
        rw [List.length_cons] at h ⊢
        refine Settles.orThrow fun string hstring => ?_
        obtain ⟨key, rest⟩ := string
        have hlast := length_parseString hstring
        dsimp only
        split
        · rename_i rest' hcolon
          have hrest' := length_of_skipWhitespace hcolon
          have hskip := length_skipWhitespace rest'
          refine (ihvalue _ _ (by omega)).bind fun found rest₁ hrest₁ => ?_
          dsimp only
          split
          · rename_i rest₂ hclose
            have hrest₂ := length_of_skipWhitespace hclose
            show rest₂.length ≤ _
            omega
          · rename_i rest₂ hcomma
            have hrest₂ := length_of_skipWhitespace hcomma
            have hskip₂ := length_skipWhitespace rest₂
            refine (ihmembers _ _ _ (by omega)).bind fun found' rest₃ hrest₃ => ?_
            show rest₃.length ≤ _
            omega
          · rfl
        · rfl
      · rfl

/-- The second scan does what the first does, where that is not cut off. -/
def Agree (x y : Except ScanStop (List Path × List Char)) : Prop :=
  x ≠ .error .outOfFuel → y = x

theorem Agree.bind {x y : Except ScanStop (List Path × List Char)}
    {f g : List Path × List Char → Except ScanStop (List Path × List Char)} (hxy : Agree x y)
    (hfg : ∀ a, Agree (f a) (g a)) : Agree (x >>= f) (y >>= g) := by
  intro h
  have hx : x ≠ .error .outOfFuel := by
    rintro rfl
    exact h rfl
  rw [hxy hx]
  cases x with
  | error stop => rfl
  | ok a => exact hfg a h

theorem Agree.orThrow {α : Type} {result : Option α}
    {f g : α → Except ScanStop (List Path × List Char)} (hfg : ∀ a, Agree (f a) (g a)) :
    Agree (OidFed.orThrow result >>= f) (OidFed.orThrow result >>= g) := by
  cases result with
  | none => exact fun _ => rfl
  | some a => exact hfg a

/-- One more unit of fuel changes nothing. -/
theorem scan_agree (fuel : Nat) :
    (∀ path text, Agree (parseValue fuel path text) (parseValue (fuel + 1) path text)) ∧
      (∀ path text, Agree (parseItems fuel path text) (parseItems (fuel + 1) path text)) ∧
      ∀ path seen text,
        Agree (parseMembers fuel path seen text) (parseMembers (fuel + 1) path seen text) := by
  induction fuel with
  | zero =>
    exact ⟨fun _ _ h => absurd rfl h, fun _ _ h => absurd rfl h, fun _ _ _ h => absurd rfl h⟩
  | succ fuel ih =>
    obtain ⟨ihvalue, ihitems, ihmembers⟩ := ih
    refine ⟨fun path text => ?_, fun path text => ?_, fun path seen text => ?_⟩
    · rw [parseValue, parseValue]
      split
      · split
        · exact fun _ => rfl
        · exact ihmembers path [] _
      · split
        · exact fun _ => rfl
        · exact ihitems path _
      · exact fun _ => rfl
      · exact fun _ => rfl
    · cases text with
      | nil => exact fun _ => rfl
      | cons c text =>
        rw [parseItems, parseItems]
        · refine (ihvalue path (c :: text)).bind fun a => ?_
          dsimp only
          split
          · exact fun _ => rfl
          · exact (ihitems path _).bind fun b _ => rfl
          · exact fun _ => rfl
        · exact List.cons_ne_nil c text
        · exact List.cons_ne_nil c text
    · rw [parseMembers.eq_def, parseMembers.eq_def]
      dsimp only
      split
      · rename_i hzero
        cases hzero
      · exact fun _ => rfl
      · rename_i fuel' rest heq
        obtain rfl := Nat.succ.inj heq
        refine Agree.orThrow fun string => ?_
        split
        · refine (ihvalue _ _).bind fun a => ?_
          split
          · exact fun _ => rfl
          · exact (ihmembers _ _ _).bind fun b _ => rfl
          · exact fun _ => rfl
        · exact fun _ => rfl
      · exact fun _ => rfl

/-- The scan of a text ends, and more fuel does not change its result. -/
theorem parseValue_ends {fuel : Nat} {text : List Char} (path : Path)
    (h : 2 * text.length + 1 ≤ fuel) :
    parseValue fuel path text = parseValue (2 * text.length + 1) path text ∧
      parseValue fuel path text ≠ .error .outOfFuel := by
  induction fuel, h using Nat.le_induction with
  | base => exact ⟨rfl, ((scan_settles _).1 path text le_rfl).not_outOfFuel⟩
  | succ fuel h ih =>
    have hagree := (scan_agree fuel).1 path text ih.2
    rw [hagree]
    exact ih

end Ends

/-! ## The members of a tree -/

/-- A member: the path of its object, its name, and whether the object has stated it before. -/
structure Occurrence where
  path : Path
  name : Units
  repeated : Bool
  deriving DecidableEq, Repr

mutual

/-- The members in document order. The items of an array are at the path of the array. -/
def occurrences (path : Path) : Tree → List Occurrence
  | .leaf => []
  | .array items => itemOccurrences path items
  | .object members => memberOccurrences path [] members

def itemOccurrences (path : Path) : List Tree → List Occurrence
  | [] => []
  | item :: items => occurrences path item ++ itemOccurrences path items

def memberOccurrences (path : Path) (earlier : List Units) :
    List (Units × Tree) → List Occurrence
  | [] => []
  | (name, value) :: members =>
    { path, name, repeated := earlier.contains name } :: occurrences (path ++ [name]) value ++
      memberOccurrences path (name :: earlier) members

end

/-- The paths `metadata_policy`, `metadata_policy.X` and `metadata_policy.X.Y`. -/
def AtPolicy (path : Path) : Prop :=
  path = [unitsOf "metadata_policy"] ∨ (∃ x, path = [unitsOf "metadata_policy", x]) ∨
    ∃ x y, path = [unitsOf "metadata_policy", x, y]

theorem shouldCheckObject_iff {path : Path} : shouldCheckObject path = true ↔ AtPolicy path := by
  unfold shouldCheckObject AtPolicy
  match path with
  | [] => simp
  | [a] => simp
  | [a, b] => simp
  | [a, b, c] => simp
  | a :: b :: c :: d :: rest => simp

instance : DecidablePred AtPolicy := fun _ => decidable_of_iff _ shouldCheckObject_iff

/-- The paths of the repeated members among those that are checked. -/
def reported (found : List Occurrence) : List Path :=
  (found.filter fun o => o.repeated && decide (AtPolicy o.path)).map fun o => o.path ++ [o.name]

@[simp] theorem reported_nil : reported [] = [] := rfl

@[simp] theorem reported_append (found found' : List Occurrence) :
    reported (found ++ found') = reported found ++ reported found' := by
  simp [reported]

theorem reported_cons (path : Path) (name : Units) (earlier : List Units)
    (found : List Occurrence) :
    reported ({ path, name, repeated := earlier.contains name } :: found) =
      (if shouldCheckObject path && earlier.contains name then [path ++ [name]] else []) ++
        reported found := by
  have hcheck : decide (AtPolicy path) = shouldCheckObject path := by
    rw [Bool.eq_iff_iff, decide_eq_true_iff, shouldCheckObject_iff]
  rw [← List.singleton_append, reported_append]
  congr 1
  simp only [reported, List.filter_cons, List.filter_nil, hcheck, Bool.and_comm]
  split
  · rfl
  · rfl

/-! ## The scan of a JSON text -/

section Texts

theorem skipWhitespace_blank {before : List Char} (h : Blank before) (text : List Char) :
    skipWhitespace (before ++ text) = skipWhitespace text := by
  refine List.dropWhile_append_of_pos fun c hc => ?_
  have hblank := h c hc
  simp only [List.mem_cons, List.not_mem_nil, or_false] at hblank
  rcases hblank with rfl | rfl | rfl | rfl <;> rfl

theorem skipWhitespace_cons {c : Char} (h : isSpace c = false) (text : List Char) :
    skipWhitespace (c :: text) = c :: text :=
  List.dropWhile_cons_of_neg (by simp [h])

theorem isSpace_bracket : isSpace ']' = false := by simp [isSpace]

theorem isSpace_brace : isSpace '}' = false := by simp [isSpace]

theorem isSpace_comma : isSpace ',' = false := by simp [isSpace]

theorem isSpace_quote : isSpace '"' = false := by simp [isSpace]

theorem isSpace_colon : isSpace ':' = false := by simp [isSpace]

theorem hexDigit_eq {c : Char} {n : Nat} (h : HexDigit c n) : hexDigit c = some n := by
  have hdigits : ∀ n < 16, hexDigit n.digitChar = some n ∧ hexDigit n.digitChar.toUpper = some n := by
    decide +kernel
  obtain ⟨hn, rfl | rfl⟩ := h
  · exact (hdigits n hn).1
  · exact (hdigits n hn).2

theorem hexDigit_plain {c : Char} {n : Nat} (h : HexDigit c n) : c ≠ '"' ∧ c ≠ '\\' := by
  have hupper : ∀ n < 16, n.digitChar.toUpper ∉ ['"', '\\'] := by decide +kernel
  obtain ⟨hn, rfl | rfl⟩ := h
  · simp
  · exact not_or.mp (by simpa using hupper n hn)

theorem scanString_plain {c : Char} (hquote : c ≠ '"') (hslash : c ≠ '\\')
    {text inside rest : List Char} (h : scanString text = some (inside, rest)) :
    scanString (c :: text) = some (c :: inside, rest) := by
  rw [scanString]
  · rw [h]
    rfl
  · exact hquote
  · rintro c' rest' rfl -
    exact hslash rfl

theorem scanString_text {name : List Char} {units : Units} (h : StringText name units)
    (rest : List Char) : scanString (name ++ '"' :: rest) = some (name, rest) := by
  induction h with
  | nil => rfl
  | plain _ hquote hslash _ ih => exact scanString_plain hquote hslash ih
  | short _ _ ih =>
    rw [List.cons_append, List.cons_append, scanString, ih]
    rfl
  | hex ha hb hc hd _ ih =>
    have hd' := scanString_plain (hexDigit_plain hd).1 (hexDigit_plain hd).2 ih
    have hc' := scanString_plain (hexDigit_plain hc).1 (hexDigit_plain hc).2 hd'
    have hb' := scanString_plain (hexDigit_plain hb).1 (hexDigit_plain hb).2 hc'
    have ha' := scanString_plain (hexDigit_plain ha).1 (hexDigit_plain ha).2 hb'
    simp only [List.cons_append]
    rw [scanString, ha']
    rfl

theorem unescape_text {name : List Char} {units : Units} (h : StringText name units) :
    unescape name = some units := by
  induction h with
  | nil => rfl
  | plain hctrl _ hslash _ ih =>
    rw [unescape]
    · rw [if_neg (by omega), ih]
      rfl
    · exact fun _ _ _ _ _ h => absurd h hslash
    · exact fun _ _ h => absurd h hslash
    · exact fun h => absurd h hslash
  | short hletter _ ih =>
    have hletters : ∀ p ∈ shortEscapes, p.1 ≠ 'u' ∧ ([('"', 34), ('\\', 92), ('/', 47), ('b', 8),
        ('f', 12), ('n', 10), ('r', 13), ('t', 9)] : List (Char × Nat)).lookup p.1 = some p.2 := by
      decide
    obtain ⟨hu, hlookup⟩ := hletters _ hletter
    rw [unescape]
    · rw [hlookup, ih]
      rfl
    · exact fun _ _ _ _ _ h => absurd h hu
  | hex ha hb hc hd _ ih =>
    rw [unescape, hexDigit_eq ha, hexDigit_eq hb, hexDigit_eq hc, hexDigit_eq hd, ih]
    rfl

theorem parseString_text {name : List Char} {units : Units} (h : StringText name units)
    (rest : List Char) : parseString (name ++ '"' :: rest) = some (units, rest) := by
  rw [parseString, scanString_text h]
  show (unescape name).bind _ = _
  rw [unescape_text h]
  rfl

/-- What ends a literal or a number. -/
def endsPrimitive (c : Char) : Bool := isSpace c || c == ',' || c == ']' || c == '}'

/-- What may stand behind a value. -/
def Delimited (rest : List Char) : Prop := ∀ c ∈ rest.head?, endsPrimitive c = true

/-- The characters of the literals, and those of numbers that are not digits. -/
def primitiveChars : List Char :=
  ['t', 'r', 'u', 'e', 'f', 'a', 'l', 's', 'n', '+', '-', '.', 'E']

theorem isDigit_bounds {c : Char} (h : c.isDigit = true) : 48 ≤ c.toNat ∧ c.toNat ≤ 57 := by
  simpa [Char.isDigit, UInt32.le_iff_toNat_le] using h

theorem endsPrimitive_digit {c : Char} (h : c.isDigit = true) : endsPrimitive c = false := by
  have hbounds := isDigit_bounds h
  have hne : ∀ d : Char, ¬ (48 ≤ d.toNat ∧ d.toNat ≤ 57) → c ≠ d := by
    rintro d hd rfl
    exact hd hbounds
  have hcomma := hne ',' (by decide)
  have hbracket := hne ']' (by decide)
  have hbrace := hne '}' (by decide)
  simp [endsPrimitive, isSpace, hcomma, hbracket, hbrace]
  omega

theorem endsPrimitive_char {c : Char} (h : c ∈ primitiveChars) : endsPrimitive c = false := by
  simp only [primitiveChars, List.mem_cons, List.not_mem_nil, or_false] at h
  rcases h with rfl | rfl | rfl | rfl | rfl | rfl | rfl | rfl | rfl | rfl | rfl | rfl | rfl <;>
    simp [endsPrimitive, isSpace]

def PrimitiveChar (c : Char) : Prop := c.isDigit = true ∨ c ∈ primitiveChars

theorem PrimitiveChar.endsPrimitive {c : Char} (h : PrimitiveChar c) :
    endsPrimitive c = false := by
  rcases h with hdigit | hchar
  · exact endsPrimitive_digit hdigit
  · exact endsPrimitive_char hchar

theorem PrimitiveChar.isSpace {c : Char} (h : PrimitiveChar c) : isSpace c = false := by
  have hends := h.endsPrimitive
  simp only [OidFed.endsPrimitive, Bool.or_eq_false_iff] at hends
  exact hends.1.1.1

theorem PrimitiveChar.ne {c : Char} (h : PrimitiveChar c) : c ≠ '{' ∧ c ≠ '[' ∧ c ≠ '"' := by
  rcases h with hdigit | hchar
  · have hbounds := isDigit_bounds hdigit
    refine ⟨?_, ?_, ?_⟩ <;>
      · rintro rfl
        exact absurd hbounds (by decide)
  · refine ⟨?_, ?_, ?_⟩ <;>
      · rintro rfl
        exact absurd hchar (by decide)

/-- The text of a literal or a number. -/
def PrimitiveText (text : List Char) : Prop := text ≠ [] ∧ ∀ c ∈ text, PrimitiveChar c

theorem primitiveText_literal {text : List Char}
    (h : text ∈ ["true".toList, "false".toList, "null".toList]) : PrimitiveText text := by
  have hliterals : ∀ text ∈ ["true".toList, "false".toList, "null".toList],
      text ≠ [] ∧ text.all primitiveChars.contains = true := by decide
  obtain ⟨hne, hchars⟩ := hliterals text h
  exact ⟨hne, fun c hc => .inr (by simpa using List.all_eq_true.mp hchars c hc)⟩

theorem primitiveText_number {text : List Char} (h : NumberText text) : PrimitiveText text := by
  cases h with
  | mk hsign hinteger hzero hfraction hexponent =>
    rename_i sign integer fraction exponent
    refine ⟨by simp [hinteger.1], ?_⟩
    simp only [List.mem_append]
    rintro c (((hc | hc) | hc) | hc)
    · have hsigns : ∀ sign ∈ [[], ['-']], sign.all primitiveChars.contains = true := by decide
      exact .inr (by simpa using List.all_eq_true.mp (hsigns sign hsign) c hc)
    · exact .inl (hinteger.2 c hc)
    · cases hfraction with
      | none => cases hc
      | some hdigits =>
        rcases List.mem_cons.mp hc with rfl | hc
        · exact .inr (by decide)
        · exact .inl (hdigits.2 c hc)
    · cases hexponent with
      | none => cases hc
      | some he hsign hdigits =>
        rename_i e sign digits
        rw [List.cons_append, List.mem_cons, List.mem_append] at hc
        rcases hc with rfl | hc | hc
        · have hletters : ['e', 'E'].all primitiveChars.contains = true := by decide
          exact .inr (by simpa using List.all_eq_true.mp hletters c he)
        · have hsigns : ∀ sign ∈ [[], ['+'], ['-']], sign.all primitiveChars.contains = true := by
            decide
          exact .inr (by simpa using List.all_eq_true.mp (hsigns sign hsign) c hc)
        · exact .inl (hdigits.2 c hc)

theorem parsePrimitive_text {text rest : List Char} (h : ∀ c ∈ text, PrimitiveChar c)
    (hrest : Delimited rest) : parsePrimitive (text ++ rest) = rest := by
  rw [parsePrimitive, List.dropWhile_append_of_pos]
  · cases rest with
    | nil => rfl
    | cons d rest =>
      refine List.dropWhile_cons_of_neg ?_
      have hd := hrest d rfl
      rw [endsPrimitive] at hd
      rw [hd]
      decide
  · intro c hc
    have hends := (h c hc).endsPrimitive
    rw [endsPrimitive] at hends
    rw [hends]
    rfl

theorem parseValue_primitive {text rest : List Char} (h : PrimitiveText text)
    (hrest : Delimited rest) (fuel : Nat) (path : Path) :
    parseValue (fuel + 1) path (text ++ rest) = .ok ([], rest) := by
  obtain ⟨hne, hchars⟩ := h
  cases text with
  | nil => exact absurd rfl hne
  | cons c text =>
    have hc := hchars c List.mem_cons_self
    obtain ⟨hbrace, hbracket, hquote⟩ := hc.ne
    rw [parseValue, List.cons_append, skipWhitespace_cons hc.isSpace]
    split
    · rename_i heq
      exact absurd (List.cons.inj heq).1 hbrace
    · rename_i heq
      exact absurd (List.cons.inj heq).1 hbracket
    · rename_i heq
      exact absurd (List.cons.inj heq).1 hquote
    · rw [← List.cons_append, parsePrimitive_text hchars hrest]

/-- The first character of a value. -/
theorem valueText_head {text : List Char} {tree : Tree} (h : ValueText text tree) :
    ∃ c rest, text = c :: rest ∧ isSpace c = false ∧ c ≠ ']' := by
  have hprimitive : PrimitiveText text → ∃ c rest, text = c :: rest ∧ isSpace c = false ∧
      c ≠ ']' := by
    rintro ⟨hne, hchars⟩
    cases text with
    | nil => exact absurd rfl hne
    | cons c text =>
      have hc := hchars c List.mem_cons_self
      refine ⟨c, text, rfl, hc.isSpace, ?_⟩
      rintro rfl
      exact absurd hc.endsPrimitive (by decide)
  cases h with
  | literal hliteral => exact hprimitive (primitiveText_literal hliteral)
  | number hnumber => exact hprimitive (primitiveText_number hnumber)
  | string _ => exact ⟨'"', _, rfl, by simp [isSpace], by decide⟩
  | emptyArray _ => exact ⟨'[', _, rfl, by simp [isSpace], by decide⟩
  | array _ => exact ⟨'[', _, rfl, by simp [isSpace], by decide⟩
  | emptyObject _ => exact ⟨'{', _, rfl, by simp [isSpace], by decide⟩
  | object _ => exact ⟨'{', _, rfl, by simp [isSpace], by decide⟩

theorem delimited_cons {c : Char} (h : endsPrimitive c = true) (rest : List Char) :
    Delimited (c :: rest) := by
  rintro d ⟨⟩
  exact h

theorem delimited_blank {after rest : List Char} (h : Blank after) (hrest : Delimited rest) :
    Delimited (after ++ rest) := by
  cases after with
  | nil => exact hrest
  | cons d after =>
    refine delimited_cons ?_ _
    have hblank := h d List.mem_cons_self
    simp only [List.mem_cons, List.not_mem_nil, or_false] at hblank
    rcases hblank with rfl | rfl | rfl | rfl <;> rfl

theorem delimited_bracket (rest : List Char) : Delimited (']' :: rest) :=
  delimited_cons (by decide) rest

theorem delimited_brace (rest : List Char) : Delimited ('}' :: rest) :=
  delimited_cons (by decide) rest

theorem delimited_comma (rest : List Char) : Delimited (',' :: rest) :=
  delimited_cons (by decide) rest

theorem skipWhitespace_value {text : List Char} {tree : Tree} (h : ValueText text tree)
    (rest : List Char) : skipWhitespace (text ++ rest) = text ++ rest := by
  obtain ⟨c, text, rfl, hspace, -⟩ := valueText_head h
  exact skipWhitespace_cons hspace _

/-- What `parseArray` finds behind the bracket is not the closing one. -/
theorem itemsText_head {text : List Char} {items : List Tree} (h : ItemsText text items)
    (rest : List Char) : ∃ c rest', skipWhitespace (text ++ rest) = c :: rest' ∧ c ≠ ']' := by
  have hfirst : ∀ {before value after : List Char} {item : Tree}, Blank before →
      ValueText value item → ∃ c rest',
        skipWhitespace (before ++ (value ++ after)) = c :: rest' ∧ c ≠ ']' := by
    intro before value after item hbefore hvalue
    obtain ⟨c, value', rfl, hspace, hne⟩ := valueText_head hvalue
    rw [skipWhitespace_blank hbefore, List.cons_append, skipWhitespace_cons hspace]
    exact ⟨c, _, rfl, hne⟩
  cases h with
  | last hbefore hvalue _ =>
    simp only [List.append_assoc]
    exact hfirst hbefore hvalue
  | next hbefore hvalue _ _ =>
    simp only [List.append_assoc]
    exact hfirst hbefore hvalue

/-- What `parseObject` finds behind the brace is a quotation mark. -/
theorem membersText_head {text : List Char} {members : List (Units × Tree)}
    (h : MembersText text members) (rest : List Char) :
    ∃ rest', skipWhitespace (text ++ rest) = '"' :: rest' := by
  cases h with
  | last hbefore _ _ _ _ _ =>
    simp only [List.append_assoc]
    rw [skipWhitespace_blank hbefore]
    exact ⟨_, skipWhitespace_cons isSpace_quote _⟩
  | next hbefore _ _ _ _ _ _ =>
    simp only [List.append_assoc]
    rw [skipWhitespace_blank hbefore]
    exact ⟨_, skipWhitespace_cons isSpace_quote _⟩

section Steps

variable {fuel : Nat} {path : Path} {text after rest rest' : List Char} {found found' : List Path}

theorem parseItems_last (hne : text ≠ [])
    (hvalue : parseValue fuel path text = .ok (found, after ++ ']' :: rest)) (hafter : Blank after) :
    parseItems (fuel + 1) path text = .ok (found, rest) := by
  rw [parseItems]
  · rw [hvalue]
    dsimp only [bind, Except.bind]
    rw [skipWhitespace_blank hafter, skipWhitespace_cons isSpace_bracket]
    rfl
  · exact hne

theorem parseItems_next (hne : text ≠ [])
    (hvalue : parseValue fuel path text = .ok (found, after ++ ',' :: rest)) (hafter : Blank after)
    (hitems : parseItems fuel path (skipWhitespace rest) = .ok (found', rest')) :
    parseItems (fuel + 1) path text = .ok (found ++ found', rest') := by
  rw [parseItems]
  · rw [hvalue]
    dsimp only [bind, Except.bind]
    rw [skipWhitespace_blank hafter, skipWhitespace_cons isSpace_comma]
    simp only [hitems]
    rfl
  · exact hne

theorem parseMembers_last {key : Units} {between value : List Char} {seen : List Units}
    (hkey : parseString text = some (key, between ++ ':' :: value)) (hbetween : Blank between)
    (hvalue : parseValue fuel (path ++ [key]) (skipWhitespace value) =
      .ok (found, after ++ '}' :: rest)) (hafter : Blank after) :
    parseMembers (fuel + 1) path seen ('"' :: text) =
      .ok ((if shouldCheckObject path && seen.contains key then [path ++ [key]] else []) ++ found,
        rest) := by
  rw [parseMembers, hkey]
  dsimp only [orThrow, bind, Except.bind]
  rw [skipWhitespace_blank hbetween, skipWhitespace_cons isSpace_colon]
  simp only [hvalue]
  rw [skipWhitespace_blank hafter, skipWhitespace_cons isSpace_brace]
  rfl

theorem parseMembers_next {key : Units} {between value : List Char} {seen : List Units}
    (hkey : parseString text = some (key, between ++ ':' :: value)) (hbetween : Blank between)
    (hvalue : parseValue fuel (path ++ [key]) (skipWhitespace value) =
      .ok (found, after ++ ',' :: rest)) (hafter : Blank after)
    (hmembers : parseMembers fuel path (key :: seen) (skipWhitespace rest) = .ok (found', rest')) :
    parseMembers (fuel + 1) path seen ('"' :: text) =
      .ok ((if shouldCheckObject path && seen.contains key then [path ++ [key]] else []) ++
        (found ++ found'), rest') := by
  rw [← List.append_assoc, parseMembers, hkey]
  dsimp only [orThrow, bind, Except.bind]
  rw [skipWhitespace_blank hbetween, skipWhitespace_cons isSpace_colon]
  simp only [hvalue]
  rw [skipWhitespace_blank hafter, skipWhitespace_cons isSpace_comma]
  simp only [hmembers]
  rfl

end Steps

mutual

theorem parseValue_text {text : List Char} {tree : Tree} (h : ValueText text tree) (fuel : Nat)
    (hfuel : 2 * text.length + 1 ≤ fuel) (path : Path) {rest : List Char} (hrest : Delimited rest) :
    parseValue fuel path (text ++ rest) = .ok (reported (occurrences path tree), rest) := by
  obtain ⟨fuel, rfl⟩ := Nat.exists_eq_add_of_le' (Nat.le_of_add_left_le hfuel)
  have hskip := skipWhitespace_value h rest
  match h with
  | .literal hliteral => exact parseValue_primitive (primitiveText_literal hliteral) hrest fuel path
  | .number hnumber => exact parseValue_primitive (primitiveText_number hnumber) hrest fuel path
  | @ValueText.string text _ hstring =>
    rw [parseValue, hskip, List.append_assoc]
    show (orThrow (parseString (text ++ '"' :: rest))).map _ = _
    rw [parseString_text hstring]
    rfl
  | .emptyArray hblank =>
    rw [parseValue, hskip, List.append_assoc]
    simp only [List.cons_append, List.nil_append, skipWhitespace_blank hblank,
      skipWhitespace_cons isSpace_bracket]
    rfl
  | .array hitems =>
    rw [parseValue, hskip, List.append_assoc]
    simp only [List.length_cons, List.length_append, List.length_nil] at hfuel
    have hrun := parseItems_text hitems fuel (by omega) path rest
    obtain ⟨c, rest', hhead, hne⟩ := itemsText_head hitems (']' :: rest)
    simp only [List.cons_append, List.nil_append]
    rw [hhead] at hrun ⊢
    split
    · rename_i heq
      exact absurd (List.cons.inj heq).1 hne
    · exact hrun
  | .emptyObject hblank =>
    rw [parseValue, hskip, List.append_assoc]
    simp only [List.cons_append, List.nil_append, skipWhitespace_blank hblank,
      skipWhitespace_cons isSpace_brace]
    rfl
  | .object hmembers =>
    rw [parseValue, hskip, List.append_assoc]
    simp only [List.length_cons, List.length_append, List.length_nil] at hfuel
    have hrun := parseMembers_text hmembers fuel (by omega) path [] rest
    obtain ⟨rest', hhead⟩ := membersText_head hmembers ('}' :: rest)
    simp only [List.cons_append, List.nil_append]
    rw [hhead] at hrun ⊢
    exact hrun

theorem parseItems_text {text : List Char} {items : List Tree} (h : ItemsText text items)
    (fuel : Nat) (hfuel : 2 * text.length + 2 ≤ fuel) (path : Path) (rest : List Char) :
    parseItems fuel path (skipWhitespace (text ++ ']' :: rest)) =
      .ok (reported (itemOccurrences path items), rest) := by
  obtain ⟨fuel, rfl⟩ := Nat.exists_eq_add_of_le' (show 1 ≤ fuel by omega)
  match h with
  | .last hbefore hvalue hafter =>
    simp only [List.length_append] at hfuel
    simp only [List.append_assoc]
    rw [skipWhitespace_blank hbefore, skipWhitespace_value hvalue, itemOccurrences,
      itemOccurrences, List.append_nil]
    exact parseItems_last (by simp) (parseValue_text hvalue fuel (by omega) path
      (delimited_blank hafter (delimited_bracket rest))) hafter
  | .next hbefore hvalue hafter hitems =>
    simp only [List.length_append, List.length_cons] at hfuel
    simp only [List.append_assoc, List.cons_append]
    rw [skipWhitespace_blank hbefore, skipWhitespace_value hvalue, itemOccurrences,
      reported_append]
    exact parseItems_next (by simp) (parseValue_text hvalue fuel (by omega) path
      (delimited_blank hafter (delimited_comma _))) hafter
      (parseItems_text hitems fuel (by omega) path rest)

theorem parseMembers_text {text : List Char} {members : List (Units × Tree)}
    (h : MembersText text members) (fuel : Nat) (hfuel : 2 * text.length + 2 ≤ fuel) (path : Path)
    (seen : List Units) (rest : List Char) :
    parseMembers fuel path seen (skipWhitespace (text ++ '}' :: rest)) =
      .ok (reported (memberOccurrences path seen members), rest) := by
  obtain ⟨fuel, rfl⟩ := Nat.exists_eq_add_of_le' (show 1 ≤ fuel by omega)
  match h with
  | .last hbefore hname hbetween hbefore' hvalue hafter =>
    simp only [List.length_append, List.length_cons] at hfuel
    simp only [List.append_assoc, List.cons_append]
    rw [skipWhitespace_blank hbefore, skipWhitespace_cons isSpace_quote, memberOccurrences,
      memberOccurrences, List.append_nil, reported_cons]
    refine parseMembers_last (parseString_text hname _) hbetween ?_ hafter
    rw [skipWhitespace_blank hbefore', skipWhitespace_value hvalue]
    exact parseValue_text hvalue fuel (by omega) _ (delimited_blank hafter (delimited_brace rest))
  | .next hbefore hname hbetween hbefore' hvalue hafter hmembers =>
    simp only [List.length_append, List.length_cons] at hfuel
    simp only [List.append_assoc, List.cons_append]
    rw [skipWhitespace_blank hbefore, skipWhitespace_cons isSpace_quote, memberOccurrences,
      List.cons_append, reported_cons, reported_append]
    refine parseMembers_next (parseString_text hname _) hbetween ?_ hafter
      (parseMembers_text hmembers fuel (by omega) path _ rest)
    rw [skipWhitespace_blank hbefore', skipWhitespace_value hvalue]
    exact parseValue_text hvalue fuel (by omega) _ (delimited_blank hafter (delimited_comma _))

end

theorem parseValue_blank {before : List Char} (h : Blank before) (fuel : Nat) (path : Path)
    (text : List Char) : parseValue fuel path (before ++ text) = parseValue fuel path text := by
  cases fuel with
  | zero => rfl
  | succ fuel => rw [parseValue, parseValue, skipWhitespace_blank h]

end Texts

/-! ## Every text -/

/-- The scan ends on every text, and more fuel does not change its result. On a JSON text it finds
the repeated members of the first levels of the policy, in document order. -/
theorem findDuplicateMetadataPolicyMembers_exact (json : String) :
    (∀ fuel, scanFuel json.toList ≤ fuel →
      parseValue fuel [] json.toList = parseValue (scanFuel json.toList) [] json.toList ∧
        parseValue fuel [] json.toList ≠ .error .outOfFuel) ∧
      ∀ tree, JsonText json.toList tree →
        findDuplicateMetadataPolicyMembers json =
          (reported (occurrences [] tree)).map dottedPath := by
  have hends : ∀ {fuel}, scanFuel json.toList ≤ fuel → 2 * json.toList.length + 1 ≤ fuel := by
    intro fuel h
    rw [scanFuel] at h
    omega
  refine ⟨fun fuel h => ?_, fun tree h => ?_⟩
  · obtain ⟨heq, hne⟩ := parseValue_ends [] (hends h)
    exact ⟨heq.trans (parseValue_ends [] (hends le_rfl)).1.symm, hne⟩
  · rw [findDuplicateMetadataPolicyMembers, scanFuel]
    generalize json.toList = text at h
    cases h with
    | mk hbefore hvalue hafter =>
      rename_i before text after
      rw [List.append_assoc, parseValue_blank hbefore]
      have hdelimited : Delimited (after ++ []) := delimited_blank hafter nofun
      rw [List.append_nil] at hdelimited
      rw [parseValue_text hvalue _ (by simp only [List.length_append]; omega) [] hdelimited]

/-- `b` twice at the top, and in the policy `a` and `\u0061`, which is `a`. -/
def repeatedMembers : String :=
  "\x7b\x22b\x22:1,\x22b\x22:1,\x22metadata_policy\x22: " ++
    "\x7b\x22a\x22:1,\x22\x5cu0061\x22:[]\x7d\x7d"

theorem repeatedMembers_found :
    JsonText repeatedMembers.toList (.object [(unitsOf "b", .leaf), (unitsOf "b", .leaf),
        (unitsOf "metadata_policy", .object [(unitsOf "a", .leaf), (unitsOf "a", .array [])])]) ∧
      findDuplicateMetadataPolicyMembers repeatedMembers = ["metadata_policy.a"] := by
  have hblank : Blank [] := nofun
  have hspace : Blank [' '] := by simp [Blank]
  have hdigits : Digits ['1'] := ⟨by simp, by simp⟩
  have hone : ValueText ['1'] .leaf := .number (.mk (.head _) hdigits (by simp) .none .none)
  have hb : StringText ['b'] (unitsOf "b") := @stringText_of_plain ['b'] (by simp)
  have ha : StringText ['a'] (unitsOf "a") := @stringText_of_plain ['a'] (by simp)
  have ha' : StringText ['\\', 'u', '0', '0', '6', '1'] (unitsOf "a") :=
    .hex (w := 0) (x := 0) (y := 6) (z := 1) ⟨by decide, .inl rfl⟩ ⟨by decide, .inl rfl⟩
      ⟨by decide, .inl rfl⟩ ⟨by decide, .inl rfl⟩ .nil
  have hpolicy : StringText "metadata_policy".toList (unitsOf "metadata_policy") :=
    @stringText_of_plain "metadata_policy".toList (by simp)
  have hmembers := MembersText.next hblank ha hblank hblank hone hblank
    (.last hblank ha' hblank hblank (.emptyArray hblank) hblank)
  have hjson := JsonText.mk hblank (.object (.next hblank hb hblank hblank hone hblank
    (.next hblank hb hblank hblank hone hblank
      (.last hblank hpolicy hblank hspace (.object hmembers) hblank)))) hblank
  have htext : JsonText repeatedMembers.toList (.object [(unitsOf "b", .leaf), (unitsOf "b", .leaf),
      (unitsOf "metadata_policy", .object [(unitsOf "a", .leaf), (unitsOf "a", .array [])])]) :=
    hjson
  refine ⟨htext, ?_⟩
  rw [(findDuplicateMetadataPolicyMembers_exact repeatedMembers).2 _ htext]
  decide

end OidFed
