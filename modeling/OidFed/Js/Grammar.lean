import OidFed.Js.Utf16

/-!
# The grammar of JSON

Which texts `JSON.parse` accepts, production by production. A text of the grammar stands for a
tree (`Tree`) that keeps every member of an object, also those of one name, with the names by
their UTF-16 units after the escapes are resolved. Leaves are not told apart.

`ValueText text tree` is the text of a value without the white space around it, `JsonText` with it.
-/

namespace Js.Grammar

/-- The value that a text stands for. -/
inductive Tree where
  | leaf
  | array (items : List Tree)
  | object (members : List (List Nat × Tree))

def Blank (text : List Char) : Prop := ∀ c ∈ text, c ∈ [' ', '\t', '\n', '\r']

def HexDigit (c : Char) (n : Nat) : Prop := n < 16 ∧ (c = n.digitChar ∨ c = n.digitChar.toUpper)

/-- The letters behind a backslash, and the units they stand for. -/
def shortEscapes : List (Char × Nat) :=
  [('"', 0x22), ('\\', 0x5c), ('/', 0x2f), ('b', 0x08), ('f', 0x0c), ('n', 0x0a), ('r', 0x0d),
    ('t', 0x09)]

/-- The text between the quotation marks of a string, and the units of the string. -/
inductive StringText : List Char → List Nat → Prop where
  | nil : StringText [] []
  | plain {c : Char} {rest : List Char} {units : List Nat} : 0x20 ≤ c.toNat → c ≠ '"' → c ≠ '\\' →
      StringText rest units → StringText (c :: rest) (unitsOf c ++ units)
  | short {letter : Char} {unit : Nat} {rest : List Char} {units : List Nat} :
      (letter, unit) ∈ shortEscapes → StringText rest units →
      StringText ('\\' :: letter :: rest) (unit :: units)
  | hex {a b c d : Char} {w x y z : Nat} {rest : List Char} {units : List Nat} :
      HexDigit a w → HexDigit b x → HexDigit c y → HexDigit d z → StringText rest units →
      StringText ('\\' :: 'u' :: a :: b :: c :: d :: rest)
        ((((w * 16 + x) * 16 + y) * 16 + z) :: units)

/-- A text without quotation marks, backslashes and control characters stands for itself. -/
theorem stringText_of_plain {text : List Char}
    (h : ∀ c ∈ text, 0x20 ≤ c.toNat ∧ c ≠ '"' ∧ c ≠ '\\') :
    StringText text (text.flatMap unitsOf) := by
  induction text with
  | nil => exact .nil
  | cons c text ih =>
    obtain ⟨hctrl, hquote, hslash⟩ := h c List.mem_cons_self
    exact .plain hctrl hquote hslash (ih fun d hd => h d (List.mem_cons_of_mem c hd))

def Digits (text : List Char) : Prop := text ≠ [] ∧ ∀ c ∈ text, c.isDigit

/-- A fraction, or none. -/
inductive FractionText : List Char → Prop where
  | none : FractionText []
  | some {digits : List Char} : Digits digits → FractionText ('.' :: digits)

/-- An exponent, or none. -/
inductive ExponentText : List Char → Prop where
  | none : ExponentText []
  | some {e : Char} {sign digits : List Char} : e ∈ ['e', 'E'] → sign ∈ [[], ['+'], ['-']] →
      Digits digits → ExponentText (e :: sign ++ digits)

/-- A number: the integer has no leading zero. -/
inductive NumberText : List Char → Prop where
  | mk {sign integer fraction exponent : List Char} : sign ∈ [[], ['-']] → Digits integer →
      (integer.head? = some '0' → integer = ['0']) → FractionText fraction →
      ExponentText exponent → NumberText (sign ++ integer ++ fraction ++ exponent)

mutual

inductive ValueText : List Char → Tree → Prop where
  | literal {text : List Char} :
      text ∈ ["true".toList, "false".toList, "null".toList] → ValueText text .leaf
  | number {text : List Char} : NumberText text → ValueText text .leaf
  | string {text : List Char} {units : List Nat} : StringText text units →
      ValueText ('"' :: text ++ ['"']) .leaf
  | emptyArray {text : List Char} : Blank text → ValueText ('[' :: text ++ [']']) (.array [])
  | array {text : List Char} {items : List Tree} : ItemsText text items →
      ValueText ('[' :: text ++ [']']) (.array items)
  | emptyObject {text : List Char} : Blank text → ValueText ('{' :: text ++ ['}']) (.object [])
  | object {text : List Char} {members : List (List Nat × Tree)} : MembersText text members →
      ValueText ('{' :: text ++ ['}']) (.object members)

/-- The items of an array that has some. -/
inductive ItemsText : List Char → List Tree → Prop where
  | last {before text after : List Char} {item : Tree} :
      Blank before → ValueText text item → Blank after →
      ItemsText (before ++ text ++ after) [item]
  | next {before text after rest : List Char} {item : Tree} {items : List Tree} :
      Blank before → ValueText text item → Blank after → ItemsText rest items →
      ItemsText (before ++ text ++ after ++ ',' :: rest) (item :: items)

/-- The members of an object that has some. -/
inductive MembersText : List Char → List (List Nat × Tree) → Prop where
  | last {before name between before' text after : List Char} {units : List Nat} {value : Tree} :
      Blank before → StringText name units → Blank between → Blank before' →
      ValueText text value → Blank after →
      MembersText (before ++ '"' :: name ++ '"' :: between ++ ':' :: before' ++ text ++ after)
        [(units, value)]
  | next {before name between before' text after rest : List Char} {units : List Nat} {value : Tree}
      {members : List (List Nat × Tree)} :
      Blank before → StringText name units → Blank between → Blank before' →
      ValueText text value → Blank after → MembersText rest members →
      MembersText (before ++ '"' :: name ++ '"' :: between ++ ':' :: before' ++ text ++ after ++
        ',' :: rest) ((units, value) :: members)

end

/-- A JSON text. -/
inductive JsonText : List Char → Tree → Prop where
  | mk {before text after : List Char} {tree : Tree} : Blank before → ValueText text tree →
      Blank after → JsonText (before ++ text ++ after) tree

end Js.Grammar
