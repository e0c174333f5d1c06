import OidFed.Js.Json
import OidFed.Lib.UpTo

/-!
# Policy values and their equality (`operators.ts`)

`deepEqual` and the list operations built on it, which the operators use to compare values. The
list operations are those of `UpTo` at `deepEqual`; the side on which each of them puts its
arguments is the source's.

`deepEqual` tests `Array.isArray` only when both sides are arrays. An object and an array are
compared like two objects, by the names of the first one, and an array answers to `length`; so
`deepEqual` equates `{"length": 1}` with every one-element array, and not the other way round.
`Plain` values have no member of such a name at any depth; on them `deepEqual` is an
equivalence (`deepEqual_equivOn_plain`).
-/

namespace OidFed

open Js

/-- `b[key]` for the elements `items` of an array: an element, the length, or what the array
inherits. -/
def readArray (items : List Json) (key : String) : Read Json :=
  match (Json.indexed items).lookup key with
  | some v => .own v
  | none =>
    if key = "length" then .own (.num items.length)
    else if key = "__proto__" then .builtin .object
    else if inherited key then .builtin (.function 0)
    else .undefined

/-- `b[key]` for an object or array `b`. -/
def readValue (b : Json) (key : String) : Read Json :=
  match b with
  | .arr items => readArray items key
  | .obj members => readMembers members key
  | _ => .undefined

/-- `Object.keys(b).length`. -/
def keyCount : Json → Nat
  | .arr items => items.length
  | .obj members => members.length
  | _ => 0

/-- The value has no own enumerable members. `Object.prototype` and `Array.prototype` have none
either, so `deepEqual` equates such an object with them. -/
def isEmptyObject (a : Json) : Bool := (a.isArray || a.isObject) && keyCount a == 0

/-- `deepEqual(a, r)` for what a read gave, with `equal` for the values of the program. -/
def fieldEqual (equal : Json → Bool) (a : Json) : Read Json → Bool
  | .own w => equal w
  | .builtin .object => isEmptyObject a
  | .builtin (.function _) => false
  | .undefined => false

mutual

/-- Deep structural equality for policy values (arrays, objects, primitives). -/
def deepEqual : Json → Json → Bool
  | .null, b => b == .null
  | .bool x, b => b == .bool x
  | .num x, b => b == .num x
  | .str x, b => b == .str x
  | .arr items, b =>
    (b.isArray || b.isObject) && items.length == keyCount b && deepEqualItems 0 items b
  | .obj members, b =>
    (b.isArray || b.isObject) && members.length == keyCount b && deepEqualMembers members b

/-- Each of `items`, an array's elements from index `i` on, equals `b` at its index. -/
def deepEqualItems (i : Nat) : List Json → Json → Bool
  | [], _ => true
  | a :: rest, b =>
    fieldEqual (fun w => deepEqual a w) a (readValue b i.repr) && deepEqualItems (i + 1) rest b

/-- Each of `members` equals `b` under its name. -/
def deepEqualMembers : List (String × Json) → Json → Bool
  | [], _ => true
  | (k, a) :: rest, b =>
    fieldEqual (fun w => deepEqual a w) a (readValue b k) && deepEqualMembers rest b

end

/-- Every element in `subset` exists in `superset`. -/
def isSubset (subset superset : List Json) : Bool := UpTo.subset deepEqual subset superset

/-- Merge two arrays, deduplicating via deep equality. -/
def arrayUnion (a b : List Json) : List Json := UpTo.union deepEqual a b

def arrayIntersection (a b : List Json) : List Json := UpTo.inter deepEqual a b

def containsElement (arr : List Json) (element : Json) : Bool :=
  UpTo.contains deepEqual arr element

/-! ## Value types -/

def valueType : Json → String
  | .null => "null"
  | .arr _ => "array"
  | .bool _ => "boolean"
  | .num _ => "number"
  | .str _ => "string"
  | .obj _ => "object"

def isScalar : Json → Bool
  | .str _ => true
  | .num _ => true
  | .bool _ => true
  | _ => false

def isValueOrDefaultMetadataValue (v : Json) : Bool := isScalar v || v.isArray

def isComparableElement : Json → Bool
  | .str _ => true
  | .num _ => true
  | .obj _ => true
  | _ => false

def isComparableArray : Json → Bool
  | .arr items => items.all isComparableElement
  | _ => false

def isOneOfMetadataValue (v : Json) : Bool := isComparableElement v

def isEssentialMetadataValue (v : Json) : Bool := v != .null

theorem isComparableArray_iff {v : Json} :
    isComparableArray v = true ↔ ∃ l, v = .arr l ∧ ∀ x ∈ l, isComparableElement x = true := by
  cases v <;> simp [isComparableArray]

end OidFed
