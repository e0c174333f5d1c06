import OidFed.Js.Dict

/-!
# JSON values as a JavaScript program reads them

A value of `Json` is what `JSON.parse` returns. Numbers are exact rationals (every finite double
is one), arrays and objects are lists; the members of an object that `JSON.parse` made have
distinct names. `undefined` is `none` of `Option Json`.

* `truthy`, `strictEq`, `entries`: the conversions and comparisons of the language.
* `fields`, `inductFields`: the elements or members of a value, and induction over them.
* `Read`, `readMembers`: a plain-object read `o[k]`: the own member, else the member that
  `Object.prototype` has under that name (`objectPrototype`), else `undefined`.
-/

namespace Js

inductive Json where
  | null
  | bool (b : Bool)
  | num (q : Rat)
  | str (s : String)
  | arr (items : List Json)
  | obj (members : List (String × Json))
  deriving Inhabited, Repr

namespace Json

mutual

def beq : Json → Json → Bool
  | null, null => true
  | bool a, bool b => a == b
  | num a, num b => a == b
  | str a, str b => a == b
  | arr l, arr m => beqItems l m
  | obj l, obj m => beqMembers l m
  | _, _ => false

def beqItems : List Json → List Json → Bool
  | [], [] => true
  | a :: l, b :: m => beq a b && beqItems l m
  | _, _ => false

def beqMembers : List (String × Json) → List (String × Json) → Bool
  | [], [] => true
  | (k, a) :: l, (k', b) :: m => k == k' && beq a b && beqMembers l m
  | _, _ => false

end

mutual

theorem beq_iff : ∀ a b : Json, beq a b = true ↔ a = b
  | null, b => by cases b <;> simp [beq]
  | bool _, b => by cases b <;> simp [beq]
  | num _, b => by cases b <;> simp [beq]
  | str _, b => by cases b <;> simp [beq]
  | arr l, b => by
    cases b with
    | arr m => simp [beq, beqItems_iff l m]
    | _ => simp [beq]
  | obj l, b => by
    cases b with
    | obj m => simp [beq, beqMembers_iff l m]
    | _ => simp [beq]

theorem beqItems_iff : ∀ l m : List Json, beqItems l m = true ↔ l = m
  | [], m => by cases m <;> simp [beqItems]
  | a :: l, [] => by simp [beqItems]
  | a :: l, b :: m => by simp [beqItems, beq_iff a b, beqItems_iff l m]

theorem beqMembers_iff : ∀ l m : List (String × Json), beqMembers l m = true ↔ l = m
  | [], m => by cases m <;> simp [beqMembers]
  | (k, a) :: l, [] => by simp [beqMembers]
  | (k, a) :: l, (k', b) :: m => by
    simp [beqMembers, beq_iff a b, beqMembers_iff l m, Prod.ext_iff]

end

instance : DecidableEq Json := fun a b => decidable_of_iff _ (beq_iff a b)

/-! ## Conversions and comparisons -/

/-- Whether `if (value)` takes the branch. -/
def truthy : Json → Bool
  | null => false
  | bool b => b
  | num q => q != 0
  | str s => s != ""
  | arr _ => true
  | obj _ => true

/-- Whether `if (value)` takes the branch, for a value that may be `undefined`. -/
def truthy? : Option Json → Bool
  | none => false
  | some v => v.truthy

def isNull : Json → Bool
  | null => true
  | _ => false

def isString : Json → Bool
  | str _ => true
  | _ => false

def isArray : Json → Bool
  | arr _ => true
  | _ => false

/-- An object that is not an array. -/
def isObject : Json → Bool
  | obj _ => true
  | _ => false

def string? : Json → Option String
  | str s => some s
  | _ => none

def number? : Json → Option Rat
  | num q => some q
  | _ => none

def items? : Json → Option (List Json)
  | arr l => some l
  | _ => none

def members? : Json → Option (List (String × Json))
  | obj l => some l
  | _ => none

/-- `===` of two reads. Arrays and objects read at two places are two references. -/
def strictEq : Option Json → Option Json → Bool
  | none, none => true
  | some null, some null => true
  | some (bool a), some (bool b) => a == b
  | some (num a), some (num b) => a == b
  | some (str a), some (str b) => a == b
  | _, _ => false

@[simp] theorem strictEq_str (a : Option Json) (s : String) :
    strictEq a (some (str s)) = true ↔ a = some (str s) := by
  cases a with
  | none => simp [strictEq]
  | some v => cases v <;> simp [strictEq]

theorem eq_of_strictEq {a b : Option Json} (h : strictEq a b = true) : a = b := by
  revert h
  cases a with
  | none => cases b <;> simp [strictEq]
  | some v =>
    cases b with
    | none => cases v <;> simp [strictEq]
    | some w => cases v <;> cases w <;> simp [strictEq]

/-- `Number.isSafeInteger`. -/
def isSafeInteger (q : Rat) : Bool :=
  q.den == 1 && decide (-(2 ^ 53 - 1) ≤ q.num) && decide (q.num ≤ 2 ^ 53 - 1)

/-- `text.split(separator)`. -/
def splitText (separator : Char) (text : String) : List String :=
  (text.toList.splitOn separator).map String.ofList

/-- The members of `l` under their index names. -/
def indexed {α : Type} (l : List α) : List (String × α) :=
  l.zipIdx.map fun p => (p.2.repr, p.1)

/-- `Object.entries`; `none` where it throws. -/
def entries : Json → Option (List (String × Json))
  | null => none
  | bool _ => some []
  | num _ => some []
  | str s => some (indexed (s.toList.map fun c => str (String.singleton c)))
  | arr l => some (indexed l)
  | obj l => some l

section Text

variable (numberText : Rat → String)

mutual

/-- `String(value)`, with `numberText` for the numbers; `none` where it throws, on an object whose
own `toString` hides the inherited one. -/
def toText : Json → Option String
  | null => some "null"
  | bool b => some (if b then "true" else "false")
  | num q => some (numberText q)
  | str s => some s
  | arr l => (itemTexts l).map (",".intercalate ·)
  | obj l => if l.any fun p => p.1 == "toString" then none else some "[object Object]"

/-- The elements of an array as `join` writes them. -/
def itemTexts : List Json → Option (List String)
  | [] => some []
  | v :: rest => do
    let text ← if v.isNull then some "" else toText v
    return text :: (← itemTexts rest)

end

/-- `items.join(separator)`. -/
def join (separator : String) (items : List Json) : Option String :=
  (itemTexts numberText items).map (separator.intercalate ·)

end Text

/-- Own member `k` of an object. -/
def get? (v : Json) (k : String) : Option Json :=
  match v with
  | obj l => l.lookup k
  | _ => none

@[simp] theorem get?_obj (l : List (String × Json)) (k : String) : (obj l).get? k = l.lookup k := rfl

/-! ## Fields

The fields of an array are its elements under their indices, those of an object its members. -/

def fields : Json → List (String × Json)
  | arr l => indexed l
  | obj l => l
  | _ => []

theorem mem_indexed {α : Type} {l : List α} {p : String × α} :
    p ∈ indexed l ↔ ∃ i : Nat, l[i]? = some p.2 ∧ p.1 = i.repr := by
  obtain ⟨k, v⟩ := p
  simp only [indexed, List.mem_map, Prod.exists, List.mem_zipIdx_iff_getElem?, Prod.mk.injEq]
  constructor
  · rintro ⟨w, i, hi, rfl, rfl⟩
    exact ⟨i, hi, rfl⟩
  · rintro ⟨i, hi, rfl⟩
    exact ⟨v, i, hi, rfl, rfl⟩

@[simp] theorem length_indexed {α : Type} (l : List α) : (indexed l).length = l.length := by
  simp [indexed]

theorem indexed_nodup {α : Type} (l : List α) : ((indexed l).map Prod.fst).Nodup := by
  have h : (indexed l).map Prod.fst = (List.range l.length).map Nat.repr := by
    apply List.ext_getElem
    · simp
    · intro i h1 h2
      simp [indexed]
  rw [h]
  exact List.nodup_range.map fun _ _ => Nat.repr_injective

theorem sizeOf_field_lt {a : Json} {p : String × Json} (h : p ∈ a.fields) :
    sizeOf p.2 < sizeOf a := by
  cases a with
  | arr l =>
    obtain ⟨i, hi, -⟩ := mem_indexed.mp h
    have := List.sizeOf_lt_of_mem (List.mem_of_getElem? hi)
    simp only [arr.sizeOf_spec]
    omega
  | obj l =>
    have := List.sizeOf_lt_of_mem (show p ∈ l from h)
    obtain ⟨k, v⟩ := p
    simp only [obj.sizeOf_spec, Prod.mk.sizeOf_spec] at this ⊢
    omega
  | _ => simp [fields] at h

/-- A property of all values: it passes from the fields of a value to the value. -/
theorem inductFields (P : Json → Prop) (h : ∀ a, (∀ p ∈ a.fields, P p.2) → P a) (a : Json) :
    P a :=
  h a fun p _ => inductFields P h p.2
termination_by sizeOf a
decreasing_by exact sizeOf_field_lt ‹_›

end Json

/-! ## Plain-object reads -/

/-- A member of `Object.prototype`: a function with its `length`, or `Object.prototype` itself. -/
inductive Builtin where
  | function (length : Nat)
  | object
  deriving DecidableEq, Repr

/-- The members of `Object.prototype`, by name. -/
def objectPrototype : List (String × Builtin) :=
  [("constructor", .function 1), ("__defineGetter__", .function 2),
    ("__defineSetter__", .function 2), ("hasOwnProperty", .function 1),
    ("__lookupGetter__", .function 1), ("__lookupSetter__", .function 1),
    ("isPrototypeOf", .function 1), ("propertyIsEnumerable", .function 1),
    ("toString", .function 0), ("valueOf", .function 0), ("__proto__", .object),
    ("toLocaleString", .function 0)]

theorem objectPrototype_nodup : (objectPrototype.map Prod.fst).Nodup := by decide

theorem name_of_object {k : String} (h : objectPrototype.lookup k = some .object) :
    k = "__proto__" := by
  have hall : ∀ p ∈ objectPrototype, p.2 = .object → p.1 = "__proto__" := by decide
  exact hall (k, .object) ((lookup_eq_some_iff_mem objectPrototype_nodup k _).mp h) rfl

/-- The names every plain object inherits. -/
def inherited (k : String) : Bool := (objectPrototype.lookup k).isSome

/-- What the read `o[k]` of a plain object gives. -/
inductive Read (α : Type) where
  | own (v : α)
  | builtin (b : Builtin)
  | undefined
  deriving DecidableEq, Repr

/-- `o[k]`, where `own` is the own member. -/
def readOr {α : Type} (own : Option α) (k : String) : Read α :=
  match own with
  | some v => .own v
  | none =>
    match objectPrototype.lookup k with
    | some b => .builtin b
    | none => .undefined

def readMembers {α : Type} (l : List (String × α)) (k : String) : Read α := readOr (l.lookup k) k

def Dict.read {α : Type} (d : Dict String α) (k : String) : Read α := readOr (d.get? k) k

/-- `k in o`. -/
def Dict.hasMember {α : Type} (d : Dict String α) (k : String) : Bool :=
  (d.get? k).isSome || inherited k

theorem readOr_of_not_inherited {α : Type} (own : Option α) {k : String} (h : inherited k = false) :
    readOr own k = match own with | some v => .own v | none => .undefined := by
  unfold inherited at h
  cases own with
  | some v => rfl
  | none =>
    cases hp : objectPrototype.lookup k with
    | none => simp [readOr, hp]
    | some b => simp [hp] at h

end Js
