import OidFed.Errors
import OidFed.Policy.Values

/-!
# The seven standard operators (`operators.ts`)

* `PolicyOperator`: the operators by name, `PolicyOperatorDefinition`: what an operator does,
  standard or custom, and `operators`: the registry.
* `validateStandardPolicyOperatorConfiguration`: the type an operator's value must have.
* `canCombineWith`: which pairs of operators, with which values, may stand together.

Operands that the source casts (`as unknown[]`) have passed the configuration check by then;
`asItems` reads one that has not as the empty list.
-/

namespace OidFed

open Js

inductive PolicyOperator where
  | value
  | add
  | default
  | oneOf
  | subsetOf
  | supersetOf
  | essential
  deriving DecidableEq, Repr

namespace PolicyOperator

def text : PolicyOperator → String
  | value => "value"
  | add => "add"
  | default => "default"
  | oneOf => "one_of"
  | subsetOf => "subset_of"
  | supersetOf => "superset_of"
  | essential => "essential"

/-- `Object.values(PolicyOperator)`. -/
def all : List PolicyOperator := [value, add, default, oneOf, subsetOf, supersetOf, essential]

theorem mem_all (op : PolicyOperator) : op ∈ all := by cases op <;> decide

def ofText? (name : String) : Option PolicyOperator := all.find? fun op => op.text = name

@[simp] theorem ofText?_text (op : PolicyOperator) : ofText? op.text = some op := by
  cases op <;> decide

theorem text_of_ofText? {name : String} {op : PolicyOperator} (h : ofText? name = some op) :
    op.text = name := by
  simpa using List.find?_some h

theorem text_injective : Function.Injective text := fun a b h => by
  simpa using congrArg ofText? h

theorem not_inherited (op : PolicyOperator) : inherited op.text = false := by
  cases op <;> decide

end PolicyOperator

inductive Action where
  | check
  | modify
  | both
  deriving DecidableEq, Repr

/-- What an operator leaves the parameter with. -/
structure PolicyOperatorResult where
  value : Option Json
  removed : Bool := false
  deriving DecidableEq

structure PolicyOperatorDefinition where
  name : String
  order : Rat
  action : Action
  apply : Option Json → Json → Except String PolicyOperatorResult
  merge : Json → Json → Except String Json
  canCombineWith : String → Json → Json → Bool

def asItems (v : Json) : List Json := v.items?.getD []

@[simp] theorem asItems_arr (l : List Json) : asItems (.arr l) = l := rfl

/-! ## Configuration -/

def invalidOperatorValue (name expected : String) (v : Json) : String :=
  s!"'{name}' operator value must be {expected}; got {valueType v}"

def invalidMetadataValue (name expected : String) (v : Json) : String :=
  s!"'{name}' operator does not support metadata value type {valueType v}; expected {expected}"

/-- The values a standard operator may carry. -/
def PolicyOperator.allowsValue : PolicyOperator → Json → Bool
  | .value, v => v == .null || isValueOrDefaultMetadataValue v
  | .default, v => isValueOrDefaultMetadataValue v
  | .add, v => isComparableArray v
  | .subsetOf, v => isComparableArray v
  | .supersetOf, v => isComparableArray v
  | .oneOf, v => isComparableArray v
  | .essential, v => match v with | .bool _ => true | _ => false

def PolicyOperator.expectedValue : PolicyOperator → String
  | .value => "a string, number, boolean, array, or null"
  | .default => "a string, number, boolean, or array"
  | .essential => "a boolean"
  | _ => "an array of strings, numbers, or objects"

/-- `none` for a good value and for every operator that is not a standard one. -/
def validateStandardPolicyOperatorConfiguration (operatorName : String) (operatorValue : Json) :
    Option String :=
  match PolicyOperator.ofText? operatorName with
  | none => none
  | some op =>
    if op.allowsValue operatorValue then none
    else some (invalidOperatorValue operatorName op.expectedValue operatorValue)

theorem validateStandard_eq_none (op : PolicyOperator) (v : Json) :
    validateStandardPolicyOperatorConfiguration op.text v = none ↔ op.allowsValue v = true := by
  simp [validateStandardPolicyOperatorConfiguration]

/-- Go on with `next` when the operator's value is good. -/
def PolicyOperator.configured {α : Type} (op : PolicyOperator) (v : Json)
    (next : Except String α) : Except String α :=
  match validateStandardPolicyOperatorConfiguration op.text v with
  | some configError => .error configError
  | none => next

theorem PolicyOperator.configured_eq_ok {α : Type} {op : PolicyOperator} {v : Json}
    {next : Except String α} {a : α} :
    op.configured v next = .ok a ↔ op.allowsValue v = true ∧ next = .ok a := by
  unfold configured
  cases h : validateStandardPolicyOperatorConfiguration op.text v with
  | none => simp [(validateStandard_eq_none op v).mp h]
  | some e =>
    have : ¬ op.allowsValue v = true := fun hv => by
      rw [(validateStandard_eq_none op v).mpr hv] at h; simp at h
    simp [this]

/-! ## Combinations -/

def neverAllowed : List (PolicyOperator × PolicyOperator) :=
  [(.add, .oneOf), (.oneOf, .add), (.oneOf, .subsetOf), (.subsetOf, .oneOf), (.oneOf, .supersetOf),
    (.supersetOf, .oneOf)]

/-- Whether `value` carrying `valueVal` goes with `otherOp` carrying `otherVal`. -/
def checkValueCombination (otherOp : PolicyOperator) (valueVal otherVal : Json) : Bool :=
  match otherOp with
  | .add => valueVal.isArray && isSubset (asItems otherVal) (asItems valueVal)
  | .default => valueVal != .null && deepEqual valueVal otherVal
  | .oneOf => !valueVal.isArray && containsElement (asItems otherVal) valueVal
  | .subsetOf => valueVal.isArray && isSubset (asItems valueVal) (asItems otherVal)
  | .supersetOf => valueVal.isArray && isSubset (asItems otherVal) (asItems valueVal)
  | .essential => !(valueVal == .null && otherVal == .bool true)
  | .value => false

/-- Whether `op` goes with an operator that is not a standard one: `value` goes with none. -/
def PolicyOperator.combinesWithCustom (op : PolicyOperator) : Bool := op != .value

/-- Whether `op` carrying `thisValue` goes with the standard operator `other`. -/
def PolicyOperator.combinesWith (op other : PolicyOperator) (thisValue otherValue : Json) : Bool :=
  if other = op then false
  else if neverAllowed.contains (op, other) then false
  else
    match op, other with
    | .value, _ => checkValueCombination other thisValue otherValue
    | .essential, .value => !(otherValue == .null && thisValue == .bool true)
    | _, .value => checkValueCombination op otherValue thisValue
    | .add, .subsetOf =>
      isComparableArray thisValue && isComparableArray otherValue &&
        isSubset (asItems thisValue) (asItems otherValue)
    | .subsetOf, .add =>
      isComparableArray thisValue && isComparableArray otherValue &&
        isSubset (asItems otherValue) (asItems thisValue)
    -- the floor must lie within the ceiling
    | .subsetOf, .supersetOf =>
      isComparableArray thisValue && isComparableArray otherValue &&
        isSubset (asItems otherValue) (asItems thisValue)
    | .supersetOf, .subsetOf =>
      isComparableArray thisValue && isComparableArray otherValue &&
        isSubset (asItems thisValue) (asItems otherValue)
    | _, _ => true

def PolicyOperator.canCombineWith (op : PolicyOperator) (otherOperator : String)
    (thisValue otherValue : Json) : Bool :=
  match ofText? otherOperator with
  | some other => op.combinesWith other thisValue otherValue
  | none => op.combinesWithCustom

/-! ## Merging -/

/-- One value for the same operator stated by a superior (`existing`) and by a subordinate. -/
def PolicyOperator.mergeValues (op : PolicyOperator) (existingValue newValue : Json) :
    Except String Json :=
  match op with
  | .value =>
    if deepEqual existingValue newValue then .ok existingValue
    else .error "Conflicting 'value' operators: cannot merge different values"
  | .default =>
    if deepEqual existingValue newValue then .ok existingValue
    else .error "Conflicting 'default' operators: cannot merge different values"
  | .add => .ok (.arr (arrayUnion (asItems existingValue) (asItems newValue)))
  | .supersetOf => .ok (.arr (arrayUnion (asItems existingValue) (asItems newValue)))
  | .subsetOf => .ok (.arr (arrayIntersection (asItems existingValue) (asItems newValue)))
  | .oneOf =>
    let intersection := arrayIntersection (asItems existingValue) (asItems newValue)
    if intersection.isEmpty then .error "one_of merge resulted in empty intersection"
    else .ok (.arr intersection)
  | .essential => .ok (if existingValue.truthy then existingValue else newValue)

def PolicyOperator.merge (op : PolicyOperator) (existingValue newValue : Json) :
    Except String Json :=
  op.configured existingValue (op.configured newValue (op.mergeValues existingValue newValue))

/-! ## Application -/

/-- The present values of a parameter that an operator works on. -/
def PolicyOperator.supports : PolicyOperator → Json → Bool
  | .value, v => isValueOrDefaultMetadataValue v
  | .default, v => isValueOrDefaultMetadataValue v
  | .add, v => isComparableArray v
  | .subsetOf, v => isComparableArray v
  | .supersetOf, v => isComparableArray v
  | .oneOf, v => isOneOfMetadataValue v
  | .essential, v => isEssentialMetadataValue v

def PolicyOperator.expectedMetadata : PolicyOperator → String
  | .value => "a string, number, boolean, or array"
  | .default => "a string, number, boolean, or array"
  | .oneOf => "a string, number, or object"
  | .essential => "a string, number, boolean, object, or array"
  | _ => "an array of strings, numbers, or objects"

/-- What an operator makes of an absent parameter. -/
def PolicyOperator.applyAbsent (op : PolicyOperator) (operatorValue : Json) :
    Except String PolicyOperatorResult :=
  match op with
  | .value =>
    if operatorValue = .null then .ok { value := some .null, removed := true }
    else .ok { value := some operatorValue }
  | .add => .ok { value := some operatorValue }
  | .default => .ok { value := some operatorValue }
  | .essential =>
    if operatorValue = .bool true then .error "Essential parameter is missing"
    else .ok { value := none }
  | _ => .ok { value := none }

/-- What an operator makes of a present parameter of a type it supports. -/
def PolicyOperator.applyPresent (op : PolicyOperator) (parameterValue operatorValue : Json) :
    Except String PolicyOperatorResult :=
  match op with
  | .value =>
    if operatorValue = .null then .ok { value := some .null, removed := true }
    else .ok { value := some operatorValue }
  | .add =>
    .ok { value := some (.arr (arrayUnion (asItems parameterValue) (asItems operatorValue))) }
  | .default => .ok { value := some parameterValue }
  | .oneOf =>
    if containsElement (asItems operatorValue) parameterValue then
      .ok { value := some parameterValue }
    else .error "Value not in one_of set"
  | .subsetOf =>
    .ok { value :=
      some (.arr (arrayIntersection (asItems parameterValue) (asItems operatorValue))) }
  | .supersetOf =>
    if isSubset (asItems operatorValue) (asItems parameterValue) then
      .ok { value := some parameterValue }
    else .error "Value does not contain all required elements from superset_of"
  | .essential => .ok { value := some parameterValue }

def PolicyOperator.apply (op : PolicyOperator) (parameterValue : Option Json)
    (operatorValue : Json) : Except String PolicyOperatorResult :=
  op.configured operatorValue <|
    match parameterValue with
    | none => op.applyAbsent operatorValue
    | some v =>
      if op.supports v then op.applyPresent v operatorValue
      else .error (invalidMetadataValue op.text op.expectedMetadata v)

/-! ## The registry -/

def PolicyOperator.order : PolicyOperator → Rat
  | value => 1
  | add => 2
  | default => 3
  | oneOf => 4
  | subsetOf => 5
  | supersetOf => 6
  | essential => 7

def PolicyOperator.action : PolicyOperator → Action
  | value => .modify
  | add => .modify
  | default => .modify
  | oneOf => .check
  | subsetOf => .both
  | supersetOf => .check
  | essential => .check

def PolicyOperator.definition (op : PolicyOperator) : PolicyOperatorDefinition where
  name := op.text
  order := op.order
  action := op.action
  apply := op.apply
  merge := op.merge
  canCombineWith := op.canCombineWith

def valueOperator : PolicyOperatorDefinition := PolicyOperator.value.definition

def addOperator : PolicyOperatorDefinition := PolicyOperator.add.definition

def defaultOperator : PolicyOperatorDefinition := PolicyOperator.default.definition

def oneOfOperator : PolicyOperatorDefinition := PolicyOperator.oneOf.definition

def subsetOfOperator : PolicyOperatorDefinition := PolicyOperator.subsetOf.definition

def supersetOfOperator : PolicyOperatorDefinition := PolicyOperator.supersetOf.definition

def essentialOperator : PolicyOperatorDefinition := PolicyOperator.essential.definition

def operators : Dict String PolicyOperatorDefinition where
  members :=
    [("value", valueOperator), ("add", addOperator), ("default", defaultOperator),
      ("one_of", oneOfOperator), ("subset_of", subsetOfOperator),
      ("superset_of", supersetOfOperator), ("essential", essentialOperator)]
  nodup := by decide

/-- Each operator stands in the registry under its own name. -/
theorem operators_members :
    operators.members = PolicyOperator.all.map fun op => (op.text, op.definition) := rfl

theorem operators_get? (name : String) :
    operators.get? name = (PolicyOperator.ofText? name).map PolicyOperator.definition := by
  cases h : PolicyOperator.ofText? name with
  | some op =>
    obtain rfl := PolicyOperator.text_of_ofText? h
    rw [Option.map_some, Dict.get?_eq_some_iff, operators_members]
    exact List.mem_map.mpr ⟨op, PolicyOperator.mem_all op, rfl⟩
  | none =>
    rw [Option.map_none, Dict.get?_eq_none_iff, Dict.keys, operators_members]
    intro hk
    obtain ⟨p, hp, rfl⟩ := List.mem_map.mp hk
    obtain ⟨op, -, rfl⟩ := List.mem_map.mp hp
    simp at h

end OidFed
