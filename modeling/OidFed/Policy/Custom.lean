import OidFed.Policy.Operators

/-!
# Custom operators and the operator lookup (`custom-operators.ts`)

* `validateCustomOperators`: the rules for the operators that a federation adds.
* `buildOperatorLookup`: the registry with the custom operators written over it. Writing the
  name `__proto__` replaces the lookup's prototype instead of adding a member.

A custom operator is any total function on JSON values; it does not throw.
-/

namespace OidFed

open Js

/-- Failure with the code for a bad policy. -/
def policyError {α : Type} (description : String) : Except Stop α :=
  .error (.fail (internalError .MetadataPolicyError description))

structure MetadataPolicyOptions where
  customOperators : List PolicyOperatorDefinition := []

def standardOperatorNames : List String := PolicyOperator.all.map PolicyOperator.text

theorem mem_standardOperatorNames {name : String} :
    name ∈ standardOperatorNames ↔ ∃ op, PolicyOperator.ofText? name = some op := by
  constructor
  · intro h
    obtain ⟨op, -, rfl⟩ := List.mem_map.mp h
    exact ⟨op, PolicyOperator.ofText?_text op⟩
  · rintro ⟨op, h⟩
    exact PolicyOperator.text_of_ofText? h ▸ List.mem_map_of_mem (PolicyOperator.mem_all op)

/-- The order that an operator of each action must declare. -/
def checkCustomOrder (op : PolicyOperatorDefinition) : Option String :=
  match op.action with
  | .modify =>
    if op.order ≤ 1 then
      some s!"Custom modify-action operator '{op.name}' must declare order > 1 (apply after standard 'value')"
    else none
  | .check =>
    if 7 ≤ op.order then
      some s!"Custom check-action operator '{op.name}' must declare order < 7 (apply before standard 'essential')"
    else none
  | .both =>
    if op.order ≤ 1 ∨ 7 ≤ op.order then
      some s!"Custom 'both'-action operator '{op.name}' must declare 1 < order < 7"
    else none

/-- The loop of `validateCustomOperators`; `seen` holds the names before. -/
def validateCustomOperatorsFrom (seen : List String) :
    List PolicyOperatorDefinition → Except Stop Unit
  | [] => .ok ()
  | op :: rest =>
    if op.name ∈ standardOperatorNames then
      policyError s!"Custom policy operator name '{op.name}' conflicts with a standard operator"
    else if op.name ∈ seen then
      policyError s!"Duplicate custom policy operator name: '{op.name}'"
    else
      match checkCustomOrder op with
      | some description => policyError description
      | none => validateCustomOperatorsFrom (op.name :: seen) rest

def validateCustomOperators (customOperators : List PolicyOperatorDefinition) :
    Except Stop Unit :=
  validateCustomOperatorsFrom [] customOperators

/-- Validate the custom set, and merge it into the registry. -/
def buildOperatorLookup (options : MetadataPolicyOptions) :
    Except Stop (Dict String PolicyOperatorDefinition) := do
  validateCustomOperators options.customOperators
  if options.customOperators.any fun op => op.name == "__proto__" then
    .error .outside
  else
    return options.customOperators.foldl (fun lookup op => lookup.set op.name op) operators

/-! ## What the rules give -/

/-- A violated rule is a policy error, never another kind of end. -/
theorem validateCustomOperatorsFrom_error {seen : List String}
    {customs : List PolicyOperatorDefinition} {s : Stop}
    (h : validateCustomOperatorsFrom seen customs = .error s) :
    ∃ d, s = .fail (internalError .MetadataPolicyError d) := by
  induction customs generalizing seen with
  | nil => simp [validateCustomOperatorsFrom] at h
  | cons op rest ih =>
    unfold validateCustomOperatorsFrom at h
    split at h
    · exact ⟨_, (Except.error.inj h).symm⟩
    · split at h
      · exact ⟨_, (Except.error.inj h).symm⟩
      · split at h
        · exact ⟨_, (Except.error.inj h).symm⟩
        · exact ih h

/-- The names that count as known: the registry's and the custom operators'. -/
def MetadataPolicyOptions.Known (options : MetadataPolicyOptions) (name : String) : Prop :=
  name ∈ standardOperatorNames ∨ name ∈ options.customOperators.map PolicyOperatorDefinition.name

theorem foldl_set_get?_isSome (customs : List PolicyOperatorDefinition)
    (d : Dict String PolicyOperatorDefinition) (name : String) :
    ((customs.foldl (fun lookup op => lookup.set op.name op) d).get? name).isSome ↔
      (d.get? name).isSome ∨ name ∈ customs.map PolicyOperatorDefinition.name := by
  induction customs generalizing d with
  | nil => simp
  | cons op rest ih =>
    rw [List.foldl_cons, ih, Dict.get?_set]
    by_cases h : name = op.name <;> simp [h]

/-- The lookup's own members are the known names. -/
theorem buildOperatorLookup_own {options : MetadataPolicyOptions}
    {lookup : Dict String PolicyOperatorDefinition} (h : buildOperatorLookup options = .ok lookup)
    (name : String) : (lookup.get? name).isSome ↔ options.Known name := by
  obtain ⟨-, -, h⟩ := bind_eq_ok.mp h
  split at h
  · simp at h
  · obtain rfl := Except.ok.inj h
    rw [foldl_set_get?_isSome, operators_get?, Option.isSome_map, MetadataPolicyOptions.Known,
      mem_standardOperatorNames, Option.isSome_iff_exists]

theorem buildOperatorLookup_error {options : MetadataPolicyOptions}
    (hn : ∀ op ∈ options.customOperators, op.name ≠ "__proto__") {s : Stop}
    (h : buildOperatorLookup options = .error s) :
    ∃ d, s = .fail (internalError .MetadataPolicyError d) := by
  unfold buildOperatorLookup validateCustomOperators at h
  cases hv : validateCustomOperatorsFrom [] options.customOperators with
  | error s' =>
    rw [hv] at h
    obtain rfl : s' = s := Except.error.inj h
    exact validateCustomOperatorsFrom_error hv
  | ok u =>
    rw [hv] at h
    have hany : (options.customOperators.any fun op => op.name == "__proto__") = false := by
      simpa using hn
    simp [hany, bind, Except.bind, pure, Except.pure] at h

/-- Without custom operators the lookup is the registry. -/
theorem buildOperatorLookup_standard : buildOperatorLookup {} = .ok operators := rfl

end OidFed
