import OidFed.Js.Json

/-!
# Values whose members may be undefined

* `Value`: a value that a program has built; a member of an object may be `undefined`. `defined`:
  the JSON value that is left without those members.
* `Distinct`: the names of every object are distinct. `ProgramValue`: a value with that property.
-/

namespace Js

inductive Value where
  | null
  | bool (b : Bool)
  | num (q : Rat)
  | str (s : String)
  | arr (items : List Value)
  | obj (members : List (String × Option Value))
  deriving Inhabited

namespace Value

mutual

/-- The value without the members that are undefined. -/
def defined : Value → Json
  | null => .null
  | bool b => .bool b
  | num q => .num q
  | str s => .str s
  | arr items => .arr (definedItems items)
  | obj members => .obj (definedMembers members)

def definedItems : List Value → List Json
  | [] => []
  | v :: rest => defined v :: definedItems rest

def definedMembers : List (String × Option Value) → List (String × Json)
  | [] => []
  | (_, none) :: rest => definedMembers rest
  | (k, some v) :: rest => (k, defined v) :: definedMembers rest

end

theorem definedItems_eq (items : List Value) : definedItems items = items.map defined := by
  induction items with
  | nil => rfl
  | cons v rest ih => rw [definedItems, ih, List.map_cons]

theorem definedMembers_eq (members : List (String × Option Value)) :
    definedMembers members = members.filterMap fun p => p.2.map fun v => (p.1, defined v) := by
  induction members with
  | nil => rfl
  | cons p rest ih =>
    obtain ⟨k, _ | v⟩ := p
    · rw [definedMembers, ih]
      rfl
    · rw [definedMembers, ih]
      rfl

theorem definedMembers_names (members : List (String × Option Value)) :
    ((definedMembers members).map Prod.fst).Sublist (members.map Prod.fst) := by
  induction members with
  | nil => exact .slnil
  | cons p rest ih =>
    obtain ⟨k, _ | v⟩ := p
    · exact ih.cons k
    · exact ih.cons_cons k

/-- The values in a value. -/
def children : Value → List Value
  | arr items => items
  | obj members => members.filterMap Prod.snd
  | _ => []

/-- The names of its members. -/
def names : Value → List String
  | obj members => members.map Prod.fst
  | _ => []

/-- No object has two members of one name. -/
inductive Distinct : Value → Prop where
  | intro (v : Value) (nodup : v.names.Nodup) (nested : ∀ w ∈ v.children, Distinct w) : Distinct v

theorem Distinct.nodup {v : Value} : Distinct v → v.names.Nodup
  | .intro _ h _ => h

theorem Distinct.nested {v : Value} : Distinct v → ∀ w ∈ v.children, Distinct w
  | .intro _ _ h => h

/-- A defined member, by its name. -/
theorem lookup_definedMembers {members : List (String × Option Value)}
    (h : (members.map Prod.fst).Nodup) (k : String) :
    (definedMembers members).lookup k = (members.lookup k).join.map defined := by
  induction members with
  | nil => rfl
  | cons p rest ih =>
    obtain ⟨name, value⟩ := p
    rw [List.map_cons, List.nodup_cons] at h
    by_cases hk : k = name
    · subst hk
      have hnone : (definedMembers rest).lookup k = none := by
        rw [List.lookup_eq_none_iff]
        intro p hp
        have hne : p.1 ≠ k := by
          rintro rfl
          exact h.1 ((definedMembers_names rest).subset (List.mem_map_of_mem hp))
        simpa using hne.symm
      cases value with
      | none => rw [definedMembers, hnone, List.lookup_cons_self, Option.join_some, Option.map_none]
      | some v =>
        rw [definedMembers, List.lookup_cons_self, List.lookup_cons_self, Option.join_some,
          Option.map_some]
    · have hbeq : (k == name) = false := beq_eq_false_iff_ne.mpr hk
      cases value with
      | none => rw [definedMembers, ih h.2, List.lookup_cons, hbeq]
      | some v => rw [definedMembers, List.lookup_cons, hbeq, ih h.2, List.lookup_cons, hbeq]

end Value

/-- A value as the language keeps it. -/
structure ProgramValue where
  value : Value
  distinct : value.Distinct

end Js
