import OidFed.Policy.Values

/-!
# What `deepEqual` decides

* `deepEqual_arr_arr`: arrays are equal elementwise. `deepEqual_of_scalar`: scalars are equal only
  to themselves.
* `deepEqual_iff_fields`: where the names of the first value are ordinary, two arrays or objects
  are equal when they have as many fields and each field of the first equals the second's.
* `Parsed`: values whose names are distinct at every depth. `deepEqual_refl_parsed`: on them
  `deepEqual` is reflexive.
* `Plain`: values whose names are ordinary, too. `deepEqual_equivOn_plain`: on them `deepEqual` is
  an equivalence.
-/

namespace OidFed

open Js

/-! ## Index names -/

theorem repr_ne_of_not_digit {s : String} (c : Char) (hc : c ∈ s.toList) (hd : c.isDigit = false)
    (i : Nat) : i.repr ≠ s := by
  rintro rfl
  have : c ∈ Nat.toDigits 10 i := by rwa [← Nat.toList_repr]
  exact absurd (Nat.isDigit_of_mem_toDigits (by omega) (by omega) this) (by simp [hd])

theorem repr_ne_length (i : Nat) : i.repr ≠ "length" :=
  repr_ne_of_not_digit 'l' (by decide) (by decide) i

theorem repr_ne_proto (i : Nat) : i.repr ≠ "__proto__" :=
  repr_ne_of_not_digit 'p' (by decide) (by decide) i

/-! ## Reads of a field -/

/-- What a read of an ordinary name compares equal to is a field. -/
theorem readValue_field {b : Json} (hb : (b.fields.map Prod.fst).Nodup) {k : String}
    (hl : k ≠ "length") (hp : k ≠ "__proto__") (a : Json) :
    fieldEqual (fun w => deepEqual a w) a (readValue b k) = true ↔
      ∃ w, (k, w) ∈ b.fields ∧ deepEqual a w = true := by
  have hfields : ∀ l : List (String × Json), (l.map Prod.fst).Nodup →
      (l.lookup k = none ∧ ¬ ∃ w, (k, w) ∈ l) ∨
        ∃ w, l.lookup k = some w ∧ ∀ w', (k, w') ∈ l ↔ w' = w := by
    intro l hn
    cases hk : l.lookup k with
    | none =>
      refine .inl ⟨rfl, fun ⟨w, hw⟩ => ?_⟩
      rw [(lookup_eq_some_iff_mem hn k w).mpr hw] at hk
      simp at hk
    | some w =>
      refine .inr ⟨w, rfl, fun w' => ?_⟩
      rw [← lookup_eq_some_iff_mem hn, hk, Option.some.injEq, eq_comm]
  cases b with
  | arr items =>
    rcases hfields _ hb with ⟨hnone, hno⟩ | ⟨w, hw, hmem⟩
    · have hno' : ¬ ∃ w, (k, w) ∈ (Json.arr items).fields ∧ deepEqual a w = true :=
        fun ⟨w, h, _⟩ => hno ⟨w, h⟩
      simp only [readValue, readArray, show (Json.indexed items).lookup k = none from hnone, hl, hp,
        if_false]
      split_ifs <;> simpa [fieldEqual] using hno'
    · simp only [readValue, readArray, show (Json.indexed items).lookup k = some w from hw]
      simp [hmem, fieldEqual]
  | obj members =>
    rcases hfields _ hb with ⟨hnone, hno⟩ | ⟨w, hw, hmem⟩
    · have hno' : ¬ ∃ w, (k, w) ∈ (Json.obj members).fields ∧ deepEqual a w = true :=
        fun ⟨w, h, _⟩ => hno ⟨w, h⟩
      simp only [readValue, readMembers, readOr, show members.lookup k = none from hnone]
      cases ho : objectPrototype.lookup k with
      | none => simpa [fieldEqual] using hno'
      | some r =>
        cases r with
        | function n => simpa [fieldEqual] using hno'
        | object => exact absurd (name_of_object ho) hp
    · simp only [readValue, readMembers, readOr, show members.lookup k = some w from hw]
      simp [hmem, fieldEqual]
  | _ => simp [readValue, fieldEqual, Json.fields]

/-! ## Fields -/

theorem deepEqualMembers_iff {b : Json} (hb : (b.fields.map Prod.fst).Nodup)
    {members : List (String × Json)}
    (hm : ∀ p ∈ members, p.1 ≠ "length" ∧ p.1 ≠ "__proto__") :
    deepEqualMembers members b = true ↔
      ∀ p ∈ members, ∃ w, (p.1, w) ∈ b.fields ∧ deepEqual p.2 w = true := by
  induction members with
  | nil => simp [deepEqualMembers]
  | cons p rest ih =>
    obtain ⟨k, a⟩ := p
    have hk := hm (k, a) List.mem_cons_self
    rw [deepEqualMembers, Bool.and_eq_true, readValue_field hb hk.1 hk.2,
      ih fun q hq => hm q (List.mem_cons_of_mem _ hq), List.forall_mem_cons]

theorem deepEqualItems_iff {b : Json} (hb : (b.fields.map Prod.fst).Nodup) {items : List Json}
    {i : Nat} :
    deepEqualItems i items b = true ↔
      ∀ j a, items[j]? = some a → ∃ w, ((i + j).repr, w) ∈ b.fields ∧ deepEqual a w = true := by
  induction items generalizing i with
  | nil => simp [deepEqualItems]
  | cons a rest ih =>
    rw [deepEqualItems, Bool.and_eq_true, readValue_field hb (repr_ne_length i) (repr_ne_proto i),
      ih]
    constructor
    · rintro ⟨h0, h⟩ j x hx
      cases j with
      | zero =>
        obtain rfl : a = x := by simpa using hx
        exact h0
      | succ j =>
        have := h j x (by simpa using hx)
        rwa [Nat.add_right_comm, Nat.add_assoc] at this
    · intro h
      refine ⟨h 0 a (by simp), fun j x hx => ?_⟩
      have := h (j + 1) x (by simpa using hx)
      rwa [← Nat.add_assoc, Nat.add_right_comm] at this

def isContainer (a : Json) : Bool := a.isArray || a.isObject

@[simp] theorem keyCount_eq (a : Json) : keyCount a = a.fields.length := by
  cases a <;> simp [keyCount, Json.fields]

theorem deepEqual_of_scalar {a : Json} (ha : isContainer a = false) (b : Json) :
    deepEqual a b = true ↔ b = a := by
  cases a with
  | arr => simp [isContainer, Json.isArray] at ha
  | obj => simp [isContainer, Json.isObject] at ha
  | _ => simp [deepEqual]

/-- Two arrays or objects, where the names of the first are ordinary. -/
theorem deepEqual_iff_fields {a b : Json} (ha : isContainer a = true)
    (hn : ∀ p ∈ a.fields, p.1 ≠ "length" ∧ p.1 ≠ "__proto__")
    (hb : (b.fields.map Prod.fst).Nodup) :
    deepEqual a b = true ↔ isContainer b = true ∧ a.fields.length = b.fields.length ∧
      ∀ p ∈ a.fields, ∃ w, (p.1, w) ∈ b.fields ∧ deepEqual p.2 w = true := by
  cases a with
  | arr items =>
    have hitems : (∀ j a, items[j]? = some a →
        ∃ w, ((0 + j).repr, w) ∈ b.fields ∧ deepEqual a w = true) ↔
        ∀ p ∈ (Json.arr items).fields, ∃ w, (p.1, w) ∈ b.fields ∧ deepEqual p.2 w = true := by
      constructor
      · intro h p hp
        obtain ⟨i, hi, hk⟩ := Json.mem_indexed.mp hp
        rw [hk]
        simpa using h i p.2 hi
      · intro h j a hj
        simpa using h (j.repr, a) (Json.mem_indexed.mpr ⟨j, hj, rfl⟩)
    rw [deepEqual, Bool.and_eq_true, Bool.and_eq_true, deepEqualItems_iff hb, hitems, and_assoc]
    simp [isContainer, Json.fields]
  | obj members =>
    have hmembers : deepEqualMembers members b = true ↔
        ∀ p ∈ (Json.obj members).fields, ∃ w, (p.1, w) ∈ b.fields ∧ deepEqual p.2 w = true :=
      deepEqualMembers_iff hb hn
    rw [deepEqual, Bool.and_eq_true, Bool.and_eq_true, hmembers, and_assoc]
    simp [isContainer, Json.fields]
  | _ => simp [isContainer, Json.isArray, Json.isObject] at ha

theorem deepEqual_null_right {a : Json} : deepEqual a .null = true ↔ a = .null := by
  cases a <;> simp [deepEqual, Json.isArray, Json.isObject]

/-- Arrays are equal element by element. -/
theorem deepEqual_arr_arr {l m : List Json} :
    deepEqual (.arr l) (.arr m) = true ↔ l.length = m.length ∧
      ∀ (i : Nat) (a : Json), l[i]? = some a → ∃ b, m[i]? = some b ∧ deepEqual a b = true := by
  have hfield : ∀ (i : Nat) (w : Json), (i.repr, w) ∈ Json.indexed m ↔ m[i]? = some w := by
    intro i w
    rw [Json.mem_indexed]
    constructor
    · rintro ⟨j, hj, hij⟩
      rwa [Nat.repr_injective hij]
    · exact fun h => ⟨i, h, rfl⟩
  have hnodup : ((Json.arr m).fields.map Prod.fst).Nodup := Json.indexed_nodup m
  rw [deepEqual, Bool.and_eq_true, deepEqualItems_iff hnodup]
  simp [hfield, Json.isArray, Json.fields]

/-! ## Parsed values -/

/-- At every depth, names are distinct: what `JSON.parse` makes. -/
inductive Parsed : Json → Prop where
  | intro (a : Json) (nodup : (a.fields.map Prod.fst).Nodup)
      (nested : ∀ p ∈ a.fields, Parsed p.2) : Parsed a

theorem Parsed.nodup {a : Json} : Parsed a → (a.fields.map Prod.fst).Nodup
  | .intro _ h _ => h

theorem Parsed.nested {a : Json} : Parsed a → ∀ p ∈ a.fields, Parsed p.2
  | .intro _ _ h => h

/-- A field reads as itself, whatever its name. -/
theorem readValue_own {b : Json} (hb : (b.fields.map Prod.fst).Nodup) {k : String} {w : Json}
    (h : (k, w) ∈ b.fields) : readValue b k = .own w := by
  have hlookup : b.fields.lookup k = some w := (lookup_eq_some_iff_mem hb k w).mpr h
  cases b with
  | arr items =>
    have hitem : (Json.indexed items).lookup k = some w := hlookup
    simp only [readValue, readArray, hitem]
  | obj members =>
    have hmember : members.lookup k = some w := hlookup
    simp only [readValue, readMembers, readOr, hmember]
  | _ => simp [Json.fields] at h

theorem deepEqualMembers_of_own {b : Json} {members : List (String × Json)}
    (h : ∀ p ∈ members, readValue b p.1 = .own p.2 ∧ deepEqual p.2 p.2 = true) :
    deepEqualMembers members b = true := by
  induction members with
  | nil => simp [deepEqualMembers]
  | cons p rest ih =>
    obtain ⟨hread, hrefl⟩ := h p List.mem_cons_self
    rw [deepEqualMembers, Bool.and_eq_true, hread]
    exact ⟨hrefl, ih fun q hq => h q (List.mem_cons_of_mem _ hq)⟩

theorem deepEqualItems_of_own {b : Json} {items : List Json} {i : Nat}
    (h : ∀ j a, items[j]? = some a → readValue b (i + j).repr = .own a ∧ deepEqual a a = true) :
    deepEqualItems i items b = true := by
  induction items generalizing i with
  | nil => simp [deepEqualItems]
  | cons a rest ih =>
    obtain ⟨hread, hrefl⟩ := h 0 a rfl
    rw [deepEqualItems, Bool.and_eq_true, show readValue b i.repr = .own a from hread]
    refine ⟨hrefl, ih fun j x hx => ?_⟩
    rw [Nat.add_right_comm]
    exact h (j + 1) x (by simpa using hx)

/-- A parsed value equals itself. -/
theorem deepEqual_refl_parsed (a : Json) : Parsed a → deepEqual a a = true := by
  refine Json.inductFields (fun a => Parsed a → deepEqual a a = true) (fun a ih ha => ?_) a
  have hnodup := ha.nodup
  have hnested := ha.nested
  cases a with
  | arr items =>
    have hitems : deepEqualItems 0 items (.arr items) = true := by
      refine deepEqualItems_of_own fun j x hx => ?_
      have hmem : ((0 + j).repr, x) ∈ (Json.arr items).fields :=
        Json.mem_indexed.mpr ⟨j, hx, by simp⟩
      exact ⟨readValue_own hnodup hmem, ih _ hmem (hnested _ hmem)⟩
    simp [deepEqual, hitems, Json.isArray, Json.fields]
  | obj members =>
    have hmembers : deepEqualMembers members (.obj members) = true :=
      deepEqualMembers_of_own fun p hp => ⟨readValue_own hnodup hp, ih p hp (hnested p hp)⟩
    simp [deepEqual, hmembers, Json.isObject, Json.fields]
  | _ => simp [deepEqual]

/-! ## Plain values -/

/-- At every depth, names are distinct and none is `length` or `__proto__`. -/
inductive Plain : Json → Prop where
  | intro (a : Json) (nodup : (a.fields.map Prod.fst).Nodup)
      (names : ∀ p ∈ a.fields, p.1 ≠ "length" ∧ p.1 ≠ "__proto__")
      (nested : ∀ p ∈ a.fields, Plain p.2) : Plain a

theorem Plain.nodup {a : Json} : Plain a → (a.fields.map Prod.fst).Nodup
  | .intro _ h _ _ => h

theorem Plain.names {a : Json} : Plain a → ∀ p ∈ a.fields, p.1 ≠ "length" ∧ p.1 ≠ "__proto__"
  | .intro _ _ h _ => h

theorem Plain.nested {a : Json} : Plain a → ∀ p ∈ a.fields, Plain p.2
  | .intro _ _ _ h => h

theorem field_unique {a : Json} (h : (a.fields.map Prod.fst).Nodup) {k : String} {v w : Json}
    (hv : (k, v) ∈ a.fields) (hw : (k, w) ∈ a.fields) : v = w := by
  rw [← lookup_eq_some_iff_mem h] at hv hw
  exact Option.some.inj (hv.symm.trans hw)

theorem deepEqual_refl_plain (a : Json) : Plain a → deepEqual a a = true := by
  refine Json.inductFields (fun a => Plain a → deepEqual a a = true) (fun a ih ha => ?_) a
  cases hc : isContainer a with
  | false => exact (deepEqual_of_scalar hc a).mpr rfl
  | true =>
    exact (deepEqual_iff_fields hc ha.names ha.nodup).mpr
      ⟨hc, rfl, fun p hp => ⟨p.2, hp, ih p hp (ha.nested p hp)⟩⟩

/-- Names of the first value that all occur in the second, as many of them, are all of its names. -/
theorem names_subset_of_subset {a b : Json} (ha : (a.fields.map Prod.fst).Nodup)
    (hlen : a.fields.length = b.fields.length)
    (hsub : ∀ p ∈ a.fields, p.1 ∈ b.fields.map Prod.fst) :
    ∀ p ∈ b.fields, p.1 ∈ a.fields.map Prod.fst := by
  have hsubset : a.fields.map Prod.fst ⊆ b.fields.map Prod.fst := by
    intro k hk
    obtain ⟨p, hp, rfl⟩ := List.mem_map.mp hk
    exact hsub p hp
  have hperm := (ha.subperm hsubset).perm_of_length_le (by simp [hlen])
  intro p hp
  exact hperm.mem_iff.mpr (List.mem_map.mpr ⟨p, hp, rfl⟩)

theorem deepEqual_symm_plain (a : Json) :
    ∀ b, Plain a → Plain b → deepEqual a b = true → deepEqual b a = true := by
  refine Json.inductFields (fun a => ∀ b, Plain a → Plain b → deepEqual a b = true →
    deepEqual b a = true) (fun a ih b ha hb h => ?_) a
  cases hc : isContainer a with
  | false =>
    obtain rfl := (deepEqual_of_scalar hc b).mp h
    exact h
  | true =>
    obtain ⟨hcb, hlen, hall⟩ := (deepEqual_iff_fields hc ha.names hb.nodup).mp h
    have hnames := names_subset_of_subset ha.nodup hlen fun p hp => by
      obtain ⟨w, hw, -⟩ := hall p hp
      exact List.mem_map.mpr ⟨_, hw, rfl⟩
    refine (deepEqual_iff_fields hcb hb.names ha.nodup).mpr ⟨hc, hlen.symm, fun q hq => ?_⟩
    obtain ⟨p, hp, hpq⟩ := List.mem_map.mp (hnames q hq)
    obtain ⟨w, hw, heq⟩ := hall p hp
    obtain rfl : w = q.2 := field_unique hb.nodup (hpq ▸ hw) hq
    exact ⟨p.2, hpq ▸ hp, ih p hp q.2 (ha.nested p hp) (hb.nested q hq) heq⟩

theorem deepEqual_trans_plain (a : Json) : ∀ b c, Plain a → Plain b → Plain c →
    deepEqual a b = true → deepEqual b c = true → deepEqual a c = true := by
  refine Json.inductFields (fun a => ∀ b c, Plain a → Plain b → Plain c →
    deepEqual a b = true → deepEqual b c = true → deepEqual a c = true)
    (fun a ih b c ha hb hc hab hbc => ?_) a
  cases hca : isContainer a with
  | false =>
    obtain rfl := (deepEqual_of_scalar hca b).mp hab
    exact hbc
  | true =>
    obtain ⟨hcb, hlen, hall⟩ := (deepEqual_iff_fields hca ha.names hb.nodup).mp hab
    obtain ⟨hcc, hlen', hall'⟩ := (deepEqual_iff_fields hcb hb.names hc.nodup).mp hbc
    refine (deepEqual_iff_fields hca ha.names hc.nodup).mpr
      ⟨hcc, hlen.trans hlen', fun p hp => ?_⟩
    obtain ⟨w, hw, hpw⟩ := hall p hp
    obtain ⟨z, hz, hwz⟩ := hall' _ hw
    exact ⟨z, hz, ih p hp w z (ha.nested p hp) (hb.nested _ hw) (hc.nested _ hz) hpw hwz⟩

/-- On plain values `deepEqual` is an equivalence. -/
theorem deepEqual_equivOn_plain : UpTo.EquivOn deepEqual isComparableElement {a | Plain a} where
  refl a ha := deepEqual_refl_plain a ha
  symm a ha b hb _ _ h := deepEqual_symm_plain a b ha hb h
  trans a ha b hb c hc _ _ _ h h' := deepEqual_trans_plain a b c ha hb hc h h'

end OidFed
