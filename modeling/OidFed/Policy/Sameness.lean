import OidFed.Policy.DeepEqual

/-!
# When `deepEqual` decides equality

* `Same`: the same JSON value, up to the order of the members of its objects. On parsed values it
  is an equivalence (`same_refl`, `Same.symm`, `Same.trans`).
* `Confused`: the names of the first value read the same from the second, though the two are not the
  same: an array is read as an object, or a name reads what an object inherits.
* `deepEqual_iff`: `deepEqual` holds of the same values and of the confused ones, and of no others.
* `deepEqual_decides`: it decides whether two values are the same but for the confused ones.
-/

namespace OidFed

open Js

/-! ## The same value -/

/-- The same value, up to the order of the members of objects at every depth. -/
inductive Same : Json → Json → Prop where
  | null : Same .null .null
  | bool (b : Bool) : Same (.bool b) (.bool b)
  | num (q : Rat) : Same (.num q) (.num q)
  | str (s : String) : Same (.str s) (.str s)
  | arr {l m : List Json} : l.length = m.length →
      (∀ (i : Nat) (v w : Json), l[i]? = some v → m[i]? = some w → Same v w) →
      Same (.arr l) (.arr m)
  | obj {l m : List (String × Json)} : (∀ k, k ∈ l.map Prod.fst ↔ k ∈ m.map Prod.fst) →
      (∀ k v w, (k, v) ∈ l → (k, w) ∈ m → Same v w) → Same (.obj l) (.obj m)

theorem Same.symm {a b : Json} (h : Same a b) : Same b a := by
  induction h with
  | null => exact .null
  | bool b => exact .bool b
  | num q => exact .num q
  | str s => exact .str s
  | arr hlen _ ih => exact .arr hlen.symm fun i v w hv hw => ih i w v hw hv
  | obj hnames _ ih => exact .obj (fun k => (hnames k).symm) fun k v w hv hw => ih k w v hw hv

theorem Same.trans {a b c : Json} (h : Same a b) (h' : Same b c) : Same a c := by
  induction h generalizing c with
  | null => exact h'
  | bool b => exact h'
  | num q => exact h'
  | str s => exact h'
  | @arr l m hlen _ ih =>
    cases h' with
    | arr hlen' hitems =>
      refine .arr (hlen.trans hlen') fun i v z hv hz => ?_
      have hi : i < m.length := by
        rw [← hlen]
        exact (List.getElem?_eq_some_iff.mp hv).1
      exact ih i v m[i] hv (List.getElem?_eq_getElem hi)
        (hitems i m[i] z (List.getElem?_eq_getElem hi) hz)
  | obj hnames _ ih =>
    cases h' with
    | obj hnames' hmembers =>
      refine .obj (fun k => (hnames k).trans (hnames' k)) fun k v z hv hz => ?_
      obtain ⟨p, hp, rfl⟩ := List.mem_map.mp ((hnames k).mp (List.mem_map.mpr ⟨_, hv, rfl⟩))
      exact ih p.1 v p.2 hv hp (hmembers p.1 p.2 z hp hz)

theorem same_refl (a : Json) : Parsed a → Same a a := by
  refine Json.inductFields (fun a => Parsed a → Same a a) (fun a ih ha => ?_) a
  have hnodup := ha.nodup
  have hnested := ha.nested
  cases a with
  | null => exact .null
  | bool b => exact .bool b
  | num q => exact .num q
  | str s => exact .str s
  | arr items =>
    refine .arr rfl fun i v w hv hw => ?_
    obtain rfl : v = w := Option.some.inj (hv.symm.trans hw)
    have hmem : (i.repr, v) ∈ (Json.arr items).fields := Json.mem_indexed.mpr ⟨i, hv, rfl⟩
    exact ih _ hmem (hnested _ hmem)
  | obj members =>
    refine .obj (fun k => Iff.rfl) fun k v w hv hw => ?_
    obtain rfl : v = w := field_unique hnodup hv hw
    exact ih (k, v) hv (hnested (k, v) hv)

theorem same_of_scalar {a b : Json} (ha : isContainer a = false) : Same a b ↔ b = a := by
  constructor
  · intro h
    cases h <;> simp_all [isContainer, Json.isArray, Json.isObject]
  · rintro rfl
    cases b with
    | null => exact .null
    | bool b => exact .bool b
    | num q => exact .num q
    | str s => exact .str s
    | arr _ => simp [isContainer, Json.isArray] at ha
    | obj _ => simp [isContainer, Json.isObject] at ha

/-- Arrays and objects are the same where they are of one kind and their fields are the same. -/
theorem same_iff_fields {a b : Json} (ha : isContainer a = true)
    (hna : (a.fields.map Prod.fst).Nodup) (hnb : (b.fields.map Prod.fst).Nodup) :
    Same a b ↔ isContainer b = true ∧ a.isArray = b.isArray ∧ a.fields.length = b.fields.length ∧
      ∀ p ∈ a.fields, ∃ w, (p.1, w) ∈ b.fields ∧ Same p.2 w := by
  constructor
  · intro h
    cases h with
    | @arr l m hlen hitems =>
      refine ⟨rfl, rfl, by simpa [Json.fields] using hlen, fun p hp => ?_⟩
      obtain ⟨i, hi, hk⟩ := Json.mem_indexed.mp hp
      have hlt : i < m.length := by
        rw [← hlen]
        exact (List.getElem?_eq_some_iff.mp hi).1
      have hm : m[i]? = some m[i] := List.getElem?_eq_getElem hlt
      exact ⟨m[i], Json.mem_indexed.mpr ⟨i, hm, hk⟩, hitems i _ _ hi hm⟩
    | @obj l m hnames hmembers =>
      have hperm := (List.perm_ext_iff_of_nodup hna hnb).mpr hnames
      refine ⟨rfl, rfl, by simpa using hperm.length_eq, fun p hp => ?_⟩
      obtain ⟨q, hq, hpq⟩ := List.mem_map.mp ((hnames p.1).mp (List.mem_map.mpr ⟨p, hp, rfl⟩))
      have hmem : (p.1, q.2) ∈ m := hpq ▸ hq
      exact ⟨q.2, hmem, hmembers p.1 p.2 q.2 hp hmem⟩
    | _ => simp [isContainer, Json.isArray, Json.isObject] at ha
  · rintro ⟨hb, hkind, hlen, hall⟩
    cases a with
    | arr l =>
      cases b with
      | arr m =>
        refine .arr (by simpa [Json.fields] using hlen) fun i v w hv hw => ?_
        obtain ⟨z, hz, hsame⟩ := hall (i.repr, v) (Json.mem_indexed.mpr ⟨i, hv, rfl⟩)
        obtain rfl : z = w := field_unique hnb hz (Json.mem_indexed.mpr ⟨i, hw, rfl⟩)
        exact hsame
      | _ => simp [isContainer, Json.isArray, Json.isObject] at hb hkind
    | obj l =>
      cases b with
      | obj m =>
        have hsub : ∀ p ∈ l, p.1 ∈ m.map Prod.fst := by
          intro p hp
          obtain ⟨w, hw, -⟩ := hall p hp
          exact List.mem_map.mpr ⟨_, hw, rfl⟩
        -- as many names on both sides, so the inclusion goes both ways
        have hsup := names_subset_of_subset hna hlen hsub
        refine .obj (fun k => ⟨fun hk => ?_, fun hk => ?_⟩) fun k v w hv hw => ?_
        · obtain ⟨p, hp, rfl⟩ := List.mem_map.mp hk
          exact hsub p hp
        · obtain ⟨p, hp, rfl⟩ := List.mem_map.mp hk
          exact hsup p hp
        · obtain ⟨z, hz, hsame⟩ := hall (k, v) hv
          obtain rfl : z = w := field_unique hnb hz hw
          exact hsame
      | _ => simp [isContainer, Json.isArray, Json.isObject] at hb hkind
    | _ => simp [isContainer, Json.isArray, Json.isObject] at ha

/-! ## Confused values -/

/-- What an array or object `b` reads at a name that none of its fields has, where a value `v` can
equal it: the number of the elements of an array, and the empty prototype. -/
def Inherits (b : Json) (k : String) (v : Json) : Prop :=
  k ∉ b.fields.map Prod.fst ∧
    (b.isArray = true ∧ k = "length" ∧ v = .num b.fields.length ∨
      k = "__proto__" ∧ isContainer v = true ∧ v.fields = [])

mutual

/-- Two arrays or objects that are read alike by the names of the first, where one is an array and
the other an object, or a name is read that the second inherits, or two fields are confused. -/
inductive Confused : Json → Json → Prop where
  | kinds {a b : Json} : ReadAlike a b → a.isArray ≠ b.isArray → Confused a b
  | inherited {a b : Json} {p : String × Json} : ReadAlike a b → p ∈ a.fields → Inherits b p.1 p.2 →
      Confused a b
  | nested {a b w : Json} {p : String × Json} : ReadAlike a b → p ∈ a.fields → (p.1, w) ∈ b.fields →
      Confused p.2 w → Confused a b

/-- Two arrays or objects of as many fields, where the second answers each name of the first. -/
inductive ReadAlike : Json → Json → Prop where
  | intro {a b : Json} : isContainer a = true → isContainer b = true →
      a.fields.length = b.fields.length → (∀ p ∈ a.fields, Answers b p.1 p.2) → ReadAlike a b

/-- A read of the name `k` gives what equals `v` though it may be another value. -/
inductive Answers : Json → String → Json → Prop where
  | inherited {b v : Json} {k : String} : Inherits b k v → Answers b k v
  | same {b v w : Json} {k : String} : (k, w) ∈ b.fields → Same v w → Answers b k v
  | confused {b v w : Json} {k : String} : (k, w) ∈ b.fields → Confused v w → Answers b k v

end

theorem answers_iff {b v : Json} {k : String} : Answers b k v ↔ Inherits b k v ∨
    ∃ w, (k, w) ∈ b.fields ∧ (Same v w ∨ Confused v w) := by
  constructor
  · rintro (h | ⟨hw, h⟩ | ⟨hw, h⟩)
    · exact .inl h
    · exact .inr ⟨_, hw, .inl h⟩
    · exact .inr ⟨_, hw, .inr h⟩
  · rintro (h | ⟨w, hw, h | h⟩)
    · exact .inherited h
    · exact .same hw h
    · exact .confused hw h

/-- What makes two values that read alike differ. -/
def Odd (a b : Json) : Prop :=
  a.isArray ≠ b.isArray ∨ (∃ p ∈ a.fields, Inherits b p.1 p.2) ∨
    ∃ p ∈ a.fields, ∃ w, (p.1, w) ∈ b.fields ∧ Confused p.2 w

theorem confused_iff {a b : Json} : Confused a b ↔ ReadAlike a b ∧ Odd a b := by
  constructor
  · rintro (⟨h, hkind⟩ | ⟨h, hp, hin⟩ | ⟨h, hp, hw, hnested⟩)
    · exact ⟨h, .inl hkind⟩
    · exact ⟨h, .inr (.inl ⟨_, hp, hin⟩)⟩
    · exact ⟨h, .inr (.inr ⟨_, hp, _, hw, hnested⟩)⟩
  · rintro ⟨h, hkind | ⟨p, hp, hin⟩ | ⟨p, hp, w, hw, hnested⟩⟩
    · exact .kinds h hkind
    · exact .inherited h hp hin
    · exact .nested h hp hw hnested

theorem isEmptyObject_iff {v : Json} :
    isEmptyObject v = true ↔ isContainer v = true ∧ v.fields = [] := by
  cases v <;> simp [isEmptyObject, isContainer, Json.isArray, Json.isObject]

theorem deepEqual_num_right {v : Json} {q : Rat} : deepEqual v (.num q) = true ↔ v = .num q := by
  cases v with
  | num r =>
    rw [deepEqual, beq_iff_eq]
    exact eq_comm
  | _ => simp [deepEqual, Json.isArray, Json.isObject]

theorem readArray_inherits {items : List Json} {k : String} {v : Json}
    (hk : k ∉ (Json.indexed items).map Prod.fst) :
    fieldEqual (fun w => deepEqual v w) v (readArray items k) = true ↔
      Inherits (.arr items) k v := by
  have hnone : (Json.indexed items).lookup k = none := by
    cases h : (Json.indexed items).lookup k with
    | none => rfl
    | some w =>
      have hmem := (lookup_eq_some_iff_mem (Json.indexed_nodup items) k w).mp h
      exact absurd (List.mem_map.mpr ⟨_, hmem, rfl⟩) hk
  unfold Inherits readArray
  rw [hnone]
  by_cases hl : k = "length"
  · subst hl
    change deepEqual v (.num items.length) = true ↔ _
    rw [deepEqual_num_right]
    constructor
    · exact fun h => ⟨hk, .inl ⟨rfl, rfl, by rw [h, Json.fields, Json.length_indexed]⟩⟩
    · rintro ⟨-, ⟨-, -, h⟩ | ⟨h, -, -⟩⟩
      · rwa [Json.fields, Json.length_indexed] at h
      · exact absurd h (by decide)
  · by_cases hp : k = "__proto__"
    · subst hp
      rw [if_neg hl, if_pos rfl, fieldEqual, isEmptyObject_iff]
      exact ⟨fun h => ⟨hk, .inr ⟨rfl, h⟩⟩, fun h => (h.2.resolve_left fun h' => hl h'.2.1).2⟩
    · rw [if_neg hl, if_neg hp]
      split_ifs <;> simp [fieldEqual, hl, hp]

theorem readMembers_inherits {members : List (String × Json)} {k : String} {v : Json}
    (hn : (members.map Prod.fst).Nodup) (hk : k ∉ members.map Prod.fst) :
    fieldEqual (fun w => deepEqual v w) v (readMembers members k) = true ↔
      Inherits (.obj members) k v := by
  have hnone : members.lookup k = none := by
    cases h : members.lookup k with
    | none => rfl
    | some w =>
      have hmem := (lookup_eq_some_iff_mem hn k w).mp h
      exact absurd (List.mem_map.mpr ⟨_, hmem, rfl⟩) hk
  unfold Inherits readMembers readOr
  rw [hnone]
  by_cases hp : k = "__proto__"
  · subst hp
    have hproto : objectPrototype.lookup "__proto__" = some .object := by decide
    rw [hproto]
    change isEmptyObject v = true ↔ _
    rw [isEmptyObject_iff]
    exact ⟨fun h => ⟨hk, .inr ⟨rfl, h⟩⟩, fun h => (h.2.resolve_left fun h' => nomatch h'.1).2⟩
  · cases ho : objectPrototype.lookup k with
    | none => simp [fieldEqual, hp, Json.isArray]
    | some r =>
      cases r with
      | function n => simp [fieldEqual, hp, Json.isArray]
      | object => exact absurd (name_of_object ho) hp

/-- What a read compares equal to is a field or inherited. -/
theorem readValue_iff {b : Json} (hcb : isContainer b = true)
    (hnb : (b.fields.map Prod.fst).Nodup) (k : String) (v : Json) :
    fieldEqual (fun w => deepEqual v w) v (readValue b k) = true ↔
      Inherits b k v ∨ ∃ w, (k, w) ∈ b.fields ∧ deepEqual v w = true := by
  by_cases hk : k ∈ b.fields.map Prod.fst
  · obtain ⟨p, hp, rfl⟩ := List.mem_map.mp hk
    rw [readValue_own hnb hp]
    constructor
    · exact fun h => .inr ⟨p.2, hp, h⟩
    · rintro (h | ⟨w, hw, h⟩)
      · exact absurd hk h.1
      · obtain rfl : p.2 = w := field_unique hnb hp hw
        exact h
  · have hno : ¬ ∃ w, (k, w) ∈ b.fields ∧ deepEqual v w = true :=
      fun ⟨w, hw, _⟩ => hk (List.mem_map.mpr ⟨_, hw, rfl⟩)
    rw [or_iff_left hno]
    cases b with
    | arr items => exact readArray_inherits hk
    | obj members => exact readMembers_inherits hnb hk
    | _ => simp [isContainer, Json.isArray, Json.isObject] at hcb

/-- The read of each field of the first value compares equal to the field. -/
def ReadsEqual (a b : Json) : Prop :=
  ∀ p ∈ a.fields, fieldEqual (fun w => deepEqual p.2 w) p.2 (readValue b p.1) = true

theorem deepEqualItems_iff_reads {b : Json} {items : List Json} {i : Nat} :
    deepEqualItems i items b = true ↔ ∀ (j : Nat) (v : Json), items[j]? = some v →
      fieldEqual (fun w => deepEqual v w) v (readValue b (i + j).repr) = true := by
  induction items generalizing i with
  | nil => simp [deepEqualItems]
  | cons v rest ih =>
    rw [deepEqualItems, Bool.and_eq_true, ih]
    constructor
    · rintro ⟨h0, h⟩ j x hx
      cases j with
      | zero =>
        obtain rfl : v = x := by simpa using hx
        exact h0
      | succ j =>
        rw [Nat.add_comm j 1, ← Nat.add_assoc]
        exact h j x (by simpa using hx)
    · intro h
      refine ⟨h 0 v rfl, fun j x hx => ?_⟩
      rw [Nat.add_assoc, Nat.add_comm 1 j]
      exact h (j + 1) x (by simpa using hx)

theorem deepEqualMembers_iff_reads {b : Json} {members : List (String × Json)} :
    deepEqualMembers members b = true ↔ ∀ p ∈ members,
      fieldEqual (fun w => deepEqual p.2 w) p.2 (readValue b p.1) = true := by
  induction members with
  | nil => simp [deepEqualMembers]
  | cons p rest ih =>
    obtain ⟨k, v⟩ := p
    rw [deepEqualMembers, Bool.and_eq_true, ih, List.forall_mem_cons]

theorem deepEqual_iff_reads {a b : Json} (ha : isContainer a = true) :
    deepEqual a b = true ↔ isContainer b = true ∧ a.fields.length = b.fields.length ∧
      ReadsEqual a b := by
  cases a with
  | arr items =>
    have hitems : deepEqualItems 0 items b = true ↔ ReadsEqual (.arr items) b := by
      rw [deepEqualItems_iff_reads]
      constructor
      · intro h p hp
        obtain ⟨i, hi, hk⟩ := Json.mem_indexed.mp hp
        rw [hk]
        simpa using h i p.2 hi
      · intro h j v hj
        simpa using h (j.repr, v) (Json.mem_indexed.mpr ⟨j, hj, rfl⟩)
    rw [deepEqual, Bool.and_eq_true, Bool.and_eq_true, hitems, and_assoc]
    simp [isContainer, Json.fields]
  | obj members =>
    have hmembers : deepEqualMembers members b = true ↔ ReadsEqual (.obj members) b :=
      deepEqualMembers_iff_reads
    rw [deepEqual, Bool.and_eq_true, Bool.and_eq_true, hmembers, and_assoc]
    simp [isContainer, Json.fields]
  | _ => simp [isContainer, Json.isArray, Json.isObject] at ha

/-- `deepEqual` holds of the same values and of the confused ones. -/
theorem deepEqual_iff (a : Json) : ∀ b, Parsed a → Parsed b →
    (deepEqual a b = true ↔ Same a b ∨ Confused a b) := by
  refine Json.inductFields (fun a => ∀ b, Parsed a → Parsed b →
    (deepEqual a b = true ↔ Same a b ∨ Confused a b)) (fun a ih b ha hb => ?_) a
  cases hca : isContainer a with
  | false =>
    have hnot : ¬ Confused a b := by
      intro h
      obtain ⟨⟨hcontainer, -, -, -⟩, -⟩ := confused_iff.mp h
      simp [hca] at hcontainer
    rw [deepEqual_of_scalar hca, same_of_scalar hca, or_iff_left hnot]
  | true =>
    -- The fields of `a` against the reads of `b`, by what is known of smaller values.
    have hfield : isContainer b = true → ∀ p ∈ a.fields,
        (fieldEqual (fun w => deepEqual p.2 w) p.2 (readValue b p.1) = true ↔
          Answers b p.1 p.2) := by
      intro hcb p hp
      rw [readValue_iff hcb hb.nodup, answers_iff]
      refine or_congr_right (exists_congr fun w => and_congr_right fun hw => ?_)
      exact ih p hp w (ha.nested p hp) (hb.nested _ hw)
    rw [deepEqual_iff_reads hca]
    constructor
    · rintro ⟨hcb, hlen, hreads⟩
      have hall := fun p hp => (hfield hcb p hp).mp (hreads p hp)
      by_cases hodd : Odd a b
      · exact .inr (confused_iff.mpr ⟨.intro hca hcb hlen hall, hodd⟩)
      · rw [Odd, not_or, not_or, not_not] at hodd
        obtain ⟨hkind, hinherits, hnested⟩ := hodd
        refine .inl ((same_iff_fields hca ha.nodup hb.nodup).mpr ⟨hcb, hkind, hlen, fun p hp => ?_⟩)
        rcases answers_iff.mp (hall p hp) with h | ⟨w, hw, h | h⟩
        · exact absurd ⟨p, hp, h⟩ hinherits
        · exact ⟨w, hw, h⟩
        · exact absurd ⟨p, hp, w, hw, h⟩ hnested
    · rintro (h | h)
      · obtain ⟨hcb, -, hlen, hall⟩ := (same_iff_fields hca ha.nodup hb.nodup).mp h
        refine ⟨hcb, hlen, fun p hp => (hfield hcb p hp).mpr ?_⟩
        obtain ⟨w, hw, hsame⟩ := hall p hp
        exact .same hw hsame
      · obtain ⟨⟨-, hcb, hlen, hall⟩, -⟩ := confused_iff.mp h
        exact ⟨hcb, hlen, fun p hp => (hfield hcb p hp).mpr (hall p hp)⟩

/-- Confused values are not the same. -/
theorem Same.not_confused (a : Json) : ∀ b, Parsed a → Parsed b → Same a b → ¬ Confused a b := by
  refine Json.inductFields (fun a => ∀ b, Parsed a → Parsed b → Same a b → ¬ Confused a b)
    (fun a ih b ha hb hsame hconfused => ?_) a
  obtain ⟨⟨hca, -, -, -⟩, hodd⟩ := confused_iff.mp hconfused
  obtain ⟨-, hkind, -, hall⟩ := (same_iff_fields hca ha.nodup hb.nodup).mp hsame
  rcases hodd with h | ⟨p, hp, h⟩ | ⟨p, hp, w, hw, h⟩
  · exact h hkind
  · obtain ⟨w, hw, -⟩ := hall p hp
    exact h.1 (List.mem_map.mpr ⟨_, hw, rfl⟩)
  · obtain ⟨z, hz, hz'⟩ := hall p hp
    obtain rfl : w = z := field_unique hb.nodup hw hz
    exact ih p hp w (ha.nested p hp) (hb.nested _ hw) hz' h

/-! ## Equality -/

theorem parsed_arr_nil : Parsed (.arr []) :=
  .intro _ (by simp [Json.fields, Json.indexed]) (by simp [Json.fields, Json.indexed])

theorem parsed_obj_nil : Parsed (.obj []) :=
  .intro _ (by simp [Json.fields]) (by simp [Json.fields])

/-- On parsed values, `deepEqual` decides whether two of them are the same, but for the confused ones; so
it is an equivalence where no two are confused. -/
theorem deepEqual_decides (values : Set Json) (hparsed : ∀ a ∈ values, Parsed a) :
    (∀ a ∈ values, ∀ b ∈ values, (deepEqual a b = true ↔ Same a b) ↔ ¬ Confused a b) ∧
      ((∀ a ∈ values, ∀ b ∈ values, ¬ Confused a b) →
        Equivalence fun a b : values => deepEqual a b = true) := by
  have hdecides : ∀ a ∈ values, ∀ b ∈ values,
      (deepEqual a b = true ↔ Same a b) ↔ ¬ Confused a b := by
    intro a ha b hb
    rw [deepEqual_iff a b (hparsed a ha) (hparsed b hb)]
    constructor
    · intro h hconfused
      exact Same.not_confused a b (hparsed a ha) (hparsed b hb) (h.mp (.inr hconfused)) hconfused
    · exact fun h => or_iff_left h
  refine ⟨hdecides, fun hclear => ?_⟩
  have hsame : ∀ a b : values, deepEqual a b = true ↔ Same a b := fun a b =>
    (hdecides a a.2 b b.2).mpr (hclear a a.2 b b.2)
  refine ⟨fun a => ?_, fun {a b} h => ?_, fun {a b c} h h' => ?_⟩
  · exact (hsame a a).mpr (same_refl a (hparsed a a.2))
  · exact (hsame b a).mpr ((hsame a b).mp h).symm
  · exact (hsame a c).mpr (((hsame a b).mp h).trans ((hsame b c).mp h'))

theorem Parsed.of_scalar {a : Json} (ha : a.fields = []) : Parsed a :=
  .intro _ (by simp [ha]) (by simp [ha])

/-- A key with a certificate chain. -/
def storedKey : Json :=
  .obj [("kid", .str "a"), ("x5c", .arr [.str "p", .obj [("n", .num 1), ("e", .num 2)]])]

/-- The same key with its members, and those of a certificate, in another order. -/
def reorderedKey : Json :=
  .obj [("x5c", .arr [.str "p", .obj [("e", .num 2), ("n", .num 1)]]), ("kid", .str "a")]

/-- The values of a list under distinct names. -/
theorem forall_fields_cons {P : Json → Prop} {k : String} {v : Json} {l : List (String × Json)}
    (hv : P v) (hl : ∀ p ∈ l, P p.2) : ∀ p ∈ (k, v) :: l, P p.2 :=
  List.forall_mem_cons.mpr ⟨hv, hl⟩

theorem parsed_storedKey : Parsed storedKey :=
  have hcertificate : Parsed (.obj [("n", .num 1), ("e", .num 2)]) :=
    .intro _ (by decide) (forall_fields_cons (.of_scalar rfl) (forall_fields_cons (.of_scalar rfl) nofun))
  have hchain : Parsed (.arr [.str "p", .obj [("n", .num 1), ("e", .num 2)]]) :=
    .intro _ (by decide) (forall_fields_cons (.of_scalar rfl) (forall_fields_cons hcertificate nofun))
  .intro _ (by decide) (forall_fields_cons (.of_scalar rfl) (forall_fields_cons hchain nofun))

theorem parsed_reorderedKey : Parsed reorderedKey :=
  have hcertificate : Parsed (.obj [("e", .num 2), ("n", .num 1)]) :=
    .intro _ (by decide) (forall_fields_cons (.of_scalar rfl) (forall_fields_cons (.of_scalar rfl) nofun))
  have hchain : Parsed (.arr [.str "p", .obj [("e", .num 2), ("n", .num 1)]]) :=
    .intro _ (by decide) (forall_fields_cons (.of_scalar rfl) (forall_fields_cons hcertificate nofun))
  .intro _ (by decide) (forall_fields_cons hchain (forall_fields_cons (.of_scalar rfl) nofun))

/-- Two nested values whose members stand in another order. -/
theorem deepEqual_decides_reordered :
    storedKey ≠ reorderedKey ∧ deepEqual storedKey reorderedKey = true ∧
      ((deepEqual storedKey reorderedKey = true ↔ Same storedKey reorderedKey) ↔
        ¬ Confused storedKey reorderedKey) :=
  ⟨by decide, by decide, (deepEqual_decides {storedKey, reorderedKey} (by
    rintro a (rfl | rfl)
    · exact parsed_storedKey
    · exact parsed_reorderedKey)).1 _ (.inl rfl) _ (.inr rfl)⟩

/-- An array equals an object. -/
theorem deepEqual_arr_obj : deepEqual (.arr []) (.obj []) = true ∧ ¬ Same (.arr []) (.obj []) ∧
    ¬ ∀ a b, Parsed a → Parsed b → (deepEqual a b = true ↔ Same a b) := by
  have hequal : deepEqual (.arr []) (.obj []) = true := by decide
  have hnot : ¬ Same (.arr []) (.obj []) := nofun
  exact ⟨hequal, hnot, fun h => hnot ((h _ _ parsed_arr_nil parsed_obj_nil).mp hequal)⟩

end OidFed
