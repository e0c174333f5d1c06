import OidFed.Js.Value
import OidFed.Policy.Sameness
import OidFed.Storage.Canonical

/-!
# What the texts of records compare (`authority/src/subordinate-lifecycle.ts`)

`canonical` and `publicKeys` over values as a program builds them, with members that may be
undefined.

* `SameValue`: the same value up to the order of members and up to undefined members, at every
  depth. `SameKeys`: lists of such values up to the order of the list too.
* `canonicalText_defined`: undefined members leave no trace in a text.
* `canonical_publicKeys_iff`: two texts are equal exactly when the values or the keys are the same.
-/

namespace OidFed

open Js PrefixCode

/-! ## Normal forms tell the same values -/

theorem isArray_normal (v : Json) : (normal v).isArray = v.isArray := by
  cases v <;> simp [normal, Json.isArray]

theorem isObject_normal (v : Json) : (normal v).isObject = v.isObject := by
  cases v <;> simp [normal, Json.isObject]

theorem isSome_lookup_iff {α : Type} {l : List (String × α)} {k : String} :
    (l.lookup k).isSome = true ↔ k ∈ l.map Prod.fst := by
  induction l with
  | nil => simp
  | cons p l ih =>
    rw [List.lookup_cons, List.map_cons, List.mem_cons, ← ih]
    cases hk : k == p.1 with
    | true => simp [beq_iff_eq.mp hk]
    | false => simp [beq_eq_false_iff_ne.mp hk]

/-- Parsed values have one normal form exactly when they are the same. -/
theorem normal_eq_iff_same (a : Json) :
    ∀ b, Parsed a → Parsed b → (normal a = normal b ↔ Same a b) := by
  refine Json.inductFields (fun a => ∀ b, Parsed a → Parsed b → (normal a = normal b ↔ Same a b))
    (fun a ih b ha hb => ?_) a
  cases a with
  | arr l =>
    cases b with
    | arr m =>
      rw [normal, normal, Json.arr.injEq, normalItems_eq, normalItems_eq]
      -- the hypothesis of the induction, item by item
      have hitem : ∀ (i : Nat) (v w : Json), l[i]? = some v → m[i]? = some w →
          (normal v = normal w ↔ Same v w) := by
        intro i v w hv hw
        have hmem : (i.repr, v) ∈ (Json.arr l).fields := Json.mem_indexed.mpr ⟨i, hv, rfl⟩
        have hmem' : (i.repr, w) ∈ (Json.arr m).fields := Json.mem_indexed.mpr ⟨i, hw, rfl⟩
        exact ih _ hmem w (ha.nested _ hmem) (hb.nested _ hmem')
      constructor
      · intro h
        have hlen : l.length = m.length := by
          simpa using congrArg List.length h
        refine .arr hlen fun i v w hv hw => (hitem i v w hv hw).mp ?_
        have hi := congrArg (fun l => l[i]?) h
        simpa [hv, hw] using hi
      · intro h
        obtain ⟨hlen, hall⟩ : l.length = m.length ∧ ∀ (i : Nat) (v w : Json), l[i]? = some v →
            m[i]? = some w → Same v w := by
          cases h with
          | arr hlen hall => exact ⟨hlen, hall⟩
        refine List.ext_getElem (by simpa using hlen) fun i hi hi' => ?_
        rw [List.length_map] at hi hi'
        have hv : l[i]? = some l[i] := List.getElem?_eq_getElem hi
        have hw : m[i]? = some m[i] := List.getElem?_eq_getElem hi'
        rw [List.getElem_map, List.getElem_map]
        exact (hitem i _ _ hv hw).mpr (hall i _ _ hv hw)
    | _ =>
      constructor
      · intro h
        have := congrArg Json.isArray h
        rw [isArray_normal, isArray_normal] at this
        simp [Json.isArray] at this
      · intro h
        cases h
  | obj l =>
    cases b with
    | obj m =>
      have hal : (l.map Prod.fst).Nodup := ha.nodup
      have hbm : (m.map Prod.fst).Nodup := hb.nodup
      -- the members are sorted in the normal form, so they are compared by name
      have hmember : ∀ k v w, (k, v) ∈ l → (k, w) ∈ m → (normal v = normal w ↔ Same v w) :=
        fun k v w hv hw => ih (k, v) hv w (ha.nested _ hv) (hb.nested _ hw)
      rw [normal_obj_eq_iff hal hbm]
      constructor
      · intro h
        refine .obj (fun k => ?_) fun k v w hv hw => (hmember k v w hv hw).mp ?_
        · rw [← isSome_lookup_iff, ← isSome_lookup_iff, ← Option.isSome_map, h k, Option.isSome_map]
        · have hk := h k
          rw [(lookup_eq_some_iff_mem hal k v).mpr hv, (lookup_eq_some_iff_mem hbm k w).mpr hw] at hk
          exact Option.some.inj hk
      · intro h k
        obtain ⟨hnames, hall⟩ : (∀ k, k ∈ l.map Prod.fst ↔ k ∈ m.map Prod.fst) ∧
            ∀ k v w, (k, v) ∈ l → (k, w) ∈ m → Same v w := by
          cases h with
          | obj hnames hall => exact ⟨hnames, hall⟩
        have hsome := hnames k
        rw [← isSome_lookup_iff, ← isSome_lookup_iff] at hsome
        cases hv : l.lookup k with
        | none =>
          cases hw : m.lookup k with
          | none => rfl
          | some w => simp [hv, hw] at hsome
        | some v =>
          cases hw : m.lookup k with
          | none => simp [hv, hw] at hsome
          | some w =>
            have hv' := (lookup_eq_some_iff_mem hal k v).mp hv
            have hw' := (lookup_eq_some_iff_mem hbm k w).mp hw
            rw [Option.map_some, Option.map_some, (hmember k v w hv' hw').mpr (hall k v w hv' hw')]
    | _ =>
      constructor
      · intro h
        have hobj := congrArg Json.isObject h
        rw [isObject_normal, isObject_normal] at hobj
        simp [Json.isObject] at hobj
      · intro h
        cases h
  | _ =>
    rw [same_of_scalar rfl]
    cases b <;> simp [normal, eq_comm]

/-! ## The texts -/

section Texts

variable (numberText : Rat → String)

mutual

/-- `canonical(value)`. -/
def valueText : Value → List Char
  | .arr items => '[' :: separated ',' (valueTexts items) ++ [']']
  | .obj members =>
    '\x7b' :: separated ',' (((memberTexts members).mergeSort nameLe).map fun p =>
      quote p.1 ++ ':' :: p.2) ++ ['\x7d']
  | .null => jsonText numberText .null
  | .bool b => jsonText numberText (.bool b)
  | .num q => jsonText numberText (.num q)
  | .str s => jsonText numberText (.str s)

def valueTexts : List Value → List (List Char)
  | [] => []
  | v :: rest => valueText v :: valueTexts rest

/-- The members that are not undefined. -/
def memberTexts : List (String × Option Value) → List (String × List Char)
  | [] => []
  | (_, none) :: rest => memberTexts rest
  | (k, some v) :: rest => (k, valueText v) :: memberTexts rest

end

/-- `canonical(value)`, of a value that may be `undefined`. -/
def canonicalRead : Option Value → List Char
  | some v => valueText numberText v
  | none => "undefined".toList

/-- A key without its private members. -/
def stripPrivateMembers (key : Value) : Except StorageError Value :=
  match key with
  | .null => .error (.typeError "Cannot read properties of null (reading 'kty')")
  | .obj members =>
    match members.lookup "kty" with
    | some (some (.str "oct")) =>
      .error (.typeError ("Cannot extract public fields from a symmetric key (kty \"oct\"): " ++
        "the entire key value is private"))
    | _ => .ok (.obj (members.filter fun p => jwkPublicFields.contains p.1))
  -- The index names of a text or an array are not names of public fields.
  | _ => .ok (.obj [])

/-- The keys of a key set, without their private members. -/
def publicValuesOf (jwks : Value) : Except StorageError (List Value) :=
  match jwks with
  | .obj members =>
    match members.lookup "keys" with
    | some (some (.arr keys)) => keys.mapM stripPrivateMembers
    | _ => .error (.typeError "record.jwks.keys.map is not a function")
  | _ => .error (.typeError "record.jwks.keys.map is not a function")

/-- `publicKeys(record)`, by the key set of the record. -/
def publicKeysText (jwks : Value) : Except StorageError (List Char) :=
  (publicValuesOf jwks).map fun keys =>
    valueText numberText (.arr (((keys.map fun key =>
      String.ofList (valueText numberText key)).mergeSort textLe).map .str))

end Texts

/-- The same value up to the order of members and up to undefined members. -/
def SameValue (a b : Value) : Prop := Same a.defined b.defined

/-- The same values, each as often, in any order. -/
def SameKeys (keys keys' : List Value) : Prop :=
  ∃ l, l.Perm keys' ∧ List.Forall₂ SameValue keys l

/-! ## Undefined members -/

section Defined

variable (numberText : Rat → String)

mutual

/-- Undefined members leave no trace in a text. -/
theorem valueText_eq : ∀ v : Value,
    valueText numberText v = canonicalText numberText v.defined
  | .null => by rw [valueText, Value.defined, canonicalText] <;> simp
  | .bool _ => by rw [valueText, Value.defined, canonicalText] <;> simp
  | .num _ => by rw [valueText, Value.defined, canonicalText] <;> simp
  | .str _ => by rw [valueText, Value.defined, canonicalText] <;> simp
  | .arr items => by rw [valueText, Value.defined, canonicalText, valueTexts_eq items]
  | .obj members => by rw [valueText, Value.defined, canonicalText, memberTexts_eq members]

theorem valueTexts_eq : ∀ items : List Value,
    valueTexts numberText items = canonicalItems numberText (Value.definedItems items)
  | [] => rfl
  | v :: rest => by
    rw [valueTexts, Value.definedItems, canonicalItems, valueText_eq v, valueTexts_eq rest]

theorem memberTexts_eq : ∀ members : List (String × Option Value),
    memberTexts numberText members = canonicalMembers numberText (Value.definedMembers members)
  | [] => rfl
  | (_, none) :: rest => by rw [memberTexts, Value.definedMembers, memberTexts_eq rest]
  | (k, some v) :: rest => by
    rw [memberTexts, Value.definedMembers, canonicalMembers, valueText_eq v, memberTexts_eq rest]

end

end Defined

theorem parsed_defined {v : Value} (h : v.Distinct) : Parsed v.defined := by
  induction h with
  | intro v nodup nested ih =>
    cases v with
    | arr items =>
      refine .intro _ (Json.indexed_nodup _) fun p hp => ?_
      obtain ⟨i, hi, -⟩ := Json.mem_indexed.mp hp
      rw [Value.definedItems_eq, List.getElem?_map] at hi
      obtain ⟨w, hw, hdefined⟩ := Option.map_eq_some_iff.mp hi
      rw [← hdefined]
      exact ih w (List.mem_of_getElem? hw)
    | obj members =>
      refine .intro _ (nodup.sublist (Value.definedMembers_names members)) fun p hp => ?_
      have hmem : p ∈ Value.definedMembers members := hp
      rw [Value.definedMembers_eq] at hmem
      obtain ⟨q, hq, hpq⟩ := List.mem_filterMap.mp hmem
      obtain ⟨w, hw, rfl⟩ := Option.map_eq_some_iff.mp hpq
      exact ih w (List.mem_filterMap.mpr ⟨q, hq, hw⟩)
    | _ => exact .intro _ (by simp [Value.defined, Json.fields]) (by simp [Value.defined, Json.fields])

theorem defined_eq_str {v : Value} {s : String} : v.defined = .str s ↔ v = .str s := by
  cases v <;> simp [Value.defined]

/-- An index name is not the name of a public field. -/
theorem filter_indexed {α : Type} (l : List α) :
    (Json.indexed l).filter (fun p => jwkPublicFields.contains p.1) = [] := by
  rw [List.filter_eq_nil_iff]
  intro p hp
  obtain ⟨i, -, hi⟩ := Json.mem_indexed.mp hp
  rw [hi]
  have hletter : ∀ name ∈ jwkPublicFields, name.toList.head?.any Char.isDigit = false := by decide
  intro hmem
  have hname := hletter _ (List.contains_iff_mem.mp hmem)
  obtain ⟨c, rest, hlist⟩ := List.exists_cons_of_ne_nil (Nat.toDigits_ne_nil (n := i) (b := 10))
  have hdigit : c.isDigit = true :=
    Nat.isDigit_of_mem_toDigits (by decide) (by decide) (hlist ▸ List.mem_cons_self)
  rw [Nat.toList_repr, hlist] at hname
  simp [hdigit] at hname

theorem definedMembers_filter (members : List (String × Option Value)) (keep : String → Bool) :
    Value.definedMembers (members.filter fun p => keep p.1) =
      (Value.definedMembers members).filter fun p => keep p.1 := by
  induction members with
  | nil => rfl
  | cons p rest ih =>
    obtain ⟨k, value⟩ := p
    rw [List.filter_cons]
    by_cases hk : keep k = true
    · rw [if_pos hk]
      cases value with
      | none => rw [Value.definedMembers, Value.definedMembers, ih]
      | some v => rw [Value.definedMembers, Value.definedMembers, ih, List.filter_cons, if_pos hk]
    · rw [if_neg hk, ih]
      cases value with
      | none => rw [Value.definedMembers]
      | some v => rw [Value.definedMembers, List.filter_cons, if_neg hk]

/-- Undefined members do not matter for what is stripped. -/
theorem stripPrivateFields_defined {key : Value} (h : key.Distinct) :
    stripPrivateFields key.defined = (stripPrivateMembers key).map Value.defined := by
  cases key with
  | null => rfl
  | bool b => rfl
  | num q => rfl
  | str s =>
    have hentries : (Json.entries (.str s)).getD [] =
        Json.indexed (s.toList.map fun c => .str (String.singleton c)) := rfl
    rw [Value.defined, stripPrivateFields, if_neg (by simp [Json.isNull]),
      if_neg (by simp [Json.get?]), hentries, filter_indexed]
    rfl
  | arr items =>
    have hentries : (Json.entries (.arr (Value.definedItems items))).getD [] =
        Json.indexed (Value.definedItems items) := rfl
    rw [Value.defined, stripPrivateFields, if_neg (by simp [Json.isNull]),
      if_neg (by simp [Json.get?]), hentries, filter_indexed]
    rfl
  | obj members =>
    have hkty : (Value.definedMembers members).lookup "kty" = some (.str "oct") ↔
        members.lookup "kty" = some (some (.str "oct")) := by
      rw [Value.lookup_definedMembers h.nodup, Option.map_eq_some_iff]
      simp only [defined_eq_str, exists_eq_right, Option.join_eq_some_iff]
    have hentries : (Json.entries (.obj (Value.definedMembers members))).getD [] =
        Value.definedMembers members := rfl
    rw [Value.defined, stripPrivateFields, if_neg (by simp [Json.isNull]), Json.get?_obj, hentries]
    by_cases hoct : members.lookup "kty" = some (some (.str "oct"))
    · rw [if_pos (hkty.mpr hoct), stripPrivateMembers, hoct]
      rfl
    · have hkept : stripPrivateMembers (.obj members) =
          .ok (.obj (members.filter fun p => jwkPublicFields.contains p.1)) := by
        rw [stripPrivateMembers]
        split
        · rename_i h'
          exact absurd h' hoct
        · rfl
      rw [if_neg fun hdefined => hoct (hkty.mp hdefined), hkept, Except.map, Value.defined,
        definedMembers_filter]

/-- What is stripped has distinct names as well. -/
theorem distinct_of_strip {key stripped : Value} (h : key.Distinct)
    (hstrip : stripPrivateMembers key = .ok stripped) : stripped.Distinct := by
  have hempty : (Value.obj []).Distinct := .intro _ .nil (by simp [Value.children])
  cases key with
  | null => cases hstrip
  | obj members =>
    rw [stripPrivateMembers] at hstrip
    split at hstrip
    · cases hstrip
    · obtain rfl := Except.ok.inj hstrip
      refine .intro _ (h.nodup.sublist (List.filter_sublist.map Prod.fst)) fun w hw => ?_
      obtain ⟨p, hp, hpw⟩ := List.mem_filterMap.mp hw
      exact h.nested w (List.mem_filterMap.mpr ⟨p, List.mem_of_mem_filter hp, hpw⟩)
  | _ =>
    obtain rfl := Except.ok.inj hstrip
    exact hempty

theorem mapM_stripPrivateFields {keys : List Value} (h : ∀ key ∈ keys, key.Distinct) :
    (keys.map Value.defined).mapM stripPrivateFields =
      (keys.mapM stripPrivateMembers).map (List.map Value.defined) := by
  induction keys with
  | nil => rfl
  | cons key keys ih =>
    rw [List.forall_mem_cons] at h
    rw [List.map_cons, List.mapM_cons, List.mapM_cons, stripPrivateFields_defined h.1, ih h.2]
    cases stripPrivateMembers key with
    | error e => rfl
    | ok stripped => cases keys.mapM stripPrivateMembers <;> rfl

theorem distinct_of_mapM {keys stripped : List Value} (h : ∀ key ∈ keys, key.Distinct)
    (hstrip : keys.mapM stripPrivateMembers = .ok stripped) : ∀ key ∈ stripped, key.Distinct := by
  induction keys generalizing stripped with
  | nil =>
    obtain rfl := Except.ok.inj hstrip
    simp
  | cons key keys ih =>
    rw [List.forall_mem_cons] at h
    rw [List.mapM_cons] at hstrip
    cases hkey : stripPrivateMembers key with
    | error e => simp [hkey, bind, Except.bind] at hstrip
    | ok first =>
      cases hkeys : keys.mapM stripPrivateMembers with
      | error e => simp [hkey, hkeys, bind, Except.bind] at hstrip
      | ok rest =>
        simp only [hkey, hkeys, bind, Except.bind, pure, Except.pure, Except.ok.injEq] at hstrip
        rw [← hstrip, List.forall_mem_cons]
        exact ⟨distinct_of_strip h.1 hkey, ih h.2 hkeys⟩

/-- The keys of a key set by what is defined in it. -/
theorem publicKeysOf_defined {jwks : Value} (h : jwks.Distinct) :
    publicKeysOf jwks.defined = (publicValuesOf jwks).map (List.map Value.defined) := by
  cases jwks with
  | obj members =>
    have hkeys := Value.lookup_definedMembers h.nodup "keys"
    rw [Value.defined, publicKeysOf, publicValuesOf, Json.get?_obj, hkeys]
    cases hread : members.lookup "keys" with
    | none => rfl
    | some value =>
      cases value with
      | none => rfl
      | some v =>
        cases v with
        | arr keys =>
          have hmem : .arr keys ∈ (Value.obj members).children :=
            List.mem_filterMap.mpr
              ⟨("keys", some (.arr keys)), (lookup_eq_some_iff_mem h.nodup _ _).mp hread, rfl⟩
          have hdistinct : ∀ key ∈ keys, key.Distinct := (h.nested _ hmem).nested
          simp only [Option.join_some, Option.map_some, Value.defined, Value.definedItems_eq]
          exact mapM_stripPrivateFields hdistinct
        | _ => rfl
  | _ => rfl

theorem publicValuesOf_distinct {jwks : Value} (h : jwks.Distinct) {keys : List Value}
    (hkeys : publicValuesOf jwks = .ok keys) : ∀ key ∈ keys, key.Distinct := by
  cases jwks with
  | obj members =>
    rw [publicValuesOf] at hkeys
    split at hkeys
    · rename_i items hread
      have hmem : .arr items ∈ (Value.obj members).children :=
        List.mem_filterMap.mpr
          ⟨("keys", some (.arr items)), (lookup_eq_some_iff_mem h.nodup _ _).mp hread, rfl⟩
      exact distinct_of_mapM (h.nested _ hmem).nested hkeys
    · cases hkeys
  | _ => cases hkeys

/-! ## What the texts tell -/

section Compare

variable {numberText : Rat → String}

theorem normal_defined_iff {a b : Value} (ha : a.Distinct) (hb : b.Distinct) :
    normal a.defined = normal b.defined ↔ SameValue a b :=
  normal_eq_iff_same a.defined b.defined (parsed_defined ha) (parsed_defined hb)

/-- Normal forms that are the same, each as often, are those of the same keys. -/
theorem perm_normal_iff {keys keys' : List Value} (h : ∀ key ∈ keys, key.Distinct)
    (h' : ∀ key ∈ keys', key.Distinct) :
    ((keys.map Value.defined).map normal).Perm ((keys'.map Value.defined).map normal) ↔
      SameKeys keys keys' := by
  rw [List.map_map, List.map_map]
  constructor
  · intro hperm
    have hcomp := congrFun₂ (List.eq_map_comp_perm (normal ∘ Value.defined))
      (keys.map (normal ∘ Value.defined)) keys'
    obtain ⟨l, hmap, hl⟩ := hcomp.mpr hperm
    refine ⟨l, hl, List.forall₂_iff_get.mpr ⟨by simpa using congrArg List.length hmap, ?_⟩⟩
    intro i hi hi'
    have hdistinct := h _ (keys.get_mem ⟨i, hi⟩)
    have hdistinct' := h' _ (hl.subset (l.get_mem ⟨i, hi'⟩))
    refine (normal_defined_iff hdistinct hdistinct').mp ?_
    have hget := congrArg (fun l => l[i]?) hmap
    simpa [hi, hi'] using hget
  · rintro ⟨l, hl, hsame⟩
    have hmap : keys.map (normal ∘ Value.defined) = l.map (normal ∘ Value.defined) := by
      have hall : ∀ key ∈ l, key.Distinct := fun key hkey => h' key (hl.subset hkey)
      clear hl
      induction hsame with
      | nil => rfl
      | cons hfirst _ ih =>
        rw [List.forall_mem_cons] at h hall
        rw [List.map_cons, List.map_cons, ih h.2 hall.2]
        congr 1
        exact (normal_defined_iff h.1 hall.1).mpr hfirst
    rw [hmap]
    exact hl.map _

theorem canonicalRead_eq (v : Option Value) :
    canonicalRead numberText v = canonical numberText (v.map Value.defined) := by
  cases v with
  | none => rfl
  | some v => exact valueText_eq numberText v

/-- The text of the keys of a key set, by what is defined in them. -/
theorem publicKeysText_eq (jwks : Value) :
    publicKeysText numberText jwks = (publicValuesOf jwks).map fun keys =>
      canonicalText numberText (.arr ((((keys.map Value.defined).map fun key =>
        String.ofList (canonicalText numberText key)).mergeSort textLe).map .str)) := by
  have hstr : ∀ l : List String,
      (Value.arr (l.map .str)).defined = .arr (l.map .str) := by
    intro l
    rw [Value.defined, Value.definedItems_eq, List.map_map]
    rfl
  have hkeys : ∀ keys : List Value, (keys.map fun key => String.ofList (valueText numberText key)) =
      (keys.map Value.defined).map fun key => String.ofList (canonicalText numberText key) := by
    intro keys
    rw [List.map_map]
    exact List.map_congr_left fun key _ => by rw [valueText_eq, Function.comp_apply]
  rw [publicKeysText]
  congr 1
  funext keys
  rw [valueText_eq, hstr, hkeys]

/-- For a record without undefined members it is the text of the record's keys. -/
theorem publicKeysText_eq_publicKeys {jwks : Value} (h : jwks.Distinct) {record : SubordinateRecord}
    (hrecord : record.jwks = jwks.defined) :
    publicKeysText numberText jwks = publicKeys numberText record := by
  rw [publicKeysText_eq, publicKeys, hrecord, publicKeysOf_defined h]
  cases publicValuesOf jwks <;> rfl

/-- The texts of two values are equal exactly if the values are the same up to the order of members
and undefined members, and the texts of the keys of two records exactly if their public keys are so,
each as often. -/
theorem canonical_publicKeys_iff (hn : NumberTexts numberText) :
    (∀ a b : Option ProgramValue,
      canonicalRead numberText (a.map ProgramValue.value) = canonicalRead numberText (b.map ProgramValue.value) ↔
        Option.Rel SameValue (a.map ProgramValue.value) (b.map ProgramValue.value)) ∧
    ∀ jwks jwks' : ProgramValue,
      (∃ text, publicKeysText numberText jwks.value = .ok text ∧
        publicKeysText numberText jwks'.value = .ok text) ↔
      ∃ keys keys', publicValuesOf jwks.value = .ok keys ∧ publicValuesOf jwks'.value = .ok keys' ∧
        SameKeys keys keys' := by
  constructor
  · intro a b
    rw [canonicalRead_eq, canonicalRead_eq, canonical_eq_iff hn]
    cases a with
    | none => cases b <;> simp
    | some a =>
      cases b with
      | none => simp
      | some b => simpa using normal_defined_iff a.distinct b.distinct
  · intro jwks jwks'
    rw [publicKeysText_eq, publicKeysText_eq]
    constructor
    · rintro ⟨text, htext, htext'⟩
      cases hkeys : publicValuesOf jwks.value with
      | error e => simp [hkeys, Except.map] at htext
      | ok keys =>
        cases hkeys' : publicValuesOf jwks'.value with
        | error e => simp [hkeys', Except.map] at htext'
        | ok keys' =>
          rw [hkeys] at htext
          rw [hkeys'] at htext'
          have heq := (sortedTexts_eq_iff hn).mp
            (Except.ok.inj (htext.trans htext'.symm))
          exact ⟨keys, keys', rfl, rfl, (perm_normal_iff (publicValuesOf_distinct jwks.distinct hkeys)
            (publicValuesOf_distinct jwks'.distinct hkeys')).mp heq⟩
    · rintro ⟨keys, keys', hkeys, hkeys', hsame⟩
      have hperm := (perm_normal_iff (publicValuesOf_distinct jwks.distinct hkeys)
        (publicValuesOf_distinct jwks'.distinct hkeys')).mpr hsame
      rw [hkeys, hkeys']
      exact ⟨_, rfl, congrArg Except.ok ((sortedTexts_eq_iff hn).mpr hperm).symm⟩

end Compare

/-- A key with an undefined member, against the key without it and in another order. -/
theorem canonical_publicKeys_undefined :
    canonicalRead decimalText
        (some (.obj [("kid", some (.str "a")), ("use", none), ("x", some (.str "b"))])) =
      canonicalRead decimalText (some (.obj [("x", some (.str "b")), ("kid", some (.str "a"))])) ∧
    ∃ text,
      publicKeysText decimalText (.obj [("keys", some (.arr [.obj [("kid", some (.str "a")),
        ("use", none), ("x", some (.str "b"))]]))]) = .ok text ∧
      publicKeysText decimalText (.obj [("keys", some (.arr [.obj [("x", some (.str "b")),
        ("kid", some (.str "a")), ("d", some (.str "c"))]]))]) = .ok text := by
  have hstr : ∀ s : String, (Value.str s).Distinct := fun s =>
    .intro _ .nil (by simp [Value.children])
  have hmembers : ∀ members : List (String × Option Value), (members.map Prod.fst).Nodup →
      (∀ w ∈ members.filterMap Prod.snd, ∃ s, w = .str s) → (Value.obj members).Distinct := by
    intro members hnodup hall
    refine .intro _ hnodup fun w hw => ?_
    obtain ⟨s, rfl⟩ := hall w hw
    exact hstr s
  have hkeys : ∀ key : Value, key.Distinct →
      (Value.obj [("keys", some (.arr [key]))]).Distinct := by
    intro key hkey
    refine .intro _ (by simp [Value.names]) fun w hw => ?_
    obtain rfl : w = .arr [key] := by simpa [Value.children] using hw
    exact .intro _ .nil (by simpa [Value.children] using hkey)
  let a : ProgramValue :=
    ⟨.obj [("kid", some (.str "a")), ("use", none), ("x", some (.str "b"))],
      hmembers _ (by simp) (by simp)⟩
  let b : ProgramValue :=
    ⟨.obj [("x", some (.str "b")), ("kid", some (.str "a"))], hmembers _ (by simp) (by simp)⟩
  let c : ProgramValue :=
    ⟨.obj [("x", some (.str "b")), ("kid", some (.str "a")), ("d", some (.str "c"))],
      hmembers _ (by simp) (by simp)⟩
  have hsame : SameValue a.value b.value := by
    change Same (.obj [("kid", .str "a"), ("x", .str "b")]) (.obj [("x", .str "b"), ("kid", .str "a")])
    refine .obj (fun k => by simp [or_comm]) fun k v w hv hw => ?_
    simp only [List.mem_cons, Prod.mk.injEq, List.not_mem_nil, or_false] at hv
    rcases hv with ⟨rfl, rfl⟩ | ⟨rfl, rfl⟩
    · obtain rfl : w = .str "a" := by simpa using hw
      exact .str "a"
    · obtain rfl : w = .str "b" := by simpa using hw
      exact .str "b"
  obtain ⟨hread, hpublic⟩ := canonical_publicKeys_iff numberTexts_decimalText
  refine ⟨(hread (some a) (some b)).mpr (.some hsame), ?_⟩
  exact (hpublic ⟨_, hkeys _ a.distinct⟩ ⟨_, hkeys _ c.distinct⟩).mpr
    ⟨[a.value], [b.value], rfl, rfl, [b.value], .refl _, .cons hsame .nil⟩

end OidFed
