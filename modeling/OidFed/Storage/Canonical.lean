import OidFed.Js.Stringify
import OidFed.Storage.State

/-!
# Comparing records (`authority/src/subordinate-lifecycle.ts`)

An update compares the record before and after by texts: `canonical` of a value and `publicKeys` of
a key set. What the texts tell is said without them:

* `normal`: a value with the members of every object in the order of their names, so that
  `normal a = normal b` is equality up to the order of members (`normal_obj_eq_iff`).
* `canonical_eq_iff`, `publicKeys_eq_iff`: the texts are equal exactly when the values are equal up
  to the order of members, and the public keys up to the order of keys too.
-/

namespace OidFed

open Js PrefixCode

/-! ## Values up to the order of members -/

def nameLe {α : Type} (p q : String × α) : Bool := textLe p.1 q.1

mutual

def normal : Json → Json
  | .arr items => .arr (normalItems items)
  | .obj members => .obj ((normalMembers members).mergeSort nameLe)
  | v => v

def normalItems : List Json → List Json
  | [] => []
  | v :: rest => normal v :: normalItems rest

def normalMembers : List (String × Json) → List (String × Json)
  | [] => []
  | (k, v) :: rest => (k, normal v) :: normalMembers rest

end

theorem normal_str (s : String) : normal (.str s) = .str s := by
  rw [normal] <;> simp

theorem normalItems_eq (items : List Json) : normalItems items = items.map normal := by
  induction items with
  | nil => rfl
  | cons v rest ih => rw [normalItems, ih, List.map_cons]

theorem normalMembers_eq (members : List (String × Json)) :
    normalMembers members = members.map fun p => (p.1, normal p.2) := by
  induction members with
  | nil => rfl
  | cons p rest ih => rw [normalMembers, ih, List.map_cons]

/-- Members with distinct names in the order of their names are determined by their set. -/
theorem mergeSort_nameLe_eq {α : Type} {l m : List (String × α)} (hl : (l.map Prod.fst).Nodup)
    (hperm : l.Perm m) : l.mergeSort nameLe = m.mergeSort nameLe := by
  have hsorted : ∀ l : List (String × α), (l.mergeSort nameLe).Pairwise (nameLe · ·) := by
    intro l
    refine List.pairwise_mergeSort ?_ ?_ l
    · exact fun p q r hpq hqr => textLe_trans hpq hqr
    · exact fun p q => textLe_total p.1 q.1
  refine List.Perm.eq_of_pairwise ?_ (hsorted l) (hsorted m) ?_
  · intro p q hp hq hpq hqp
    rw [List.mem_mergeSort] at hp hq
    have hname : p.1 = q.1 := textLe_antisymm hpq hqp
    exact List.inj_on_of_nodup_map hl hp (hperm.mem_iff.mpr hq) hname
  · exact ((List.mergeSort_perm l _).trans hperm).trans (List.mergeSort_perm m _).symm

/-- Objects are equal up to the order of members when they have the same names, with values that
are equal so. -/
theorem normal_obj_eq_iff {l m : List (String × Json)} (hl : (l.map Prod.fst).Nodup)
    (hm : (m.map Prod.fst).Nodup) :
    normal (.obj l) = normal (.obj m) ↔ ∀ k, (l.lookup k).map normal = (m.lookup k).map normal := by
  have hnames : ∀ l : List (String × Json),
      (normalMembers l).map Prod.fst = l.map Prod.fst := by
    intro l
    rw [normalMembers_eq, List.map_map]
    rfl
  have hlookup : ∀ (l : List (String × Json)) k,
      (normalMembers l).lookup k = (l.lookup k).map normal := by
    intro l k
    rw [normalMembers_eq]
    induction l with
    | nil => rfl
    | cons p l ih =>
      rw [List.map_cons, List.lookup_cons, List.lookup_cons, ih]
      cases k == p.1 <;> rfl
  have hl' : ((normalMembers l).map Prod.fst).Nodup := by rw [hnames]; exact hl
  have hm' : ((normalMembers m).map Prod.fst).Nodup := by rw [hnames]; exact hm
  rw [normal, normal, Json.obj.injEq]
  constructor
  · intro h k
    have hperm : (normalMembers l).Perm (normalMembers m) :=
      ((List.mergeSort_perm _ nameLe).symm.trans (h ▸ .refl _)).trans (List.mergeSort_perm _ nameLe)
    rw [← hlookup, ← hlookup]
    refine Option.ext fun v => ?_
    rw [lookup_eq_some_iff_mem hl', lookup_eq_some_iff_mem hm', hperm.mem_iff]
  · intro h
    refine mergeSort_nameLe_eq hl' ?_
    rw [List.perm_ext_iff_of_nodup (.of_map _ hl') (.of_map _ hm')]
    rintro ⟨k, v⟩
    rw [← lookup_eq_some_iff_mem hl', ← lookup_eq_some_iff_mem hm', hlookup, hlookup, h k]

/-! ## Canonical texts -/

section Canonical

variable (numberText : Rat → String)

mutual

def canonicalText : Json → List Char
  | .arr items => '[' :: separated ',' (canonicalItems items) ++ [']']
  | .obj members =>
    '\x7b' :: separated ',' (((canonicalMembers members).mergeSort nameLe).map fun p =>
      quote p.1 ++ ':' :: p.2) ++ ['\x7d']
  | v => jsonText numberText v

def canonicalItems : List Json → List (List Char)
  | [] => []
  | v :: rest => canonicalText v :: canonicalItems rest

def canonicalMembers : List (String × Json) → List (String × List Char)
  | [] => []
  | (k, v) :: rest => (k, canonicalText v) :: canonicalMembers rest

end

/-- `canonical(value)`, of a value that may be `undefined`. -/
def canonical : Option Json → List Char
  | some v => canonicalText numberText v
  | none => ['u', 'n', 'd', 'e', 'f', 'i', 'n', 'e', 'd']

mutual

/-- The canonical text is the text of the value in normal form. -/
theorem canonicalText_eq : ∀ v : Json,
    canonicalText numberText v = jsonText numberText (normal v)
  | .null => by rw [canonicalText, normal]; all_goals simp
  | .bool _ => by rw [canonicalText, normal]; all_goals simp
  | .num _ => by rw [canonicalText, normal]; all_goals simp
  | .str _ => by rw [canonicalText, normal]; all_goals simp
  | .arr items => by
    rw [canonicalText, normal, jsonText, itemJsonTexts_eq, canonicalItems_eq items]
  | .obj members => by
    have hsort := List.map_mergeSort (r := nameLe) (s := nameLe)
      (f := fun p : String × Json => (p.1, jsonText numberText p.2)) (l := normalMembers members)
      (fun _ _ _ _ => rfl)
    rw [canonicalText, normal, jsonText, memberJsonTexts_eq, canonicalMembers_eq members, ← hsort,
      List.map_map]
    rfl

theorem canonicalItems_eq : ∀ items : List Json,
    canonicalItems numberText items = (normalItems items).map (jsonText numberText)
  | [] => rfl
  | v :: rest => by
    rw [canonicalItems, normalItems, List.map_cons, canonicalText_eq v, canonicalItems_eq rest]

theorem canonicalMembers_eq : ∀ members : List (String × Json),
    canonicalMembers numberText members =
      (normalMembers members).map fun p => (p.1, jsonText numberText p.2)
  | [] => rfl
  | (k, v) :: rest => by
    rw [canonicalMembers, normalMembers, List.map_cons, canonicalText_eq v,
      canonicalMembers_eq rest]

end

variable {numberText}

theorem canonicalText_eq_iff (hn : NumberTexts numberText) {a b : Json} :
    canonicalText numberText a = canonicalText numberText b ↔ normal a = normal b := by
  rw [canonicalText_eq, canonicalText_eq]
  exact (jsonText_injective hn).eq_iff

/-- Canonical texts are equal exactly when the values are, up to the order of members. -/
theorem canonical_eq_iff (hn : NumberTexts numberText) {a b : Option Json} :
    canonical numberText a = canonical numberText b ↔ a.map normal = b.map normal := by
  have hundefined : ∀ v, canonicalText numberText v ≠ canonical numberText none := by
    intro v h
    obtain ⟨c, t, hv, hkind⟩ := jsonText_head hn (normal v)
    rw [canonicalText_eq, hv, canonical] at h
    have hu : kindOf 'u' = 6 := by simp [kindOf, numberChars]
    rw [(List.cons.inj h).1, hu] at hkind
    cases hnorm : normal v <;> simp [hnorm, Json.kind] at hkind
  cases a with
  | none =>
    cases b with
    | none => simp
    | some b => simpa using fun h => hundefined b h.symm
  | some a =>
    cases b with
    | none => simpa [canonical] using hundefined a
    | some b => simpa [canonical] using canonicalText_eq_iff hn

end Canonical

/-! ## Public keys (`core/src/jose/keys.ts`) -/

def jwkPublicFields : List String :=
  ["kty", "use", "key_ops", "alg", "kid", "x5u", "x5c", "x5t", "x5t#S256", "crv", "x", "y", "n",
    "e"]

/-- A key without its private members; the key may be any value, and `null` throws. -/
def stripPrivateFields (key : Json) : Except StorageError Json :=
  if key.isNull then .error (.typeError "Cannot read properties of null (reading 'kty')")
  else if key.get? "kty" = some (.str "oct") then
    .error (.typeError ("Cannot extract public fields from a symmetric key (kty \"oct\"): " ++
      "the entire key value is private"))
  else .ok (.obj (((key.entries).getD []).filter fun p => jwkPublicFields.contains p.1))

/-- The keys of a key set, without their private members. -/
def publicKeysOf (jwks : Json) : Except StorageError (List Json) :=
  match jwks.get? "keys" with
  | some (.arr keys) => keys.mapM stripPrivateFields
  | _ => .error (.typeError "record.jwks.keys.map is not a function")

section PublicKeys

variable (numberText : Rat → String)

/-- `publicKeys(record)`. -/
def publicKeys (record : SubordinateRecord) : Except StorageError (List Char) :=
  (publicKeysOf record.jwks).map fun keys =>
    canonicalText numberText (.arr (((keys.map fun key =>
      String.ofList (canonicalText numberText key)).mergeSort textLe).map .str))

variable {numberText}

theorem publicKeysOf_of_publicKeys {record : SubordinateRecord} {text : List Char}
    (h : publicKeys numberText record = .ok text) : ∃ keys, publicKeysOf record.jwks = .ok keys := by
  cases hkeys : publicKeysOf record.jwks with
  | error e => simp [publicKeys, hkeys, Except.map] at h
  | ok keys => exact ⟨keys, rfl⟩

/-- The text of the sorted texts of some keys tells the keys, up to the order of keys and of
members. -/
theorem sortedTexts_eq_iff (hn : NumberTexts numberText) {keys keys' : List Json} :
    canonicalText numberText (.arr (((keys.map fun key =>
        String.ofList (canonicalText numberText key)).mergeSort textLe).map .str)) =
      canonicalText numberText (.arr (((keys'.map fun key =>
        String.ofList (canonicalText numberText key)).mergeSort textLe).map .str)) ↔
    (keys.map normal).Perm (keys'.map normal) := by
  have htext : ∀ keys : List Json, (keys.map fun key =>
      String.ofList (canonicalText numberText key)) = (keys.map normal).map (stringify numberText) := by
    intro keys
    rw [List.map_map]
    refine List.map_congr_left fun key _ => ?_
    rw [canonicalText_eq]
    rfl
  have hsorted : ∀ l : List String, (l.mergeSort textLe).Pairwise (textLe · ·) := by
    intro l
    refine List.pairwise_mergeSort ?_ ?_ l
    · exact fun _ _ _ hab hbc => textLe_trans hab hbc
    · exact fun a b => textLe_total a b
  have hstr : Function.Injective Json.str := fun _ _ h => Json.str.inj h
  have hnormal : ∀ l : List String, (l.map Json.str).map normal = l.map Json.str := by
    intro l
    induction l with
    | nil => rfl
    | cons s l ih => rw [List.map_cons, List.map_cons, ih, normal_str]
  rw [canonicalText_eq_iff hn, normal, normal, Json.arr.injEq, normalItems_eq, normalItems_eq,
    hnormal, hnormal, hstr.list_map.eq_iff, htext, htext]
  constructor
  · intro h
    have hperm : ((keys.map normal).map (stringify numberText)).Perm
        ((keys'.map normal).map (stringify numberText)) :=
      ((List.mergeSort_perm _ textLe).symm.trans (h ▸ .refl _)).trans (List.mergeSort_perm _ textLe)
    exact (List.map_perm_map_iff (stringify_injective hn)).mp hperm
  · intro h
    have hperm := h.map (stringify numberText)
    refine List.Perm.eq_of_pairwise (fun _ _ _ _ => textLe_antisymm) (hsorted _) (hsorted _) ?_
    exact ((List.mergeSort_perm _ _).trans hperm).trans (List.mergeSort_perm _ _).symm

/-- The texts of the public keys of two key sets are equal exactly when the keys are, up to the
order of keys and of members. -/
theorem publicKeys_eq_iff (hn : NumberTexts numberText) {a b : SubordinateRecord}
    {keys keys' : List Json} (ha : publicKeysOf a.jwks = .ok keys)
    (hb : publicKeysOf b.jwks = .ok keys') :
    publicKeys numberText a = publicKeys numberText b ↔ (keys.map normal).Perm (keys'.map normal) := by
  rw [publicKeys, publicKeys, ha, hb, ← sortedTexts_eq_iff hn]
  simp only [Except.map, Except.ok.injEq]

end PublicKeys

end OidFed
