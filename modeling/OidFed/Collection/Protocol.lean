import OidFed.Js.Stringify
import OidFed.Js.Utf16
import Mathlib.Data.List.Sort

/-!
# Requests for a collection (`core/src/entity-collection/protocol.ts`)

* `collectionContext`: the text under which a cursor remembers its request.
* `projectCollectionEntity`, `collectionText`: what is shown of an entity, and what a search looks
  at.
* `SameContext`, `sameContext_of_eq`: requests with one context have the same parameters, lists of
  them up to order and repetition. `projectCollectionEntity_congr`: they show the same.
-/

namespace OidFed

open Js PrefixCode

/-- The parameters of a request, as the schema has parsed them. -/
structure EntityCollectionRequest where
  start : Option String := none
  limit : Option Nat := none
  trustAnchor : Option String := none
  entityType : Option (List String) := none
  trustMarkType : Option (List String) := none
  query : Option String := none
  entityClaims : Option (List String) := none
  infoClaims : Option (List String) := none
  locale : Option (List String) := none
  deriving DecidableEq

/-- The host's functions on texts, and the decision on language tags of `language-tags.ts`. -/
structure CollectionHost where
  numberText : Rat → String
  toLowerCase : String → String
  isLanguageTag : String → Bool

/-! ## Contexts -/

/-- `[...new Set(values)].sort()`. -/
def sortedSet (values : List String) : Json :=
  .arr ((values.dedup.insertionSort fun a b => textLe a b).map .str)

/-- The parameters but for `from` and `limit`, in the order of their names. -/
def contextParameters (params : EntityCollectionRequest) : List (String × Option Json) :=
  [("entityClaims", params.entityClaims.map sortedSet),
    ("entityType", params.entityType.map sortedSet),
    ("infoClaims", params.infoClaims.map sortedSet), ("locale", params.locale.map sortedSet),
    ("query", params.query.map .str), ("trustAnchor", params.trustAnchor.map .str),
    ("trustMarkType", params.trustMarkType.map sortedSet)]

def collectionContext (host : CollectionHost) (params : EntityCollectionRequest) : String :=
  stringify host.numberText (.arr ((contextParameters params).filterMap fun p =>
    p.2.map fun value => .arr [.str p.1, value]))

/-! ## Entities -/

def collectionInfoClaims : List String :=
  ["organization_name", "display_name", "description", "keywords", "contacts", "logo_uri",
    "policy_uri", "information_uri", "organization_uri"]

def startsWith (text start : String) : Bool := start.toList.isPrefixOf text.toList

/-- The base and the language tag of a name; a declared name has no tag. -/
def splitInformationalClaim (host : CollectionHost) (name : String) (declared : List String) :
    String × Option String :=
  if declared.contains name then (name, none)
  else
    let candidates := (declared.filter fun base => startsWith name (base ++ "#")).insertionSort
      fun a b => (utf16 b).length ≤ (utf16 a).length
    let tagOf (base : String) : String := String.ofList (name.toList.drop (base.toList.length + 1))
    match candidates.find? fun base => host.isLanguageTag (tagOf base) with
    | some base => (base, some (tagOf base))
    | none => (name, none)

section Entities

variable (host : CollectionHost) (params : EntityCollectionRequest) (infoClaims : List String)

def keepsInfoClaim (name : String) : Bool :=
  let (base, tag) := splitInformationalClaim host name infoClaims
  (params.infoClaims.all fun claims => claims.contains name || claims.contains base) &&
    match tag with
    | none => true
    | some tag => tag == "" || (params.locale.getD []).isEmpty ||
        (params.locale.getD []).any fun locale =>
          host.toLowerCase tag == host.toLowerCase locale ||
            startsWith (host.toLowerCase tag) (host.toLowerCase locale ++ "-")

def projectInfos (infos : Json) : Json :=
  .obj (((infos.entries.getD []).filter fun p => (params.entityType.getD []).isEmpty ||
    p.1 == "federation_entity" || (params.entityType.getD []).contains p.1).map fun p =>
      (p.1, .obj ((p.2.entries.getD []).filter fun q => keepsInfoClaim host params infoClaims q.1)))

def projectCollectionEntity (entity : Json) : Json :=
  .obj (((entity.entries.getD []).filter fun p => p.1 == "entity_id" ||
    params.entityClaims.all fun selected => selected.contains p.1).map fun p =>
      if p.1 = "entity_infos" ∧ p.2.truthy then (p.1, projectInfos host params infoClaims p.2)
      else p)

def textsOf : Json → List String
  | .str s => [s]
  | .arr items => items.filterMap Json.string?
  | _ => []

def collectionText (entity : Json) : String :=
  let infos := ((entity.get? "entity_infos").bind Json.entries).getD []
  let values := infos.flatMap fun info => (info.2.entries.getD []).flatMap fun p => textsOf p.2
  host.toLowerCase ("\n".intercalate (((entity.get? "entity_id").bind Json.string?).getD "" :: values))

end Entities

/-! ## Requests with one context -/

/-- The same list up to order and repetition, or none. -/
structure SameValues (a b : Option (List String)) : Prop where
  isSome : a.isSome = b.isSome
  mem_iff : ∀ x, x ∈ a.getD [] ↔ x ∈ b.getD []

/-- The parameters that count for a context are the same. -/
structure SameContext (p q : EntityCollectionRequest) : Prop where
  trustAnchor : p.trustAnchor = q.trustAnchor
  query : p.query = q.query
  entityType : SameValues p.entityType q.entityType
  trustMarkType : SameValues p.trustMarkType q.trustMarkType
  entityClaims : SameValues p.entityClaims q.entityClaims
  infoClaims : SameValues p.infoClaims q.infoClaims
  locale : SameValues p.locale q.locale

theorem SameValues.refl (a : Option (List String)) : SameValues a a := ⟨rfl, fun _ => Iff.rfl⟩

theorem SameContext.refl (p : EntityCollectionRequest) : SameContext p p :=
  ⟨rfl, rfl, .refl _, .refl _, .refl _, .refl _, .refl _⟩

theorem jsonText_sortedSet (numberText numberText' : Rat → String) (values : List String) :
    jsonText numberText (sortedSet values) = jsonText numberText' (sortedSet values) := by
  refine jsonText_arr_congr fun v hv => ?_
  obtain ⟨s, -, rfl⟩ := List.mem_map.mp hv
  rw [jsonText, jsonText]

/-- There are no numbers in a context, so that their texts do not matter. -/
theorem collectionContext_congr (host host' : CollectionHost) (params : EntityCollectionRequest) :
    collectionContext host params = collectionContext host' params := by
  have hvalue : ∀ p ∈ contextParameters params, ∀ value, p.2 = some value →
      jsonText host.numberText value = jsonText host'.numberText value := by
    intro p hp value hv
    have hsets : ∀ values : Option (List String), values.map sortedSet = some value →
        jsonText host.numberText value = jsonText host'.numberText value := by
      intro values hvalues
      obtain ⟨l, -, rfl⟩ := Option.map_eq_some_iff.mp hvalues
      exact jsonText_sortedSet _ _ l
    have hstring : ∀ text : Option String, text.map Json.str = some value →
        jsonText host.numberText value = jsonText host'.numberText value := by
      intro text htext
      obtain ⟨s, -, rfl⟩ := Option.map_eq_some_iff.mp htext
      rw [jsonText, jsonText]
    simp only [contextParameters, List.mem_cons, List.not_mem_nil, or_false] at hp
    rcases hp with rfl | rfl | rfl | rfl | rfl | rfl | rfl
    · exact hsets _ hv
    · exact hsets _ hv
    · exact hsets _ hv
    · exact hsets _ hv
    · exact hstring _ hv
    · exact hstring _ hv
    · exact hsets _ hv
  refine congrArg String.ofList (jsonText_arr_congr fun v hv => ?_)
  obtain ⟨p, hp, hv⟩ := List.mem_filterMap.mp hv
  obtain ⟨value, hval, rfl⟩ := Option.map_eq_some_iff.mp hv
  refine jsonText_arr_congr fun w hw => ?_
  simp only [List.mem_cons, List.not_mem_nil, or_false] at hw
  rcases hw with rfl | rfl
  · rw [jsonText, jsonText]
  · exact hvalue p hp _ hval

/-- Named parameters, of which the absent ones are left out, tell which are there. -/
theorem eq_of_named {l m : List (String × Option Json)} (hkeys : l.map Prod.fst = m.map Prod.fst)
    (hnodup : (l.map Prod.fst).Nodup)
    (h : (l.filterMap fun p => p.2.map fun value => Json.arr [.str p.1, value]) =
      m.filterMap fun p => p.2.map fun value => Json.arr [.str p.1, value]) : l = m := by
  have habsent : ∀ (l : List (String × Option Json)) (k : String) (v : Json) rest,
      k ∉ l.map Prod.fst →
        (l.filterMap fun p => p.2.map fun value => Json.arr [.str p.1, value]) ≠
          .arr [.str k, v] :: rest := by
    intro l k v rest hk hl
    have hmem : Json.arr [.str k, v] ∈
        l.filterMap fun p => p.2.map fun value => Json.arr [.str p.1, value] := by
      rw [hl]
      exact .head _
    obtain ⟨p, hp, hv⟩ := List.mem_filterMap.mp hmem
    obtain ⟨value, -, heq⟩ := Option.map_eq_some_iff.mp hv
    simp only [Json.arr.injEq, List.cons.injEq, Json.str.injEq] at heq
    exact hk (List.mem_map.mpr ⟨p, hp, heq.1⟩)
  induction l generalizing m with
  | nil => cases m with
    | nil => rfl
    | cons q m => simp at hkeys
  | cons p l ih =>
    cases m with
    | nil => simp at hkeys
    | cons q m =>
      obtain ⟨k, a⟩ := p
      obtain ⟨k', b⟩ := q
      simp only [List.map_cons, List.cons.injEq, List.nodup_cons] at hkeys hnodup
      obtain ⟨rfl, hkeys⟩ := hkeys
      cases a with
      | none =>
        cases b with
        | none => rw [ih hkeys hnodup.2 h]
        | some b => exact absurd h (habsent l k b _ hnodup.1)
      | some a =>
        cases b with
        | none =>
          rw [hkeys] at hnodup
          exact absurd h.symm (habsent m k a _ hnodup.1)
        | some b =>
          simp only [List.filterMap_cons, Option.map_some, List.cons.injEq, Json.arr.injEq,
            and_true, true_and] at h
          rw [h.1, ih hkeys hnodup.2 h.2]

theorem mem_sortedSet {a b : List String} (h : sortedSet a = sortedSet b) (x : String) :
    x ∈ a ↔ x ∈ b := by
  have hlist := List.map_injective_iff.mpr (fun _ _ h => Json.str.inj h) (Json.arr.inj h)
  rw [← List.mem_dedup, ← List.mem_insertionSort (fun a b => textLe a b = true), hlist,
    List.mem_insertionSort, List.mem_dedup]

theorem sameValues_of_eq {a b : Option (List String)} (h : a.map sortedSet = b.map sortedSet) :
    SameValues a b := by
  cases a with
  | none =>
    cases b with
    | none => exact .refl _
    | some b => simp at h
  | some a =>
    cases b with
    | none => simp at h
    | some b => exact ⟨rfl, mem_sortedSet (Option.some.inj h)⟩

/-- Requests with one context have the same parameters. -/
theorem sameContext_of_eq {host : CollectionHost} {p q : EntityCollectionRequest}
    (h : collectionContext host p = collectionContext host q) : SameContext p q := by
  rw [collectionContext_congr host { host with numberText := decimalText } p,
    collectionContext_congr host { host with numberText := decimalText } q] at h
  have hmembers := Json.arr.inj (stringify_injective numberTexts_decimalText h)
  have hparams : contextParameters p = contextParameters q :=
    eq_of_named rfl (by simp [contextParameters]) hmembers
  simp only [contextParameters, List.cons.injEq, Prod.mk.injEq, true_and, and_true] at hparams
  obtain ⟨hec, het, hic, hl, hq, ha, hm⟩ := hparams
  have hstr : Function.Injective (Option.map Json.str) :=
    Option.map_injective fun _ _ h => Json.str.inj h
  exact ⟨hstr ha, hstr hq, sameValues_of_eq het, sameValues_of_eq hm, sameValues_of_eq hec,
    sameValues_of_eq hic, sameValues_of_eq hl⟩

/-! ## What they show -/

section Same

theorem contains_congr {l m : List String} (h : ∀ x, x ∈ l ↔ x ∈ m) (x : String) :
    l.contains x = m.contains x := by
  rw [Bool.eq_iff_iff, List.contains_iff_mem, List.contains_iff_mem]
  exact h x

variable {a b : Option (List String)}

theorem SameValues.contains (h : SameValues a b) (x : String) :
    (a.getD []).contains x = (b.getD []).contains x :=
  contains_congr h.mem_iff x

theorem SameValues.isEmpty (h : SameValues a b) : (a.getD []).isEmpty = (b.getD []).isEmpty := by
  rw [Bool.eq_iff_iff, List.isEmpty_iff, List.isEmpty_iff, List.eq_nil_iff_forall_not_mem,
    List.eq_nil_iff_forall_not_mem]
  exact forall_congr' fun x => not_congr (h.mem_iff x)

theorem SameValues.any (h : SameValues a b) (f : String → Bool) :
    (a.getD []).any f = (b.getD []).any f := by
  rw [Bool.eq_iff_iff, List.any_eq_true, List.any_eq_true]
  exact exists_congr fun x => and_congr_left' (h.mem_iff x)

theorem SameValues.all (h : SameValues a b) (f : String → Bool) :
    (a.getD []).all f = (b.getD []).all f := by
  rw [Bool.eq_iff_iff, List.all_eq_true, List.all_eq_true]
  exact forall_congr' fun x => imp_congr_left (h.mem_iff x)

/-- What is selected, where everything is unless values are given. -/
theorem SameValues.selects (h : SameValues a b) {f : List String → Bool} (hf : ∀ l m : List String,
    (∀ x, x ∈ l ↔ x ∈ m) → f l = f m) : a.all f = b.all f := by
  cases a with
  | none =>
    cases b with
    | none => rfl
    | some b => simpa using h.isSome
  | some a =>
    cases b with
    | none => simpa using h.isSome
    | some b => exact hf a b h.mem_iff

end Same

section Congr

variable {host : CollectionHost} {p q : EntityCollectionRequest} {infoClaims : List String}

theorem keepsInfoClaim_congr (h : SameContext p q) (name : String) :
    keepsInfoClaim host p infoClaims name = keepsInfoClaim host q infoClaims name := by
  have hclaims : ∀ base, (p.infoClaims.all fun claims => claims.contains name ||
      claims.contains base) = q.infoClaims.all fun claims => claims.contains name ||
        claims.contains base := by
    intro base
    refine h.infoClaims.selects fun l m hlm => ?_
    rw [contains_congr hlm, contains_congr hlm]
  simp only [keepsInfoClaim, hclaims, h.locale.isEmpty, h.locale.any]

theorem projectInfos_congr (h : SameContext p q) (infos : Json) :
    projectInfos host p infoClaims infos = projectInfos host q infoClaims infos := by
  have hkeeps : keepsInfoClaim host p infoClaims = keepsInfoClaim host q infoClaims :=
    funext fun name => keepsInfoClaim_congr h name
  simp only [projectInfos, hkeeps, h.entityType.isEmpty, h.entityType.contains]

/-- Requests with one context show the same of an entity. -/
theorem projectCollectionEntity_congr (h : SameContext p q) (entity : Json) :
    projectCollectionEntity host p infoClaims entity =
      projectCollectionEntity host q infoClaims entity := by
  have hclaims : ∀ name, (p.entityClaims.all fun selected => selected.contains name) =
      q.entityClaims.all fun selected => selected.contains name :=
    fun name => h.entityClaims.selects fun l m hlm => contains_congr hlm name
  have hinfos : projectInfos host p infoClaims = projectInfos host q infoClaims :=
    funext fun infos => projectInfos_congr h infos
  simp only [projectCollectionEntity, hclaims, hinfos]

end Congr

end OidFed
