import OidFed.Collection.Protocol
import OidFed.Http
import OidFed.Jose
import OidFed.Js.Number
import OidFed.Schema

/-!
# Requests for a collection as forms (`core/src/entity-collection/protocol.ts`)

* `serializeCollectionParams`, `parseCollectionParams`: the parameters of a request as a form, and
  back; `entityCollectionRequestSchema`: what the schema makes of the parameters.
* `parse_serialize`: a form of accepted parameters, whatever other parameters are in it, is read as
  what the schema makes of them, and that differs from them in no more than the white space around
  the Trust Anchor.
* `collectionContext_eq_iff`: two requests have one context exactly when they have the same
  parameters but for the page, lists of them up to order and repetition.
-/

namespace OidFed

open Js

/-! ## The schema -/

/-- A member that may be absent. -/
def optionalField {α : Type} (read : Json → Option α) : Option Json → Option (Option α)
  | none => some none
  | some v => (read v).map some

def readText : Json → Option String := Json.string?

def readNonEmptyText (v : Json) : Option String := v.string?.filter (· ≠ "")

def readCount (v : Json) : Option Nat :=
  (v.number?.filter fun q => Json.isSafeInteger q ∧ 0 ≤ q).map fun q => q.num.toNat

def readTextList (accepts : String → Bool) (v : Json) : Option (List String) :=
  v.items?.bind fun items =>
    items.mapM fun item => (readNonEmptyText item).filter fun s => accepts s

def readEntityId (P : Platform) (v : Json) : Option String :=
  if entityIdSchema P v then urlOutput P (some v) else none

/-- The parameters by their names in a form, and in the program. -/
def collectionParameters : List (String × String) :=
  [("from", "from"), ("limit", "limit"), ("trust_anchor", "trustAnchor"),
    ("entity_type", "entityType"), ("trust_mark_type", "trustMarkType"), ("query", "query"),
    ("entity_claims", "entityClaims"), ("info_claims", "infoClaims"), ("locale", "locale")]

section Parse

variable (P : Platform) (host : CollectionHost)

/-- What the schema makes of parameters; `none` where it refuses them. -/
def entityCollectionRequestSchema (input : Dict String Json) : Option EntityCollectionRequest :=
  if input.keys.all fun k => (collectionParameters.map Prod.snd).contains k then do
    let start ← optionalField readNonEmptyText (input.get? "from")
    let limit ← optionalField readCount (input.get? "limit")
    let trustAnchor ← optionalField (readEntityId P) (input.get? "trustAnchor")
    let entityType ← optionalField (readTextList fun _ => true) (input.get? "entityType")
    let trustMarkType ← optionalField (readTextList fun _ => true) (input.get? "trustMarkType")
    let query ← optionalField readText (input.get? "query")
    let entityClaims ← optionalField (readTextList fun _ => true) (input.get? "entityClaims")
    let infoClaims ← optionalField (readTextList fun _ => true) (input.get? "infoClaims")
    let locale ← optionalField (readTextList host.isLanguageTag) (input.get? "locale")
    return { start, limit, trustAnchor, entityType, trustMarkType, query, entityClaims, infoClaims,
             locale }
  else none

/-! ## Forms -/

def repeatedParameters : List String :=
  ["entity_type", "trust_mark_type", "entity_claims", "info_claims", "locale"]

/-- `/^[0-9]+$/.test(text)`. -/
def isDecimal (text : String) : Bool := text ≠ "" && text.toList.all Char.isDigit

/-- A number as a value. One that is not finite is refused by the schema, like `null`. -/
def numberJson : Number → Json
  | .finite q => .num q
  | _ => .null

/-- What the values of a parameter are read as. -/
def parameterValue (name : String) (values : List String) : Except FederationError Json :=
  if !repeatedParameters.contains name && values.length != 1 then
    .error (federationError .InvalidRequest s!"Parameter {name} must occur once")
  else if name = "limit" then
    if isDecimal (values.head?.getD "") then
      .ok (numberJson (stringToNumber (values.head?.getD "")))
    else .error (federationError .InvalidRequest "limit must be a nonnegative safe integer")
  else if repeatedParameters.contains name then .ok (.arr (values.map .str))
  else .ok (.str (values.head?.getD ""))

/-- The loop over the names of a form; parameters that are not known are ignored. -/
def collectionInput (form : List (String × String)) :
    List String → Dict String Json → Except FederationError (Dict String Json)
  | [], input => .ok input
  | name :: rest, input =>
    match collectionParameters.lookup name with
    | none => collectionInput form rest input
    | some key => do
      let value ← parameterValue name (valuesOf form name)
      collectionInput form rest (input.set key value)

def parseCollectionParams (form : List (String × String)) :
    Except FederationError EntityCollectionRequest := do
  let input ← collectionInput form (form.map Prod.fst).eraseDups .empty
  match entityCollectionRequestSchema P host input with
  | some params => return params
  | none => throw (federationError .InvalidRequest "Invalid collection request parameters")

end Parse

/-- The texts that are appended for a parameter. -/
def parameterTexts (params : EntityCollectionRequest) : String → Option (List String)
  | "from" => params.start.map fun text => [text]
  | "limit" => params.limit.map fun n => [n.repr]
  | "trustAnchor" => params.trustAnchor.map fun text => [text]
  | "entityType" => params.entityType
  | "trustMarkType" => params.trustMarkType
  | "query" => params.query.map fun text => [text]
  | "entityClaims" => params.entityClaims
  | "infoClaims" => params.infoClaims
  | "locale" => params.locale
  | _ => none

def serializeCollectionParams (params : EntityCollectionRequest) : List (String × String) :=
  collectionParameters.flatMap fun p =>
    ((parameterTexts params p.2).getD []).map fun text => (p.1, text)

/-! ## The parameters as values -/

/-- The value of a list of texts. -/
def textsJson (texts : List String) : Json := .arr (texts.map .str)

/-- The value of a parameter in the program. -/
def parameterJson (params : EntityCollectionRequest) : String → Option Json
  | "from" => params.start.map .str
  | "limit" => params.limit.map fun n : Nat => .num (n : Rat)
  | "trustAnchor" => params.trustAnchor.map .str
  | "entityType" => params.entityType.map textsJson
  | "trustMarkType" => params.trustMarkType.map textsJson
  | "query" => params.query.map .str
  | "entityClaims" => params.entityClaims.map textsJson
  | "infoClaims" => params.infoClaims.map textsJson
  | "locale" => params.locale.map textsJson
  | _ => none

/-- An object whose members are the parameters that are there. -/
def IsInput (params : EntityCollectionRequest) (input : Dict String Json) : Prop :=
  ∀ k, input.get? k = parameterJson params k

/-- The parameters that are there, in the order of the table. -/
def inputOf (params : EntityCollectionRequest) : Dict String Json :=
  (collectionParameters.map Prod.snd).foldl (fun d k => d.put k (parameterJson params k)) .empty

/-- The lists among the parameters have elements. -/
structure NonEmptyLists (params : EntityCollectionRequest) : Prop where
  entityType : params.entityType ≠ some []
  trustMarkType : params.trustMarkType ≠ some []
  entityClaims : params.entityClaims ≠ some []
  infoClaims : params.infoClaims ≠ some []
  locale : params.locale ≠ some []

/-! ## What the schema makes of parameters -/

theorem optionalField_map {α β : Type} {read : Json → Option α} {write : β → Json} {f : β → α}
    (h : ∀ b a, read (write b) = some a → a = f b) {v : Option β} {w : Option α}
    (hw : optionalField read (v.map write) = some w) : w = v.map f := by
  cases v with
  | none => exact (Option.some.inj hw).symm
  | some b =>
    obtain ⟨a, ha, rfl⟩ := Option.map_eq_some_iff.mp hw
    rw [h b a ha, Option.map_some]

theorem readNonEmptyText_str {s t : String} (h : readNonEmptyText (.str s) = some t) : t = s := by
  obtain ⟨hs, -⟩ := Option.filter_eq_some_iff.mp h
  exact (Option.some.inj hs).symm

theorem readText_str {s t : String} (h : readText (.str s) = some t) : t = s :=
  (Option.some.inj h).symm

theorem readTextList_texts {accepts : String → Bool} {l m : List String}
    (h : readTextList accepts (textsJson l) = some m) : m = l := by
  replace h : (l.map Json.str).mapM
      (fun item => (readNonEmptyText item).filter fun s => accepts s) = some m := h
  induction l generalizing m with
  | nil => simpa using h.symm
  | cons s l ih =>
    rw [List.map_cons, List.mapM_cons] at h
    obtain ⟨t, ht, h⟩ := Option.bind_eq_some_iff.mp h
    obtain ⟨rest, hrest, h⟩ := Option.bind_eq_some_iff.mp h
    obtain ⟨hread, -⟩ := Option.filter_eq_some_iff.mp ht
    rw [← Option.some.inj h, readNonEmptyText_str hread, ih hrest]

theorem readCount_num {n m : Nat} (h : readCount (.num n) = some m) : m = n ∧ n < 2 ^ 53 := by
  obtain ⟨q, hq, rfl⟩ := Option.map_eq_some_iff.mp h
  obtain ⟨hn, hrange⟩ := Option.filter_eq_some_iff.mp hq
  obtain rfl : (n : Rat) = q := Option.some.inj hn
  simp only [Json.isSafeInteger, Rat.num_natCast, Rat.den_natCast, Bool.and_eq_true,
    decide_eq_true_eq] at hrange
  refine ⟨by simp, ?_⟩
  obtain ⟨⟨-, hmax⟩, -⟩ := hrange
  have hcast : (n : Int) ≤ 2 ^ 53 - 1 := of_decide_eq_true hmax
  omega

/-- What the schema makes of a value for the Trust Anchor is the output of the URL check. -/
theorem readEntityId_str {P : Platform} {s t : String} (h : readEntityId P (.str s) = some t) :
    P.zodUrl s = some t := by
  unfold readEntityId at h
  split at h
  · exact h
  · simp at h

section Schema

variable {P : Platform} {host : CollectionHost} {p q : EntityCollectionRequest}
  {input input' : Dict String Json}

/-- The schema reads the members of an object, whatever their order. -/
theorem entityCollectionRequestSchema_congr (h : ∀ k, input.get? k = input'.get? k) :
    entityCollectionRequestSchema P host input = entityCollectionRequestSchema P host input' := by
  have hkeys : ∀ k, k ∈ input.keys ↔ k ∈ input'.keys := by
    intro k
    rw [Dict.mem_keys_iff, Dict.mem_keys_iff, h]
  have hall : (input.keys.all fun k => (collectionParameters.map Prod.snd).contains k) =
      input'.keys.all fun k => (collectionParameters.map Prod.snd).contains k := by
    rw [Bool.eq_iff_iff, List.all_eq_true, List.all_eq_true]
    exact forall_congr' fun k => imp_congr_left (hkeys k)
  simp only [entityCollectionRequestSchema, hall, h]

/-- Each field of what the schema returns is read from a member. -/
theorem entityCollectionRequestSchema_fields
    (h : entityCollectionRequestSchema P host input = some q) :
    (optionalField readNonEmptyText (input.get? "from") = some q.start ∧
      optionalField readCount (input.get? "limit") = some q.limit ∧
      optionalField (readEntityId P) (input.get? "trustAnchor") = some q.trustAnchor) ∧
    (optionalField (readTextList fun _ => true) (input.get? "entityType") = some q.entityType ∧
      optionalField (readTextList fun _ => true) (input.get? "trustMarkType") =
        some q.trustMarkType ∧
      optionalField readText (input.get? "query") = some q.query) ∧
    optionalField (readTextList fun _ => true) (input.get? "entityClaims") = some q.entityClaims ∧
      optionalField (readTextList fun _ => true) (input.get? "infoClaims") = some q.infoClaims ∧
      optionalField (readTextList host.isLanguageTag) (input.get? "locale") = some q.locale := by
  unfold entityCollectionRequestSchema at h
  split at h
  swap
  · simp at h
  obtain ⟨start, hstart, h⟩ := Option.bind_eq_some_iff.mp h
  obtain ⟨limit, hlimit, h⟩ := Option.bind_eq_some_iff.mp h
  obtain ⟨trustAnchor, htrustAnchor, h⟩ := Option.bind_eq_some_iff.mp h
  obtain ⟨entityType, hentityType, h⟩ := Option.bind_eq_some_iff.mp h
  obtain ⟨trustMarkType, htrustMarkType, h⟩ := Option.bind_eq_some_iff.mp h
  obtain ⟨query, hquery, h⟩ := Option.bind_eq_some_iff.mp h
  obtain ⟨entityClaims, hentityClaims, h⟩ := Option.bind_eq_some_iff.mp h
  obtain ⟨infoClaims, hinfoClaims, h⟩ := Option.bind_eq_some_iff.mp h
  obtain ⟨locale, hlocale, h⟩ := Option.bind_eq_some_iff.mp h
  obtain rfl := Option.some.inj h
  exact ⟨⟨hstart, hlimit, htrustAnchor⟩, ⟨hentityType, htrustMarkType, hquery⟩, hentityClaims,
    hinfoClaims, hlocale⟩

/-- The schema gives accepted parameters back, but for the text of the Trust Anchor. -/
theorem entityCollectionRequestSchema_eq (hinput : IsInput p input)
    (h : entityCollectionRequestSchema P host input = some q) :
    q = { p with trustAnchor := p.trustAnchor.bind P.zodUrl } ∧
      ∀ n, p.limit = some n → n < 2 ^ 53 := by
  obtain ⟨⟨hstart, hlimit, hanchor⟩, ⟨hentityType, htrustMarkType, hquery⟩, hentityClaims,
    hinfoClaims, hlocale⟩ := entityCollectionRequestSchema_fields h
  rw [hinput "from"] at hstart
  rw [hinput "limit"] at hlimit
  rw [hinput "trustAnchor"] at hanchor
  rw [hinput "entityType"] at hentityType
  rw [hinput "trustMarkType"] at htrustMarkType
  rw [hinput "query"] at hquery
  rw [hinput "entityClaims"] at hentityClaims
  rw [hinput "infoClaims"] at hinfoClaims
  rw [hinput "locale"] at hlocale
  have hlists : ∀ {accepts : String → Bool} {l m : Option (List String)},
      optionalField (readTextList accepts) (l.map textsJson) = some m → m = l := by
    intro accepts l m hm
    exact (optionalField_map (f := id) (fun _ _ h => readTextList_texts h) hm).trans
      (Option.map_id_apply ..)
  have htrustAnchor : q.trustAnchor = p.trustAnchor.bind P.zodUrl := by
    change optionalField (readEntityId P) (p.trustAnchor.map .str) = some q.trustAnchor at hanchor
    cases ha : p.trustAnchor with
    | none =>
      rw [ha] at hanchor
      exact (Option.some.inj hanchor).symm
    | some s =>
      rw [ha] at hanchor
      obtain ⟨t, ht, hq⟩ := Option.map_eq_some_iff.mp hanchor
      rw [← hq]
      exact (readEntityId_str ht).symm
  have hcount : q.limit = p.limit := by
    change optionalField readCount (p.limit.map fun n : Nat => Json.num (n : Rat)) = some q.limit at hlimit
    exact (optionalField_map (f := id) (fun n m h => (readCount_num h).1) hlimit).trans
      (Option.map_id_apply ..)
  have htext : q.start = p.start := by
    change optionalField readNonEmptyText (p.start.map .str) = some q.start at hstart
    exact (optionalField_map (f := id) (fun _ _ h => readNonEmptyText_str h) hstart).trans
      (Option.map_id_apply ..)
  have hsearch : q.query = p.query := by
    change optionalField readText (p.query.map .str) = some q.query at hquery
    exact (optionalField_map (f := id) (fun _ _ h => readText_str h) hquery).trans
      (Option.map_id_apply ..)
  refine ⟨?_, fun n hn => ?_⟩
  · rw [← htext, ← hcount, ← htrustAnchor, ← hlists hentityType, ← hlists htrustMarkType, ← hsearch,
      ← hlists hentityClaims, ← hlists hinfoClaims, ← hlists hlocale]
  · change optionalField readCount (p.limit.map fun n : Nat => Json.num (n : Rat)) = some q.limit at hlimit
    rw [hn] at hlimit
    obtain ⟨m, hm, -⟩ := Option.map_eq_some_iff.mp hlimit
    exact (readCount_num hm).2

/-- An accepted Trust Anchor passes the URL check. -/
theorem zodUrl_of_accepted (hinput : IsInput p input)
    (h : entityCollectionRequestSchema P host input = some q) {id : String}
    (hanchor : p.trustAnchor = some id) : ∃ url, P.zodUrl id = some url := by
  obtain ⟨⟨-, -, hread⟩, -⟩ := entityCollectionRequestSchema_fields h
  rw [hinput "trustAnchor"] at hread
  change optionalField (readEntityId P) (p.trustAnchor.map .str) = some q.trustAnchor at hread
  rw [hanchor] at hread
  obtain ⟨url, hurl, -⟩ := Option.map_eq_some_iff.mp hread
  exact ⟨url, readEntityId_str hurl⟩

end Schema

/-! ## Forms of parameters -/

theorem isDecimal_repr (n : Nat) : isDecimal n.repr = true := by
  have hn := isNumeral_repr n
  have hne : n.repr ≠ "" := fun h => hn.ne_nil (by rw [h]; rfl)
  rw [isDecimal, Bool.and_eq_true, List.all_eq_true]
  exact ⟨by simp [hne], hn.isDigit⟩

/-- The texts of a parameter are read as its value. -/
theorem parameterValue_texts {params : EntityCollectionRequest}
    (hlimit : ∀ n, params.limit = some n → n < 2 ^ 53) {name key : String}
    (h : (name, key) ∈ collectionParameters) {texts : List String}
    (ht : parameterTexts params key = some texts) :
    ∃ v, parameterJson params key = some v ∧ parameterValue name texts = .ok v := by
  simp only [collectionParameters, List.mem_cons, Prod.mk.injEq, List.not_mem_nil, or_false] at h
  rcases h with ⟨rfl, rfl⟩ | ⟨rfl, rfl⟩ | ⟨rfl, rfl⟩ | ⟨rfl, rfl⟩ | ⟨rfl, rfl⟩ | ⟨rfl, rfl⟩ |
    ⟨rfl, rfl⟩ | ⟨rfl, rfl⟩ | ⟨rfl, rfl⟩
  · obtain ⟨s, hs, rfl⟩ := Option.map_eq_some_iff.mp ht
    exact ⟨.str s, by rw [parameterJson, hs]; rfl, rfl⟩
  · obtain ⟨n, hn, rfl⟩ := Option.map_eq_some_iff.mp ht
    refine ⟨.num (n : Rat), by rw [parameterJson, hn]; rfl, ?_⟩
    have hnumber : stringToNumber n.repr = .finite n := by
      rw [stringToNumber_digits (isNumeral_repr n), roundDouble_natCast (hlimit n hn)]
    change (if isDecimal n.repr then Except.ok (numberJson (stringToNumber n.repr)) else _) = _
    rw [if_pos (isDecimal_repr n), hnumber]
    rfl
  · obtain ⟨s, hs, rfl⟩ := Option.map_eq_some_iff.mp ht
    exact ⟨.str s, by rw [parameterJson, hs]; rfl, rfl⟩
  · have ht' : params.entityType = some texts := ht
    exact ⟨textsJson texts, by rw [parameterJson, ht']; rfl, rfl⟩
  · have ht' : params.trustMarkType = some texts := ht
    exact ⟨textsJson texts, by rw [parameterJson, ht']; rfl, rfl⟩
  · obtain ⟨s, hs, rfl⟩ := Option.map_eq_some_iff.mp ht
    exact ⟨.str s, by rw [parameterJson, hs]; rfl, rfl⟩
  · have ht' : params.entityClaims = some texts := ht
    exact ⟨textsJson texts, by rw [parameterJson, ht']; rfl, rfl⟩
  · have ht' : params.infoClaims = some texts := ht
    exact ⟨textsJson texts, by rw [parameterJson, ht']; rfl, rfl⟩
  · have ht' : params.locale = some texts := ht
    exact ⟨textsJson texts, by rw [parameterJson, ht']; rfl, rfl⟩

/-- A parameter that has a value is in the table and has texts. -/
theorem parameterTexts_of_parameterJson {params : EntityCollectionRequest} {key : String} {v : Json}
    (h : parameterJson params key = some v) : (∃ name, (name, key) ∈ collectionParameters) ∧
      ∃ texts, parameterTexts params key = some texts := by
  unfold parameterJson at h
  split at h
  case h_10 => simp at h
  all_goals
    obtain ⟨x, hx, -⟩ := Option.map_eq_some_iff.mp h
    exact ⟨⟨_, by simp [collectionParameters]; rfl⟩,
      Option.isSome_iff_exists.mp (by simp [parameterTexts, hx])⟩

theorem get?_foldl_put (f : String → Option Json) (keys : List String) (d : Dict String Json)
    (k : String) : (keys.foldl (fun d k => d.put k (f k)) d).get? k =
      if k ∈ keys then f k else d.get? k := by
  induction keys generalizing d with
  | nil => simp
  | cons key rest ih =>
    rw [List.foldl_cons, ih, Dict.get?_put]
    by_cases hrest : k ∈ rest
    · simp [hrest]
    · by_cases hk : k = key
      · simp [hk]
      · simp [hrest, hk]

theorem isInput_inputOf (params : EntityCollectionRequest) : IsInput params (inputOf params) := by
  intro k
  rw [inputOf, get?_foldl_put]
  split
  · rfl
  · rename_i hk
    cases hv : parameterJson params k with
    | none => rfl
    | some v =>
      obtain ⟨⟨name, hname⟩, -⟩ := parameterTexts_of_parameterJson hv
      exact absurd (List.mem_map.mpr ⟨_, hname, rfl⟩) hk

theorem valuesOf_flatMap {table : List (String × String)} (hn : (table.map Prod.fst).Nodup)
    (texts : String → List String) {name key : String} (h : (name, key) ∈ table) :
    valuesOf (table.flatMap fun p => (texts p.2).map fun text => (p.1, text)) name = texts key := by
  induction table with
  | nil => simp at h
  | cons p rest ih =>
    rw [List.map_cons, List.nodup_cons] at hn
    rw [List.flatMap_cons, valuesOf_append]
    have hself : ∀ (q : String × String), valuesOf ((texts q.2).map fun text => (q.1, text)) q.1 =
        texts q.2 := by
      intro q
      rw [valuesOf, List.filterMap_map]
      simp
    rcases List.mem_cons.mp h with rfl | h
    · have hrest : valuesOf (rest.flatMap fun p => (texts p.2).map fun text => (p.1, text)) name =
          [] := by
        refine valuesOf_eq_nil_iff.mpr fun f hf heq => ?_
        obtain ⟨q, hq, hf⟩ := List.mem_flatMap.mp hf
        obtain ⟨text, -, rfl⟩ := List.mem_map.mp hf
        exact hn.1 (List.mem_map.mpr ⟨q, hq, heq⟩)
      rw [hself, hrest, List.append_nil]
    · have hne : p.1 ≠ name := fun heq => hn.1 (List.mem_map.mpr ⟨_, h, heq.symm⟩)
      have hnone : valuesOf ((texts p.2).map fun text => (p.1, text)) name = [] := by
        refine valuesOf_eq_nil_iff.mpr fun f hf => ?_
        obtain ⟨text, -, rfl⟩ := List.mem_map.mp hf
        exact hne
      rw [hnone, List.nil_append, ih hn.2 h]

/-- The parameters that the program knows. -/
def isKnown (p : String × String) : Bool := (collectionParameters.map Prod.fst).contains p.1

/-- Other parameters do not change the values of a known one. -/
theorem valuesOf_filter_isKnown (form : List (String × String)) {name key : String}
    (h : (name, key) ∈ collectionParameters) :
    valuesOf (form.filter isKnown) name = valuesOf form name := by
  rw [valuesOf, List.filterMap_filter]
  refine congrArg (fun f => List.filterMap f form) (funext fun p => ?_)
  by_cases hp : p.1 = name
  · have hknown : isKnown p = true := by
      rw [isKnown, hp, List.contains_iff_mem]
      exact List.mem_map.mpr ⟨_, h, rfl⟩
    rw [if_pos hknown]
  · rw [if_neg hp, ite_self]

theorem collectionInput_eq {form : List (String × String)} {value : String → Json}
    {names : List String} (h : ∀ name ∈ names, ∀ key, collectionParameters.lookup name = some key →
      parameterValue name (valuesOf form name) = .ok (value key)) (input : Dict String Json) :
    ∃ out, collectionInput form names input = .ok out ∧ ∀ k, out.get? k =
      if ∃ name ∈ names, collectionParameters.lookup name = some k then some (value k)
      else input.get? k := by
  induction names generalizing input with
  | nil => exact ⟨input, rfl, by simp⟩
  | cons name rest ih =>
    have hrest := fun n hn => h n (List.mem_cons_of_mem name hn)
    cases hkey : collectionParameters.lookup name with
    | none =>
      obtain ⟨out, hout, hget⟩ := ih hrest input
      refine ⟨out, by rw [collectionInput, hkey]; exact hout, fun k => ?_⟩
      rw [hget k]
      simp [hkey]
    | some key =>
      have hvalue := h name List.mem_cons_self key hkey
      obtain ⟨out, hout, hget⟩ := ih hrest (input.set key (value key))
      refine ⟨out, by rw [collectionInput, hkey, hvalue]; exact hout, fun k => ?_⟩
      rw [hget k, Dict.get?_set]
      by_cases hk : k = key
      · subst hk
        simp [hkey]
      · have hne : key ≠ k := fun h => hk h.symm
        simp [hkey, hk, hne]

theorem parameterTexts_ne_nil {params : EntityCollectionRequest} (h : NonEmptyLists params)
    {key : String} {texts : List String} (ht : parameterTexts params key = some texts) :
    texts ≠ [] := by
  rintro rfl
  unfold parameterTexts at ht
  split at ht
  case h_1 | h_2 | h_3 | h_6 =>
    obtain ⟨x, -, hx⟩ := Option.map_eq_some_iff.mp ht
    simp at hx
  case h_4 => exact h.entityType ht
  case h_5 => exact h.trustMarkType ht
  case h_7 => exact h.entityClaims ht
  case h_8 => exact h.infoClaims ht
  case h_9 => exact h.locale ht
  case h_10 => simp at ht

section RoundTrip

variable {P : Platform} {host : CollectionHost} {p q : EntityCollectionRequest}
  {input : Dict String Json} {form : List (String × String)}

/-- The values of a known parameter in a form of parameters. -/
theorem valuesOf_form (hform : form.filter isKnown = serializeCollectionParams p)
    {name key : String} (h : (name, key) ∈ collectionParameters) :
    valuesOf form name = (parameterTexts p key).getD [] := by
  rw [← valuesOf_filter_isKnown form h, hform]
  exact valuesOf_flatMap (by decide) (fun key => (parameterTexts p key).getD []) h

/-- A form of accepted parameters is read as what the schema makes of them. -/
theorem parse_serialize (hinput : IsInput p input)
    (haccepted : entityCollectionRequestSchema P host input = some q) (hlists : NonEmptyLists p)
    (hform : form.filter isKnown = serializeCollectionParams p) :
    parseCollectionParams P host form = .ok q := by
  obtain ⟨-, hlimit⟩ := entityCollectionRequestSchema_eq hinput haccepted
  have hmem : ∀ {name key}, collectionParameters.lookup name = some key →
      (name, key) ∈ collectionParameters :=
    fun h => (lookup_eq_some_iff_mem (by decide) _ _).mp h
  have hnames : ∀ name, name ∈ (form.map Prod.fst).eraseDups ↔ valuesOf form name ≠ [] := by
    intro name
    rw [List.mem_eraseDups, ne_eq, valuesOf_eq_nil_iff]
    simp
  -- What the form has under a known name is read as the value of the parameter.
  have hread : ∀ name ∈ (form.map Prod.fst).eraseDups, ∀ key,
      collectionParameters.lookup name = some key → ∃ v, parameterJson p key = some v ∧
        parameterValue name (valuesOf form name) = .ok v := by
    intro name hname key hkey
    have hvalues := valuesOf_form hform (hmem hkey)
    have hsome : ∃ texts, parameterTexts p key = some texts := by
      cases ht : parameterTexts p key with
      | none =>
        rw [ht] at hvalues
        exact absurd hvalues ((hnames name).mp hname)
      | some texts => exact ⟨texts, rfl⟩
    obtain ⟨texts, ht⟩ := hsome
    rw [hvalues, ht]
    exact parameterValue_texts hlimit (hmem hkey) ht
  have hloop : ∀ name ∈ (form.map Prod.fst).eraseDups, ∀ key,
      collectionParameters.lookup name = some key →
        parameterValue name (valuesOf form name) = .ok ((parameterJson p key).getD .null) := by
    intro name hname key hkey
    obtain ⟨v, hv, hvalue⟩ := hread name hname key hkey
    rw [hvalue, hv, Option.getD_some]
  obtain ⟨out, hout, hget⟩ := collectionInput_eq hloop .empty
  have hsame : ∀ k, out.get? k = input.get? k := by
    intro k
    rw [hget, hinput k]
    split
    · rename_i hex
      obtain ⟨name, hname, hkey⟩ := hex
      obtain ⟨v, hv, -⟩ := hread name hname k hkey
      rw [hv, Option.getD_some]
    · rename_i hno
      cases hv : parameterJson p k with
      | none => rfl
      | some v =>
        obtain ⟨⟨name, hname⟩, texts, ht⟩ := parameterTexts_of_parameterJson hv
        refine absurd ⟨name, (hnames name).mpr ?_,
          (lookup_eq_some_iff_mem (by decide) _ _).mpr hname⟩ hno
        rw [valuesOf_form hform hname, ht]
        exact parameterTexts_ne_nil hlists ht
  unfold parseCollectionParams
  rw [hout]
  change (match entityCollectionRequestSchema P host out with
    | some params => pure params
    | none => throw _) = _
  rw [entityCollectionRequestSchema_congr hsame, haccepted]
  rfl

end RoundTrip

/-! ## Contexts -/

theorem sortedSet_congr {a b : List String} (h : ∀ x, x ∈ a ↔ x ∈ b) :
    sortedSet a = sortedSet b := by
  have hperm : a.dedup.Perm b.dedup := by
    rw [List.perm_ext_iff_of_nodup (List.nodup_dedup a) (List.nodup_dedup b)]
    intro x
    rw [List.mem_dedup, List.mem_dedup, h]
  have hsorted : ∀ l : List String,
      (l.insertionSort fun a b => textLe a b).Pairwise fun a b => textLe a b = true := by
    intro l
    have htotal : Std.Total fun a b : String => textLe a b = true :=
      ⟨fun a b => by simpa using textLe_total a b⟩
    have htrans : IsTrans String fun a b => textLe a b = true := ⟨fun _ _ _ => textLe_trans⟩
    exact List.pairwise_insertionSort _ l
  have heq : a.dedup.insertionSort (fun a b => textLe a b) =
      b.dedup.insertionSort fun a b => textLe a b := by
    refine List.Perm.eq_of_pairwise (fun x y _ _ => textLe_antisymm) (hsorted _) (hsorted _) ?_
    exact (List.perm_insertionSort _ _).trans (hperm.trans (List.perm_insertionSort _ _).symm)
  rw [sortedSet, sortedSet, heq]

theorem SameValues.map_sortedSet {a b : Option (List String)} (h : SameValues a b) :
    a.map sortedSet = b.map sortedSet := by
  cases a with
  | none =>
    cases b with
    | none => rfl
    | some b => simpa using h.isSome
  | some a =>
    cases b with
    | none => simpa using h.isSome
    | some b => exact congrArg some (sortedSet_congr h.mem_iff)

/-- Requests have one context exactly when they have the same parameters but for the page. -/
theorem collectionContext_eq_iff {host : CollectionHost} {p q : EntityCollectionRequest} :
    collectionContext host p = collectionContext host q ↔ SameContext p q := by
  constructor
  · exact sameContext_of_eq
  · intro h
    have hparams : contextParameters p = contextParameters q := by
      rw [contextParameters, contextParameters, h.entityClaims.map_sortedSet,
        h.entityType.map_sortedSet, h.infoClaims.map_sortedSet, h.locale.map_sortedSet, h.query,
        h.trustAnchor, h.trustMarkType.map_sortedSet]
    rw [collectionContext, collectionContext, hparams]

/-! ## The round trip -/

/-- `z.url()` gives a text back without the white space around it. -/
def TrimsUrls (P : Platform) : Prop :=
  ∀ value url, P.zodUrl value = some url → url = trim value

/-- A form of accepted parameters, with any others in it, is read as these, with the Trust Anchor as
the URL check gives it back: without the white space around it. Requests have one context exactly when
they have the same parameters but for the page. -/
theorem collectionParams_roundTrip :
    (∀ (P : Platform), TrimsUrls P → ∀ (host : CollectionHost) (p q : EntityCollectionRequest)
      (input : Dict String Json) (form : List (String × String)), IsInput p input →
      entityCollectionRequestSchema P host input = some q → NonEmptyLists p →
      form.filter isKnown = serializeCollectionParams p →
      parseCollectionParams P host form =
          .ok { p with trustAnchor := p.trustAnchor.map trim } ∧
        ((∀ id, p.trustAnchor = some id → trim id = id) →
          parseCollectionParams P host form = .ok p)) ∧
    ∀ (host : CollectionHost) (p q : EntityCollectionRequest),
      collectionContext host p = collectionContext host q ↔ SameContext p q := by
  refine ⟨fun P htrims host p q input form hinput haccepted hlists hform => ?_, fun host p q =>
    collectionContext_eq_iff⟩
  have hparsed : parseCollectionParams P host form =
      .ok { p with trustAnchor := p.trustAnchor.map trim } := by
    have hsame : p.trustAnchor.bind P.zodUrl =
        p.trustAnchor.map trim := by
      cases hanchor : p.trustAnchor with
      | none => rfl
      | some id =>
        obtain ⟨url, hid⟩ := zodUrl_of_accepted hinput haccepted hanchor
        rw [Option.bind_some, Option.map_some, hid, htrims id url hid]
    rw [parse_serialize hinput haccepted hlists hform,
      (entityCollectionRequestSchema_eq hinput haccepted).1, hsame]
  refine ⟨hparsed, fun hbare => ?_⟩
  rw [hparsed]
  cases hanchor : p.trustAnchor with
  | none => rw [Option.map_none, ← hanchor]
  | some id => rw [Option.map_some, hbare id hanchor, ← hanchor]

/-- A platform whose URL check removes the white space around a URL. -/
def trimmingPlatform : Platform :=
  { tablePlatform [] with
    zodUrl := fun value =>
      if isHttps (trim value) then some (trim value) else none }

theorem trimmingPlatform_trims : TrimsUrls trimmingPlatform := by
  intro value url h
  simp only [trimmingPlatform, Option.ite_none_right_eq_some, Option.some.injEq] at h
  exact h.2.symm

def plainHost : CollectionHost where
  numberText := decimalText
  toLowerCase := id
  isLanguageTag _ := true

/-- Parameters with one that is not known between them. -/
theorem collectionParams_roundTrip_mixed :
    parseCollectionParams trimmingPlatform plainHost
        [("limit", "5"), ("trust_anchor", "https://ta.example"), ("x", "y"), ("locale", "de"),
          ("locale", "fr")] =
      .ok { limit := some 5, trustAnchor := some "https://ta.example", locale := some ["de", "fr"] } := by
  have haccepted : (entityCollectionRequestSchema trimmingPlatform plainHost (inputOf
      { limit := some 5, trustAnchor := some "https://ta.example"
        locale := some ["de", "fr"] })).isSome = true := by decide +kernel
  obtain ⟨q, hq⟩ := Option.isSome_iff_exists.mp haccepted
  refine (collectionParams_roundTrip.1 trimmingPlatform trimmingPlatform_trims plainHost
    { limit := some 5, trustAnchor := some "https://ta.example", locale := some ["de", "fr"] } q _ _
    (isInput_inputOf _) hq ⟨nofun, nofun, nofun, nofun, nofun⟩ (by decide +kernel)).2 ?_
  rintro _ ⟨⟩
  decide +kernel

/-- White space before the Trust Anchor is accepted, and lost. -/
theorem trustAnchor_trimmed :
    ¬ ∀ (P : Platform) (host : CollectionHost) (p q : EntityCollectionRequest)
      (input : Dict String Json), IsInput p input →
      entityCollectionRequestSchema P host input = some q → NonEmptyLists p →
      parseCollectionParams P host (serializeCollectionParams p) = .ok p := by
  intro h
  have haccepted : (entityCollectionRequestSchema trimmingPlatform plainHost
      (inputOf { trustAnchor := some " https://ta.example" })).isSome = true := by decide +kernel
  obtain ⟨q, hq⟩ := Option.isSome_iff_exists.mp haccepted
  have hsame := h trimmingPlatform plainHost { trustAnchor := some " https://ta.example" } q _
    (isInput_inputOf _) hq ⟨nofun, nofun, nofun, nofun, nofun⟩
  have htrimmed : (parseCollectionParams trimmingPlatform plainHost
      (serializeCollectionParams { trustAnchor := some " https://ta.example" })).toOption =
        some { trustAnchor := some "https://ta.example" } := by decide +kernel
  rw [hsame] at htrimmed
  exact absurd htrimmed (by decide)

end OidFed
