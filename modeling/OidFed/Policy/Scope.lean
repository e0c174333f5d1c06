import OidFed.Js.Split
import OidFed.Policy.Conflicts
import OidFed.Policy.Outcome

/-!
# The policy of `scope`

`scope` is a string of tokens with spaces between them, and the operators work on arrays. The
string of the metadata is split before the operators and an array is joined after them; a value
that an operator puts in place of an absent `scope` is not.

* `ScopeKept`: what is left is a string, or nothing, with the tokens that the operators left.
* `ScopeFits`: which operators, beside which `scope` of the metadata, keep it so.
* `scopeKept_iff`: the scope is kept exactly when the operators fit.
-/

namespace OidFed

open Js UpTo PolicyOperator

/-- `scope` as the operators see it. -/
def normalizedScope : Option Json → Option Json
  | some (.str s) => some (.arr ((normalizeScope s).map .str))
  | c => c

/-- The tokens of a string, the elements of an array. -/
def tokenSet : Option Json → Set Json
  | none => ∅
  | some (.str s) => {x | ∃ t ∈ normalizeScope s, x = .str t}
  | some (.arr l) => {x | x ∈ l}
  | some v => {v}

/-- A text that stands in a string of tokens as itself. -/
def IsToken (x : Json) : Prop := ∃ t, x = .str t ∧ t ≠ "" ∧ ' ' ∉ t.toList

/-- The scope after the operators `ops` is a string or absent, with the tokens that the operators
make of the tokens before. -/
structure ScopeKept (path : String) (ops : ParameterPolicy) (before after : Option Json) : Prop where
  text : ∀ v, after = some v → v.isString = true
  tokens : ∀ r, applyOperators path (sortedOps operators ops) (normalizedScope before) = .ok r →
    tokenSet after = tokenSet r

/-- A fixed value is a string, or an array of tokens where a string has been published. Without one
what is added to a string is an array of tokens, and nothing but a string takes the place of an
absent scope. -/
def ScopeFits (ops : ParameterPolicy) (before : Option Json) : Prop :=
  match ops.get? value.text with
  | some m =>
    m = .null ∨ m.isString = true ∨
      (∃ s, before = some (.str s)) ∧ ∃ l, m = .arr l ∧ ∀ x ∈ l, IsToken x
  | none =>
    match before with
    | none => ops.get? add.text = none ∧ ∀ d, ops.get? default.text = some d → d.isString = true
    | some (.str _) => ∀ a, ops.get? add.text = some a → ∀ x ∈ asItems a, IsToken x
    | some _ => False

/-! ## Tokens -/

theorem isToken_normalizeScope {s t : String} (h : t ∈ normalizeScope s) : IsToken (.str t) := by
  rw [normalizeScope, List.mem_filter] at h
  obtain ⟨hmem, hne⟩ := h
  obtain ⟨part, hpart, rfl⟩ := List.mem_map.mp hmem
  refine ⟨_, rfl, by simpa using hne, ?_⟩
  rw [String.toList_ofList]
  exact Json.not_mem_splitOn ' ' s.toList part hpart

/-- Tokens that are joined are split into themselves. -/
theorem normalizeScope_intercalate {ts : List String} (h : ∀ t ∈ ts, IsToken (.str t)) :
    normalizeScope (" ".intercalate ts) = ts := by
  have htoken : ∀ t ∈ ts, t ≠ "" ∧ ' ' ∉ t.toList := by
    intro t ht
    obtain ⟨t', heq, hprop⟩ := h t ht
    obtain rfl := Json.str.inj heq
    exact hprop
  cases hts : ts with
  | nil => decide
  | cons first rest =>
    rw [← hts]
    have hsplit : Json.splitText ' ' (" ".intercalate ts) = ts := by
      rw [Json.splitText, String.toList_intercalate]
      rw [show " ".toList = [' '] from rfl, List.splitOn_intercalate]
      · simp only [List.map_map, Function.comp_def, String.ofList_toList, List.map_id']
      · intro part hpart
        obtain ⟨t, ht, rfl⟩ := List.mem_map.mp hpart
        exact (htoken t ht).2
      · simp [hts]
    rw [normalizeScope, hsplit, List.filter_eq_self]
    exact fun t ht => by simpa using (htoken t ht).1

theorem exists_texts {l : List Json} (h : ∀ x ∈ l, IsToken x) :
    ∃ ts : List String, l = ts.map .str ∧ ∀ t ∈ ts, IsToken (.str t) := by
  induction l with
  | nil => exact ⟨[], rfl, by simp⟩
  | cons x l ih =>
    obtain ⟨t, rfl, ht⟩ := h x List.mem_cons_self
    obtain ⟨ts, rfl, hts⟩ := ih fun y hy => h y (List.mem_cons_of_mem _ hy)
    exact ⟨t :: ts, rfl, List.forall_mem_cons.mpr ⟨⟨t, rfl, ht⟩, hts⟩⟩

theorem denormalizeScope_texts (numberText : Rat → String) (ts : List String) :
    denormalizeScope numberText (ts.map .str) = some (" ".intercalate ts) := by
  have hitems : Json.itemTexts numberText (ts.map .str) = some ts := by
    induction ts with
    | nil => rfl
    | cons t ts ih =>
      simp only [List.map_cons, Json.itemTexts, ih]
      rfl
  rw [denormalizeScope, Json.join, hitems]
  rfl

/-- A text that is joined has the elements for its tokens exactly when they are tokens. -/
theorem tokenSet_denormalize {numberText : Rat → String} {l : List Json} {text : String}
    (h : denormalizeScope numberText l = some text) :
    tokenSet (some (.str text)) = tokenSet (some (.arr l)) ↔ ∀ x ∈ l, IsToken x := by
  constructor
  · intro heq x hx
    have hmem : x ∈ tokenSet (some (.str text)) := by
      rw [heq]
      exact hx
    obtain ⟨t, ht, rfl⟩ := hmem
    exact isToken_normalizeScope ht
  · intro htokens
    obtain ⟨ts, rfl, hts⟩ := exists_texts htokens
    rw [denormalizeScope_texts] at h
    obtain rfl := Option.some.inj h
    ext x
    simp only [tokenSet, normalizeScope_intercalate hts, Set.mem_ofPred_eq, List.mem_map, eq_comm]

/-! ## What is left of the scope -/

/-- What the operators leave that the string keeps. -/
def Kept (before r : Option Json) : Prop :=
  r = none ∨ (∃ s, r = some (.str s)) ∨
    (∃ s, before = some (.str s)) ∧ ∃ l, r = some (.arr l) ∧ ∀ x ∈ l, IsToken x

section Outcome

variable {numberText : Rat → String} {entityType : String} {ops : ParameterPolicy}
  {before after : Option Json}

/-- The application to `scope`: the operators, and then a string for the array that a string has
become. -/
theorem applyScope_eq_ok
    (h : applyParameter numberText operators entityType "scope" ops before = .ok after) :
    ∃ r, applyOperators (entityType ++ "." ++ "scope") (sortedOps operators ops)
      (normalizedScope before) = .ok r ∧ ((∃ s, before = some (.str s)) ∧ (∃ l text, r = some (.arr l) ∧
          denormalizeScope numberText l = some text ∧ after = some (.str text)) ∨
        after = r ∧ ¬ ((∃ s, before = some (.str s)) ∧ ∃ l, r = some (.arr l))) := by
  have hname : inherited "scope" = false := by decide
  simp only [applyParameter, readOr_of_not_inherited _ hname] at h
  split at h
  · cases h
  cases before with
  | none => exact ⟨after, h, .inr ⟨rfl, by simp⟩⟩
  | some v =>
    cases v with
    | str s =>
      obtain ⟨r, hr, hencode⟩ := bind_eq_ok.mp h
      refine ⟨r, hr, ?_⟩
      cases r with
      | none => exact .inr ⟨(Except.ok.inj hencode).symm, by simp⟩
      | some w =>
        cases w with
        | arr l =>
          dsimp only at hencode
          cases htext : denormalizeScope numberText l with
          | none =>
            rw [htext] at hencode
            cases hencode
          | some text =>
            rw [htext] at hencode
            exact .inl ⟨⟨s, rfl⟩, l, text, rfl, htext, (Except.ok.inj hencode).symm⟩
        | _ => exact .inr ⟨(Except.ok.inj hencode).symm, by simp⟩
    | _ => exact ⟨after, h, .inr ⟨rfl, by simp⟩⟩

/-- The scope is kept exactly when the operators leave what a string keeps. -/
theorem scopeKept_iff_kept {path : String} {r : Option Json}
    (hr : applyOperators path (sortedOps operators ops) (normalizedScope before) = .ok r)
    (hafter : (∃ s, before = some (.str s)) ∧ (∃ l text, r = some (.arr l) ∧
        denormalizeScope numberText l = some text ∧ after = some (.str text)) ∨
      after = r ∧ ¬ ((∃ s, before = some (.str s)) ∧ ∃ l, r = some (.arr l))) :
    ScopeKept path ops before after ↔ Kept before r := by
  have hunique : ∀ {r'}, applyOperators path (sortedOps operators ops) (normalizedScope before) =
      .ok r' → r' = r := fun h => Except.ok.inj (h.symm.trans hr)
  rcases hafter with ⟨hstring, l, text, rfl, htext, rfl⟩ | ⟨rfl, hnot⟩
  · have htokens := tokenSet_denormalize htext
    constructor
    · intro h
      exact .inr (.inr ⟨hstring, l, rfl, htokens.mp (h.tokens _ hr)⟩)
    · intro h
      refine ⟨?_, fun r' hr' => ?_⟩
      · rintro v ⟨⟩
        rfl
      · obtain rfl := hunique hr'
        refine htokens.mpr ?_
        rcases h with ⟨⟨⟩⟩ | ⟨s, ⟨⟩⟩ | ⟨-, l', hl', hall⟩
        obtain rfl := Json.arr.inj (Option.some.inj hl')
        exact hall
  · constructor
    · intro h
      cases after with
      | none => exact .inl rfl
      | some v =>
        have hv := h.text v rfl
        cases v with
        | str s => exact .inr (.inl ⟨s, rfl⟩)
        | _ => cases hv
    · intro h
      refine ⟨fun v hv => ?_, fun r' hr' => by rw [hunique hr']⟩
      rcases h with rfl | ⟨s, rfl⟩ | ⟨hstring, l, rfl, -⟩
      · cases hv
      · obtain rfl := Option.some.inj hv
        rfl
      · exact absurd ⟨hstring, l, rfl⟩ hnot

end Outcome

section Fits

variable {U : Set Json} {ops : ParameterPolicy} {before : Option Json}

theorem eq_of_deepEqual_token {x y : Json} (hy : IsToken y) (h : deepEqual y x = true) : x = y := by
  obtain ⟨t, rfl, -⟩ := hy
  rw [deepEqual, beq_iff_eq] at h
  exact h

/-- What is left of a fixed array are tokens exactly when its elements are. -/
theorem tokens_fixed (hc : Combined U ops) {l : List Json}
    (hm : ops.get? value.text = some (.arr l)) :
    (∀ x ∈ limit ops (extend ops l), IsToken x) ↔ ∀ x ∈ l, IsToken x := by
  constructor
  · intro h x hx
    refine h x ?_
    have hextend : x ∈ extend ops l := by
      unfold extend
      split
      · exact mem_union_left hx
      · exact hx
    unfold limit
    split
    · rename_i m hs
      have hcomb := hc.combines value subsetOf (by decide) _ m hm hs
      have hcheck : (Json.isArray (.arr l) && isSubset l (asItems m)) = true := hcomb
      rw [Bool.and_eq_true] at hcheck
      exact mem_inter.mpr ⟨hextend, subset_iff.mp hcheck.2 x hx⟩
    · exact hextend
  · intro h x hx
    have hextend := mem_of_mem_limit hx
    unfold extend at hextend
    split at hextend
    · rename_i m ha
      rcases mem_union hextend with hx | hx
      · exact h x hx
      · have hcomb := hc.combines value add (by decide) _ m hm ha
        have hcheck : (Json.isArray (.arr l) && isSubset (asItems m) l) = true := hcomb
        rw [Bool.and_eq_true] at hcheck
        obtain ⟨y, hy, hxy⟩ := subset_iff.mp hcheck.2 x hx
        obtain ⟨t, rfl, -⟩ := h y hy
        rw [eq_of_deepEqual_scalar rfl hxy]
        exact h _ hy
    · exact h x hextend

/-- What is left of a string's tokens and of what is added are tokens exactly when what is added
are tokens. -/
theorem tokens_added (hc : Combined U ops) (hrefl : ∀ x ∈ U, deepEqual x x = true) {l : List Json}
    (hl : ∀ x ∈ l, IsToken x) :
    (∀ x ∈ limit ops (extend ops l), IsToken x) ↔
      ∀ a, ops.get? add.text = some a → ∀ x ∈ asItems a, IsToken x := by
  constructor
  · intro h a ha x hx
    obtain ⟨a, rfl, hmem⟩ := items_of_add hc ha
    obtain ⟨y, hy, hyx⟩ := covers_union_right (l := l) (fun x hx => hrefl x (hmem x hx).1) x hx
    have htoken : IsToken y := by
      rcases mem_union hy with hyl | hya
      · exact hl y hyl
      · refine h y ?_
        unfold limit extend
        simp only [ha, asItems_arr]
        split
        · rename_i s hs
          exact mem_inter.mpr ⟨hy, add_within hc ha hs y hya⟩
        · exact hy
    rw [eq_of_deepEqual_token htoken hyx]
    exact htoken
  · intro h x hx
    have hextend := mem_of_mem_limit hx
    unfold extend at hextend
    split at hextend
    · rename_i m ha
      exact (mem_union hextend).elim (hl x) (h m ha x)
    · exact hl x hextend

theorem kept_iff_fits (hc : Combined U ops) (hrefl : ∀ x ∈ U, deepEqual x x = true) :
    Kept before (produced ops (normalizedScope before)) ↔ ScopeFits ops before := by
  unfold ScopeFits
  cases hm : ops.get? value.text with
  | some m =>
    rw [produced, entering_fixed hm]
    cases m with
    | arr l =>
      have htokens := tokens_fixed hc hm
      simp only [reduceCtorEq, if_false, Option.map_some, onItems, Kept, Option.some.injEq,
        Json.arr.injEq, false_or, Json.isString, Bool.false_eq_true, exists_false,
        exists_eq_left', htokens]
    | _ => simp [onItems, Kept, Json.isString]
  | none =>
    cases before with
    | none =>
      -- the value of `add` or `default` is left as it is
      cases ha : ops.get? add.text with
      | some m =>
        obtain ⟨a, rfl, -⟩ := items_of_add hc ha
        simp [produced, entering, normalizedScope, hm, ha, onItems, Kept]
      | none =>
        cases hd : ops.get? default.text with
        | none => simp [produced, entering, normalizedScope, hm, ha, hd, Kept]
        | some d =>
          cases d <;>
            simp [produced, entering, normalizedScope, hm, ha, hd, onItems, Kept, Json.isString]
    | some v =>
      cases v with
      | str s =>
        have htokens := tokens_added hc hrefl (l := (normalizeScope s).map .str) (by
          intro x hx
          obtain ⟨t, ht, rfl⟩ := List.mem_map.mp hx
          exact isToken_normalizeScope ht)
        rw [normalizedScope, produced, entering_present hm, Option.map_some, onItems]
        constructor
        · rintro (⟨⟨⟩⟩ | ⟨_, ⟨⟩⟩ | ⟨-, l, hl, hall⟩)
          obtain rfl := Json.arr.inj (Option.some.inj hl)
          exact htokens.mp hall
        · exact fun h => .inr (.inr ⟨⟨s, rfl⟩, _, rfl, htokens.mpr h⟩)
      | _ => simp [produced, entering, normalizedScope, hm, onItems, Kept]

end Fits

/-! ## The policy of a chain -/

section Chain

variable {numberText : Rat → String} {stmts : List PolicyStatement}
  {policy : ResolvedMetadataPolicy} {metadata result : FederationMetadata}

/-- A policy that says nothing on the scope. -/
theorem scopeKept_unstated {path : String} {before : Option Json} :
    ScopeKept path .empty before before ↔ ScopeFits .empty before := by
  have hrun : applyOperators path (sortedOps operators .empty) (normalizedScope before) =
      .ok (normalizedScope before) := rfl
  constructor
  · intro h
    cases before with
    | none => exact ⟨rfl, nofun⟩
    | some v =>
      have hv := h.text v rfl
      cases v with
      | str s => exact nofun
      | _ => cases hv
  · intro h
    cases before with
    | none => exact ⟨nofun, fun r hr => by rw [← Except.ok.inj hr]; rfl⟩
    | some v =>
      cases v with
      | str s =>
        refine ⟨fun v hv => by rw [← Option.some.inj hv]; rfl, fun r hr => ?_⟩
        obtain rfl := Except.ok.inj (hrun.symm.trans hr)
        ext x
        simp only [tokenSet, normalizedScope, Set.mem_ofPred_eq, List.mem_map, eq_comm]
      | _ => exact h.elim

/-- What a policy makes of the scope is a string of the tokens that the operators leave, or nothing,
exactly when the operators of the policy fit the scope of the metadata. -/
theorem scopeKept_iff (hparsed : ∀ stmt ∈ stmts, stmt.Drawn {a | Parsed a})
    (hmerge : resolveMetadataPolicy stmts = .ok policy)
    (happly : applyMetadataPolicy numberText metadata policy = .ok result) (entityType : String) :
    ScopeKept (entityType ++ "." ++ "scope") ((parameterPolicy policy entityType "scope").getD .empty)
        (metadataParameter metadata entityType "scope")
        (metadataParameter result entityType "scope") ↔
      ScopeFits ((parameterPolicy policy entityType "scope").getD .empty)
        (metadataParameter metadata entityType "scope") := by
  have hrefl : ∀ x ∈ {a | Parsed a}, deepEqual x x = true := fun x hx => deepEqual_refl_parsed x hx
  obtain ⟨lookup, hl, hupdate⟩ := applyMetadataPolicy_eq_ok.mp happly
  obtain rfl : operators = lookup := Except.ok.inj (buildOperatorLookup_standard.symm.trans hl)
  have hstep := applied_parameter hupdate entityType "scope"
  cases hops : parameterPolicy policy entityType "scope" with
  | none =>
    rw [hops] at hstep
    have hsame : metadataParameter result entityType "scope" =
        metadataParameter metadata entityType "scope" := hstep
    rw [hsame]
    exact scopeKept_unstated
  | some ops =>
    rw [hops] at hstep
    have hc := (resolveMetadataPolicy_chainInv hrefl
      (fun stmt hs => (hparsed stmt hs).at entityType "scope") hmerge).combined ops
      hops
    obtain ⟨r, hr, hafter⟩ := applyScope_eq_ok hstep
    rw [Option.getD_some, scopeKept_iff_kept hr hafter, applyOperators_produced hc hrefl hr]
    exact kept_iff_fits hc hrefl

end Chain

/-- Metadata, or a policy, on the scope only. -/
def onScope {α : Type} (v : α) : Dict String (Dict String α) :=
  Dict.empty.set "openid_relying_party" (Dict.empty.set "scope" v)

/-- A policy that adds one text to the scope. -/
def addsScope (text : String) : ParameterPolicy := Dict.empty.set add.text (.arr [.str text])

theorem addsScope_drawn {text : String} : ∀ stmt ∈
    [({ metadataPolicy := some (onScope (addsScope text)) } : PolicyStatement)],
      stmt.Drawn {a | Parsed a} := by
  intro stmt hstmt entityType paramName ops hops op v hv
  obtain rfl := List.mem_singleton.mp hstmt
  have hparam : ops = addsScope text := by
    simp only [PolicyStatement.parameterPolicy, PolicyStatement.entityTypePolicy, Option.bind_some,
      onScope, Dict.get?_set, Dict.get?_empty] at hops
    split at hops
    · simp only [Option.bind_some, Dict.get?_set, Dict.get?_empty] at hops
      split at hops
      · exact (Option.some.inj hops).symm
      · cases hops
    · cases hops
  subst hparam
  simp only [addsScope, Dict.get?_set, Dict.get?_empty] at hv
  split at hv
  · obtain rfl := Option.some.inj hv
    intro x hx
    obtain rfl := List.mem_singleton.mp hx
    exact parsed_str text
  · cases hv

/-- A token that is added to those of a string. -/
theorem addsScope_kept :
    ScopeKept "openid_relying_party.scope" (addsScope "email") (some (.str "openid  profile"))
      (some (.str "openid profile email")) := by
  have hmerge : resolveMetadataPolicy [{ metadataPolicy := some (onScope (addsScope "email")) }] =
      .ok (onScope (addsScope "email")) := rfl
  have happly : applyMetadataPolicy (fun _ => "") (onScope (.str "openid  profile"))
      (onScope (addsScope "email")) = .ok (onScope (.str "openid profile email")) :=
    toOption_eq_some.mp (by decide +kernel)
  refine (scopeKept_iff addsScope_drawn hmerge happly "openid_relying_party").mpr ?_
  intro a ha x hx
  obtain rfl := Option.some.inj (show some (.arr [.str "email"]) = some a from ha)
  obtain rfl := List.mem_singleton.mp hx
  exact ⟨"email", rfl, by decide, by decide⟩

/-- What is added to an absent scope stays an array. -/
theorem addsScope_array :
    resolveMetadataPolicy [{ metadataPolicy := some (onScope (addsScope "openid")) }] =
        .ok (onScope (addsScope "openid")) ∧
      applyMetadataPolicy (fun _ => "") (Dict.empty.set "openid_relying_party" .empty)
        (onScope (addsScope "openid")) = .ok (onScope (.arr [.str "openid"])) ∧
      ¬ ScopeKept "openid_relying_party.scope" (addsScope "openid") none
        (some (.arr [.str "openid"])) := by
  refine ⟨rfl, rfl, fun h => ?_⟩
  cases h.text _ rfl

end OidFed
