import OidFed.Chain.Links
import OidFed.Policy.Apply
import OidFed.TrustMark

/-!
# Trust Marks of the leaf (`trust-chain/validate.ts`, trust marks)

* `trustMarkIssuersOf`, `trustMarkOwnersOf`: the tables of a trailing Entity Configuration of the
  anchor. `entityJwks`: the keys that the chain itself gives for an issuer.
* `publishedMark`: one published mark; `publishedMarks`: the loop. A loop without errors has
  validated every mark, in order (`publishedMarks_eq_ok`).
-/

namespace OidFed

open Js

/-- The own members of a claim. -/
def ownMembers (v : Option Json) : Dict String Json := Dict.ofEntries (objectEntries v)

/-- The list of issuers for each type. -/
def trustMarkIssuersOf (ta : Payload) : Except Stop (Dict String Json) :=
  if isEC ta then (objectEntries (ta.get? "trust_mark_issuers")).foldlM assignMember .empty
  else .ok .empty

def trustMarkOwnersOf (ta : Payload) : Option (Dict String Json) :=
  if isEC ta && Json.truthy? (ta.get? "trust_mark_owners") then
    some (ownMembers (ta.get? "trust_mark_owners"))
  else none

/-- The keys of the Entity Configuration of a statement, under its issuer. -/
def addEntityKeys (keys : Dict String JWKSet) (es : ParsedEntityStatement) : Dict String JWKSet :=
  match isEC es.payload, statementKeys es.payload with
  | true, some jwks => keys.set ((es.payload.string? "iss").getD "") jwks
  | _, _ => keys

/-- The keys configured for the anchor, and those of the Entity Configurations of the chain. -/
def entityJwks (lastIss : String) (taKeys : Option JWKSet) (parsed : List ParsedEntityStatement) :
    Dict String JWKSet :=
  parsed.foldl addEntityKeys ((Dict.empty).put lastIss taKeys)

/-- What the marks of a leaf are checked against. -/
structure MarkContext where
  trustMarkIssuers : Dict String Json
  trustMarkOwners : Option (Dict String Json)
  entityJwks : Dict String JWKSet
  trustMarkIssuerKeys : Dict String JWKSet
  clockSkew : Rat
  expectedSubject : Option Json

/-- An error about a published mark. -/
def markError (message : String) : ValidationError :=
  { chainError 0 "trust_marks" 16 message with code := .TrustMarkInvalid }

section Marks

variable (P : Platform) (ctx : MarkContext) (clock : Clock)

/-- The keys for an issuer: the caller's, else the chain's. A value that is no string is read as
the property name it converts to. -/
def issuerKeys (tmIss : Option Json) : Except Stop (Option JWKSet) :=
  if !Json.truthy? tmIss then .ok none
  else
    match keysFor ctx.trustMarkIssuerKeys tmIss, P.text tmIss with
    | some jwks, _ => .ok (some jwks)
    | none, none => .error .throws
    | none, some name =>
      match ctx.entityJwks.read name with
      | .own jwks => .ok (some jwks)
      | .undefined => .ok none
      -- the name is no URL, so that the mark is refused before its keys are used
      | .builtin _ => .ok (some [])

/-- The published mark with index `i`: validated, or an error. -/
def publishedMark (i : Nat) (tmRef : Json) : Except Stop (Except ValidationError ValidatedTrustMark) :=
  let trustMark := ((tmRef.get? "trust_mark").bind Json.string?).getD ""
  match decodeEntityStatement P trustMark with
  | .error e => .ok (.error (markError s!"Failed to decode published trust mark: {e.description}"))
  | .ok tmDecoded =>
    if !Json.strictEq (tmRef.get? "trust_mark_type") (tmDecoded.payload.get? "trust_mark_type") then
      .ok (.error (markError "Published trust mark type does not match embedded trust mark type"))
    else do
      let tmIss := tmDecoded.payload.get? "iss"
      match ← issuerKeys P ctx tmIss with
      | none =>
        match P.text tmIss with
        | none => .error .throws
        | some text => return .error (markError
            s!"No trusted federation keys found for published trust mark issuer '{text}'")
      | some jwksForIssuer =>
        let options := { clockSkew := ctx.clockSkew, expectedSubject := ctx.expectedSubject
                         trustMarkOwners := ctx.trustMarkOwners }
        match validateTrustMark P trustMark ctx.trustMarkIssuers jwksForIssuer options clock i with
        | .ok mark => return .ok mark
        | .error (.fail e) =>
          return .error (markError s!"Invalid published trust mark: {e.description}")
        | .error stop => .error stop

/-- The loop over the published marks; `tmRefs` are those from index `i` on. -/
def publishedMarks (i : Nat) : List Json → Except Stop (List ValidationError × List ValidatedTrustMark)
  | [] => .ok ([], [])
  | tmRef :: rest => do
    let outcome ← publishedMark P ctx clock i tmRef
    let (errors, marks) ← publishedMarks (i + 1) rest
    match outcome with
    | .ok mark => return (errors, mark :: marks)
    | .error e => return (e :: errors, marks)

end Marks

section MarksLemmas

variable {P : Platform} {ctx : MarkContext} {clock : Clock}

/-- A loop without errors has validated every mark, in order. -/
theorem publishedMarks_eq_ok {i : Nat} {tmRefs : List Json} {marks : List ValidatedTrustMark}
    (h : publishedMarks P ctx clock i tmRefs = .ok ([], marks)) :
    marks.length = tmRefs.length ∧ ∀ (k : Nat) tmRef m, tmRefs[k]? = some tmRef →
      marks[k]? = some m → publishedMark P ctx clock (i + k) tmRef = .ok (.ok m) := by
  induction tmRefs generalizing i marks with
  | nil =>
    obtain ⟨-, rfl⟩ := Prod.mk.inj (Except.ok.inj h)
    simp
  | cons tmRef rest ih =>
    obtain ⟨outcome, hmark, h⟩ := bind_eq_ok.mp h
    obtain ⟨⟨errors, marks'⟩, hrest, h⟩ := bind_eq_ok.mp h
    cases outcome with
    | error e => simp [pure, Except.pure] at h
    | ok mark =>
      obtain ⟨rfl, rfl⟩ := Prod.mk.inj (Except.ok.inj h)
      obtain ⟨hlen, hall⟩ := ih hrest
      refine ⟨by simp [hlen], fun k r m hr hm => ?_⟩
      cases k with
      | zero =>
        obtain rfl : tmRef = r := by simpa using hr
        obtain rfl : mark = m := by simpa using hm
        exact hmark
      | succ k =>
        have := hall k r m (by simpa using hr) (by simpa using hm)
        rwa [show i + (k + 1) = i + 1 + k by omega]

/-- A published mark that is validated: against the table, under the keys for its issuer. -/
theorem publishedMark_eq_ok {i : Nat} {tmRef : Json} {jwt : String} {m : ValidatedTrustMark}
    (hjwt : tmRef.get? "trust_mark" = some (.str jwt))
    (h : publishedMark P ctx clock i tmRef = .ok (.ok m)) :
    ∃ es jwksForIssuer, Json.strictEq (tmRef.get? "trust_mark_type")
        (es.payload.get? "trust_mark_type") = true ∧
      issuerKeys P ctx (es.payload.get? "iss") = .ok (some jwksForIssuer) ∧
      MarkChecked P jwt ctx.trustMarkIssuers jwksForIssuer
        { clockSkew := ctx.clockSkew, expectedSubject := ctx.expectedSubject
          trustMarkOwners := ctx.trustMarkOwners } clock i es m := by
  unfold publishedMark at h
  simp only [hjwt, Option.bind_some, Json.string?, Option.getD_some] at h
  cases hd : decodeEntityStatement P jwt with
  | error e => simp [hd] at h
  | ok es =>
    simp only [hd] at h
    split at h
    · simp at h
    rename_i htype
    obtain ⟨keys, hkeys, h⟩ := bind_eq_ok.mp h
    cases keys with
    | none =>
      simp only at h
      split at h <;> simp [pure, Except.pure] at h
    | some jwks =>
      simp only at h
      split at h
      · rename_i mark hmark
        obtain rfl : mark = m := Except.ok.inj (Except.ok.inj h)
        obtain ⟨es', hchecked⟩ := validateTrustMark_eq_ok hmark
        obtain rfl : es = es' := Except.ok.inj (hd.symm.trans hchecked.decoded)
        exact ⟨es, jwks, by simpa using htype, hkeys, hchecked⟩
      · simp [pure, Except.pure] at h
      · simp at h

end MarksLemmas

/-- The marks that a leaf publishes. -/
def publishedTrustMarks (leaf : Payload) : List Json :=
  ((leaf.get? "trust_marks").bind Json.items?).getD []

section Stage

variable (P : Platform) (trustAnchors : TrustAnchorSet) (options : TrustChainValidationOptions)
  (verifyMarks : Bool) (clock : Clock) (parsed : List ParsedEntityStatement)

/-- What the marks of the leaf of a chain are checked against. -/
def markContext : Except Stop MarkContext := do
  let leaf := (statementAt parsed 0).payload
  let ta := (statementAt parsed (parsed.length - 1)).payload
  return {
    trustMarkIssuers := ← trustMarkIssuersOf ta
    trustMarkOwners := trustMarkOwnersOf ta
    entityJwks := entityJwks ((ta.string? "iss").getD "") (keysFor trustAnchors (ta.get? "iss")) parsed
    trustMarkIssuerKeys := options.trustMarkIssuerKeys
    clockSkew := options.clockSkew
    expectedSubject := leaf.get? "iss" }

/-- Validate the marks of the leaf, where that is asked for. -/
def leafTrustMarks : Except Stop (List ValidationError × List ValidatedTrustMark) :=
  let tmRefs := publishedTrustMarks (statementAt parsed 0).payload
  if !verifyMarks || tmRefs.isEmpty then .ok ([], [])
  else do publishedMarks P (← markContext trustAnchors options parsed) clock 0 tmRefs

end Stage

end OidFed
