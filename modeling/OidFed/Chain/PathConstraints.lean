import OidFed.Chain.Inside

/-!
# Naming and path length constraints of a valid chain

* `ConstraintsHold`: the law. Below the issuer of the statement at position `j` stand the subjects
  of the statements at positions up to `j`, and `j - 1` intermediates.
* `constraintsHold_iff`: the check leaves the subject of the constraining statement itself out. A
  valid chain satisfies the law exactly when these subjects do, from position 2 on; at position 1
  the subject is the leaf. An accepted chain of own members is valid.
-/

namespace OidFed

open Js

/-- The naming constraints that a statement carries. -/
def namingConstraintsOf (es : ParsedEntityStatement) : Option NamingConstraints :=
  (constraintsOf es).bind TrustChainConstraints.namingConstraints

def maxPathLengthOf (es : ParsedEntityStatement) : Option Rat :=
  (constraintsOf es).bind TrustChainConstraints.maxPathLength

/-- Every entity below the issuer of a statement satisfies its naming constraints, and no more
intermediates than it allows stand between its issuer and the leaf. -/
def ConstraintsHold (P : Platform) (statements : List ParsedEntityStatement) : Prop :=
  ∀ (j : Nat) es, statements[j]? = some es →
    (∀ n, namingConstraintsOf es = some n → ∀ i ≤ j, ∀ s, statements[i]? = some s →
      checkNamingConstraints P n (subjectOf s) = .ok true) ∧
    ∀ m, maxPathLengthOf es = some m → (j : Rat) - 1 ≤ m

section Hold

variable {P : Platform} {trustAnchors : TrustAnchorSet} {options : TrustChainValidationOptions}
  {clock : Clock} {chain : List String}

/-- What the constraints loop has checked of a statement. -/
theorem constraintErrors_eq_nil {parsed : List ParsedEntityStatement} {j : Nat}
    {es : ParsedEntityStatement} (h : constraintErrors P parsed j es = .ok []) :
    (∀ n, namingConstraintsOf es = some n → ∀ i < j, ∀ s, parsed[i]? = some s →
      checkNamingConstraints P n (subjectOf s) = .ok true) ∧
    ∀ m, maxPathLengthOf es = some m → (j : Rat) - 1 ≤ m := by
  unfold constraintErrors at h
  simp only [namingConstraintsOf, maxPathLengthOf]
  cases hc : constraintsOf es with
  | none => simp
  | some c =>
    rw [hc] at h
    obtain ⟨error, hcheck, h⟩ := bind_eq_ok.mp h
    cases error with
    | some e => simp [pure, Except.pure] at h
    | none =>
      obtain ⟨hpath, hnaming⟩ := checkConstraints_eq_none hcheck
      exact ⟨fun n hn i hi s hs => hnaming n hn i s hi hs, hpath⟩

/-- A valid chain satisfies its constraints exactly when the subject of every constraining
statement above the first one does; and a chain of own members is valid where it is accepted. -/
theorem constraintsHold_iff {result : ValidationResult} {c : AuthenticatedChain}
    (h : validateTrustChain P chain trustAnchors options clock = .ok result)
    (hchain : result.chain? = some c) :
    (OwnMembers options c.statements → ∃ v pending, result = .valid v pending) ∧
    ∀ v pending, result = .valid v pending →
      (ConstraintsHold P v.statements ↔
        ∀ (j : Nat) es n, 2 ≤ j → v.statements[j]? = some es → namingConstraintsOf es = some n →
          checkNamingConstraints P n (subjectOf es) = .ok true) := by
  refine ⟨validateTrustChain_inside h hchain, ?_⟩
  rintro v pending rfl
  obtain ⟨hacc, hev⟩ := validateTrustChainImpl_eq_valid h
  constructor
  · intro hold j es n _ hes hn
    exact (hold j es hes).1 n hn j (le_refl j) es hes
  · intro hsubjects j es hes
    cases j with
    | zero =>
      have hnone := hacc.leaf_constraints hes
      exact ⟨by simp [namingConstraintsOf, hnone], by simp [maxPathLengthOf, hnone]⟩
    | succ j =>
      obtain ⟨hnaming, hpath⟩ :=
        constraintErrors_eq_nil (hev.constraints (j + 1) es (by omega) hes)
      refine ⟨fun n hn i hi s hs => ?_, hpath⟩
      rcases Nat.lt_or_eq_of_le hi with hlt | rfl
      · exact hnaming n hn i hlt s hs
      · obtain rfl : es = s := Option.some.inj (hes.symm.trans hs)
        cases j with
        | succ j => exact hsubjects (j + 2) es n (by omega) hes hn
        | zero =>
          -- the subject of the first statement above the leaf is the leaf
          obtain ⟨jwt, s₀, iss, hjwt, hs₀, hiss, hsub₀, -⟩ := hacc.leaf
          obtain ⟨⟨iss', hiss', hsub⟩, -⟩ := hacc.link hjwt hs₀ hes
          have hsame : subjectOf es = subjectOf s₀ := by
            obtain rfl : iss = iss' := by simpa [hiss] using hiss'
            simp [subjectOf, Payload.string?_eq_some.mpr hsub, Payload.string?_eq_some.mpr hsub₀]
          rw [hsame]
          exact hnaming n hn 0 (by omega) s₀ hs₀

end Hold

/-- A chain over an intermediate, with a name that its superior, the anchor, excludes. -/
def chainOverIntermediate (excluded : String) : List (String × SignedJwt) :=
  [("rp", signedJwt JwtTyp.entityStatement "rp-key"
      (statementClaims "https://rp.example" "https://rp.example" "rp-key"
        [("authority_hints", .arr [.str "https://int.example"])])),
    ("int-about-rp", signedJwt JwtTyp.entityStatement "int-key"
      (statementClaims "https://int.example" "https://rp.example" "rp-key" [])),
    ("ta-about-int", signedJwt JwtTyp.entityStatement "ta-key"
      (statementClaims "https://ta.example" "https://int.example" "int-key"
        [("constraints", .obj
          [("naming_constraints", .obj [("excluded", .arr [.str excluded])])])]))]

/-- The validation of that chain. -/
def validateOverIntermediate (excluded : String) : Except JsError ValidationResult :=
  validateTrustChain (tablePlatform (chainOverIntermediate excluded))
    ["rp", "int-about-rp", "ta-about-int"] exampleAnchors {} fun _ => 1500

theorem constraintsHold_otherExcluded : ∃ v pending,
    validateOverIntermediate "other.example" = .ok (.valid v pending) ∧
      ConstraintsHold (tablePlatform (chainOverIntermediate "other.example")) v.statements := by
  obtain ⟨v, pending, hvalid, hall⟩ := exists_valid (r := validateOverIntermediate "other.example")
    (p := fun v => (v.statements.drop 2).all fun es => (namingConstraintsOf es).all fun n =>
      (checkNamingConstraints (tablePlatform (chainOverIntermediate "other.example")) n
        (subjectOf es)).toOption == some true) (by decide +kernel)
  refine ⟨v, pending, hvalid,
    ((constraintsHold_iff hvalid rfl).2 v pending rfl).mpr fun j es n hj hes hn => ?_⟩
  have hmem : es ∈ v.statements.drop 2 := List.mem_of_getElem? (i := j - 2) (by
    rw [List.getElem?_drop, Nat.add_sub_cancel' hj, hes])
  have hcheck := List.all_eq_true.mp hall es hmem
  rw [hn] at hcheck
  exact toOption_eq_some.mp (by simpa using hcheck)

/-- A chain is valid although the name of its intermediate is excluded. -/
theorem excludedIntermediate_valid : ∃ v pending,
    validateOverIntermediate "int.example" = .ok (.valid v pending) ∧
      ¬ ConstraintsHold (tablePlatform (chainOverIntermediate "int.example")) v.statements := by
  obtain ⟨v, pending, hvalid, hany⟩ := exists_valid (r := validateOverIntermediate "int.example")
    (p := fun v => (v.statements[2]?).any fun es => (namingConstraintsOf es).any fun n =>
      (checkNamingConstraints (tablePlatform (chainOverIntermediate "int.example")) n
        (subjectOf es)).toOption == some false) (by decide +kernel)
  obtain ⟨es, hes, hany⟩ := (Option.any_eq_true _ _).mp hany
  obtain ⟨n, hn, hcheck⟩ := (Option.any_eq_true _ _).mp hany
  refine ⟨v, pending, hvalid, fun hold => ?_⟩
  have htrue := (hold 2 es hes).1 n hn 2 (le_refl 2) es hes
  simp [htrue, Except.toOption] at hcheck

end OidFed
