import OidFed.Resolve.Progress

/-!
# Discoveries that are run

* `Move`: whose turn it is. `Move.apply`: the step that there is then, if any.
* `discoveryRun`, `reach_discoveryRun`: a run by a schedule, which reaches what it computes.
* `servedHost`: a host over a table of JWTs, and `served`: what its federation answers.
-/

namespace OidFed

open Js ForkJoin

namespace Resolution

inductive Move where
  | root
  | branch (p : NodePath)
  | abort

instance (l : Limiter NodePath) (p : NodePath) : Decidable (l.Pending p) :=
  inferInstanceAs (Decidable (p ∈ l.queue ∨ p ∈ l.granted))

section Run

variable (host : ResolutionHost) (anchors : TrustAnchorSet) (options : ResolutionOptions)
  (leaf : String) (answer : FetchCall → FetchOutcome)

/-- Every fetch is answered in one way. -/
def Fixed (call : FetchCall) (outcome : FetchOutcome) : Prop := outcome = answer call

def rootTurn (S : Resolution) : Resolution :=
  match S.phase, S.root with
  | .start, _ => S.begin leaf
  | .fetching, _ => { S with phase := .answered (answer (.entityConfiguration (.str leaf))) }
  | .answered outcome, _ => S.leafFetched host anchors options leaf outcome
  | .building, some level => if S.AllSettled [] level then S.joinLeaf host level else S
  | .built, _ => S.finish
  | _, _ => S

def branchTurn (S : Resolution) (p : NodePath) (b : Branch) : Resolution :=
  match b.phase with
  | .entering => S.enterHint options p b
  | .waiting work =>
    if p ∈ S.limiter.granted then S.resume p b work
    else if S.aborted = true ∧ ¬ S.limiter.Pending p then
      S.setPhase p b (.ended (.rejected .aborted))
    else S
  | .fetching work => S.settleFetch host p b work (answer (b.call work))
  | .answered work outcome => S.continueBranch host anchors options leaf p b work outcome
  | .recursing level => if S.AllSettled p level then S.joinBranches host p b level else S
  | .ended _ => S

def Move.apply (S : Resolution) : Move → Resolution
  | .root => S.rootTurn host anchors options leaf answer
  | .branch p =>
    match S.branches.get? p with
    | some b => S.branchTurn host anchors options leaf answer p b
    | none => S
  | .abort =>
    if S.aborted = false then { S with aborted := true, limiter := S.limiter.abort } else S

def discoveryRun (moves : List Move) : Resolution :=
  moves.foldl (Move.apply host anchors options leaf answer) { remaining := options.maxTotalFetches }

end Run

variable {host : ResolutionHost} {anchors : TrustAnchorSet} {options : ResolutionOptions}
  {leaf : String} {answer : FetchCall → FetchOutcome} {S : Resolution} {p : NodePath} {b : Branch}

theorem rootTurn_cases (S : Resolution) :
    S.rootTurn host anchors options leaf answer = S ∨
      Step host anchors options leaf (Fixed answer) S (S.rootTurn host anchors options leaf answer) := by
  unfold rootTurn
  split
  · rename_i hphase
    exact .inr (.advance (.begin hphase))
  · rename_i hphase
    exact .inr (.advance (.settleLeaf hphase rfl))
  · rename_i hphase
    exact .inr (.advance (.leafFetched hphase))
  · rename_i level hphase hroot
    split
    · rename_i hsettled
      exact .inr (.advance (.joinLeaf hphase hroot hsettled))
    · exact .inl rfl
  · rename_i hphase
    exact .inr (.advance (.finish hphase))
  · exact .inl rfl

theorem branchTurn_cases (hget : S.branches.get? p = some b) :
    S.branchTurn host anchors options leaf answer p b = S ∨ Step host anchors options leaf
      (Fixed answer) S (S.branchTurn host anchors options leaf answer p b) := by
  unfold branchTurn
  split
  · rename_i hphase
    exact .inr (.advance (.enterHint hget hphase))
  · rename_i work hphase
    split
    · rename_i hgranted
      exact .inr (.advance (.resume hget hphase hgranted))
    · split
      · rename_i haborted
        exact .inr (.advance (.reject hget hphase haborted.1 haborted.2))
      · exact .inl rfl
  · rename_i work hphase
    exact .inr (.advance (.settleFetch hget hphase rfl))
  · rename_i work outcome hphase
    exact .inr (.advance (.continueBranch hget hphase))
  · rename_i level hphase
    split
    · rename_i hsettled
      exact .inr (.advance (.joinBranches hget hphase hsettled))
    · exact .inl rfl
  · exact .inl rfl

/-- A turn is a step, or nothing happens. -/
theorem Move.apply_cases (S : Resolution) (move : Move) :
    Move.apply host anchors options leaf answer S move = S ∨ Step host anchors options leaf
      (Fixed answer) S (Move.apply host anchors options leaf answer S move) := by
  unfold Move.apply
  split
  · exact rootTurn_cases S
  · split
    · rename_i hget
      exact branchTurn_cases hget
    · exact .inl rfl
  · split
    · rename_i haborted
      exact .inr (.abort haborted)
    · exact .inl rfl

theorem discoveryRun_concat (moves : List Move) (move : Move) :
    discoveryRun host anchors options leaf answer (moves ++ [move]) =
      Move.apply host anchors options leaf answer
        (discoveryRun host anchors options leaf answer moves) move := List.foldl_concat ..

theorem reach_discoveryRun (moves : List Move) :
    (resolution host anchors options leaf (Fixed answer)).Reach
      (discoveryRun host anchors options leaf answer moves) := by
  induction moves using List.reverseRecOn with
  | nil => exact .init ⟨false, rfl⟩
  | append_singleton moves move ih =>
    rw [discoveryRun_concat]
    rcases Move.apply_cases (discoveryRun host anchors options leaf answer moves) move with h | h
    · rw [h]
      exact ih
    · exact ih.step h

/-! ## A federation of two -/

/-- The JWTs of a leaf, and those of the anchor above it. -/
def servedTable (claims : List (String × Json)) : List (String × SignedJwt) :=
  [("leaf", signedJwt "entity-statement+jwt" "leaf-key" claims),
    ("anchor", signedJwt "entity-statement+jwt" "anchor-key" (statementClaims "https://ta.example"
      "https://ta.example" "anchor-key" [("metadata", .obj [("federation_entity",
        .obj [("federation_fetch_endpoint", .str "https://ta.example/fetch")])])])),
    ("statement", signedJwt "entity-statement+jwt" "anchor-key"
      (statementClaims "https://ta.example" "https://leaf.example" "leaf-key" []))]

/-- A host whose leaf has these claims in its configuration. -/
def servedHost (claims : List (String × Json)) : ResolutionHost :=
  { tablePlatform (servedTable claims) with typeErrorMessage := "Cannot convert object to primitive value" }

/-- What the federation answers. -/
def served : FetchCall → FetchOutcome
  | .entityConfiguration (.str "https://leaf.example") => .returned (.ok "leaf")
  | .entityConfiguration (.str "https://ta.example") => .returned (.ok "anchor")
  | .subordinateStatement _ "https://leaf.example" "https://ta.example" =>
    .returned (.ok "statement")
  | _ => .returned (.error (internalError .Network "not found"))

/-- The claims of a leaf with these hints. -/
def leafClaims (hints : List (String × Json)) : List (String × Json) :=
  statementClaims "https://leaf.example" "https://leaf.example" "leaf-key" hints

/-- The turns of a leaf with one hint, to the end. -/
def hintedMoves : List Move :=
  [.root, .root, .root, .branch [0], .branch [0], .branch [0], .branch [0], .branch [0],
    .branch [0], .branch [0], .root, .root]

def servedAnchors : TrustAnchorSet := Dict.ofEntries [("https://ta.example", [tableKey "anchor-key"])]

end Resolution

end OidFed
