import OidFed.Resolve.Bounds

/-!
# A discovery that is not flagged finds every path

Every fetch is answered in one way.

* `Route`: a path up from the leaf that the federation serves.
* `Hop`: a branch whose hint is the next entity of a path. `Hop.completes`, `Hop.recurses`: how it
  ends, when nothing has been left out.
* `Route.level`: so the walk comes to every entity of a path (by induction on the path).
* `discovery_complete`: a result without the flag has a chain for every path to a Trust Anchor.
-/

namespace OidFed

open Js ForkJoin

namespace Resolution

section Definitions

variable (host : ResolutionHost) (anchors : TrustAnchorSet) (options : ResolutionOptions)
  (leaf : String) (answer : FetchCall → FetchOutcome)

/-- A fetch succeeds. -/
def Serves (call : FetchCall) (text : String) : Prop :=
  call.outcome host (answer call) = .returned (.ok text)

/-- A hint is kept by the filter. -/
def PassesFilter (entityId : String) (hint : Json) : Prop :=
  ∀ keep, options.authorityHintFilter = some keep →
    ∃ url, urlOf host hint = some url ∧ keep url entityId = true

/-- A path up from the leaf that the federation serves: its entities, the leaf's configuration with
the statements of the hops, and the configuration of the last entity. Only the last entity, and the
leaf, may be Trust Anchors. -/
inductive Route : List String → List String → String → ParsedEntityStatement → Prop
  | leaf {configuration : String} {decoded : ParsedEntityStatement} :
      Serves host answer (.entityConfiguration (.str leaf)) configuration →
      decodeEntityStatement host.toPlatform configuration = .ok decoded →
      Route [leaf] [configuration] configuration decoded
  | hop {entities statements : List String} {entity issuer below configuration statement : String}
      {decodedBelow decoded decodedStatement : ParsedEntityStatement} {items : List Json}
      {endpoint : Json} : Route entities statements below decodedBelow →
      entities.getLast? = some entity → entity = leaf ∨ (anchors.get? entity).isSome = false →
      issuer ∉ entities → authorityHints decodedBelow.payload = some (.arr items) →
      .str issuer ∈ items → PassesFilter host options entity (.str issuer) →
      Serves host answer (.entityConfiguration (.str issuer)) configuration →
      decodeEntityStatement host.toPlatform configuration = .ok decoded →
      fetchEndpoint decoded.payload = some endpoint →
      Serves host answer (.subordinateStatement endpoint entity issuer) statement →
      decodeEntityStatement host.toPlatform statement = .ok decodedStatement →
      Route (entities ++ [issuer]) (statements ++ [statement]) configuration decoded

/-- The hint of a branch is an entity that serves its configuration and a statement. -/
structure Hop (b : Branch) (issuer configuration statement : String)
    (decoded : ParsedEntityStatement) : Prop where
  hint : b.hint = .str issuer
  fresh : issuer ∉ b.level.visited
  served : Serves host answer (.entityConfiguration (.str issuer)) configuration
  decodes : decodeEntityStatement host.toPlatform configuration = .ok decoded
  attested : ∃ endpoint, fetchEndpoint decoded.payload = some endpoint ∧
    Serves host answer (.subordinateStatement endpoint b.level.entityId issuer) statement

/-- The level that a walk comes to after a path. -/
structure LevelOf (entities statements : List String) (entity : String) (items : List Json)
    (level : Level) : Prop where
  visited : level.visited = entities
  chainSoFar : level.chainSoFar = statements
  entityId : level.entityId = entity
  hints : level.hints = keptHints host options entity items
  short : items.length ≤ options.maxAuthorityHints

end Definitions

variable {host : ResolutionHost} {anchors : TrustAnchorSet} {options : ResolutionOptions}
  {leaf : String} {answer : FetchCall → FetchOutcome} {S : Resolution} {p : NodePath} {b : Branch}

theorem answered_fixed {call : FetchCall} {outcome : FetchOutcome} :
    Answered host (Fixed answer) call outcome ↔ outcome = call.outcome host (answer call) := by
  constructor
  · rintro ⟨_, rfl, houtcome⟩
    exact houtcome
  · exact fun houtcome => ⟨_, rfl, houtcome⟩

/-- A fetch that succeeds has no other outcome. -/
theorem Serves.eq {call : FetchCall} {text : String} {outcome : FetchOutcome}
    (h : Serves host answer call text) (houtcome : Answered host (Fixed answer) call outcome) :
    outcome = .returned (.ok text) := (answered_fixed.mp houtcome).trans h

theorem Serves.text_eq {call : FetchCall} {text text' : String} (h : Serves host answer call text)
    (houtcome : Answered host (Fixed answer) call (.returned (.ok text'))) : text = text' :=
  (Except.ok.inj (FetchOutcome.returned.inj (h.eq houtcome))).symm

theorem mem_keptHints {entityId : String} {items : List Json} {hint : Json}
    (hshort : items.length ≤ options.maxAuthorityHints) :
    hint ∈ keptHints host options entityId items ↔
      hint ∈ items ∧ PassesFilter host options entityId hint := by
  unfold keptHints PassesFilter
  rw [List.take_of_length_le hshort]
  cases hfilter : options.authorityHintFilter with
  | none => simp
  | some keep =>
    simp only [List.mem_filter, Option.some.injEq, forall_eq']
    cases urlOf host hint with
    | none => simp
    | some url => simp

/-! ## Branches on a path -/

namespace Hop

variable {issuer configuration statement : String} {decoded : ParsedEntityStatement}

theorem issuer_eq (h : Hop host answer b issuer configuration statement decoded) :
    b.issuer = issuer := by
  rw [Branch.issuer, h.hint]
  rfl

/-- What the branch fetches succeeds. -/
theorem succeeds (h : Hop host answer b issuer configuration statement decoded) {work : Work}
    {outcome : FetchOutcome} (hgot : Got host (Fixed answer) b work)
    (houtcome : Answered host (Fixed answer) (b.call work) outcome) :
    ∃ text, outcome = .returned (.ok text) := by
  cases work with
  | configuration =>
    rw [Branch.call, h.hint] at houtcome
    exact ⟨_, h.served.eq houtcome⟩
  | statement configuration' decoded' endpoint' =>
    obtain ⟨hfetched, hdecodes, hendpoint'⟩ := hgot.work _ _ _ rfl
    obtain ⟨endpoint, hendpoint, hserved⟩ := h.attested
    rw [h.hint] at hfetched
    obtain rfl := h.served.text_eq hfetched
    obtain rfl := Except.ok.inj (h.decodes.symm.trans hdecodes)
    obtain rfl := Option.some.inj (hendpoint.symm.trans hendpoint')
    rw [Branch.call, h.issuer_eq] at houtcome
    exact ⟨_, hserved.eq houtcome⟩

/-- What the branch has got is what the federation serves. -/
theorem attested_eq (h : Hop host answer b issuer configuration statement decoded)
    {configuration' statement' : String} {decoded' : ParsedEntityStatement}
    (hattested : Attested host (Fixed answer) b configuration' statement' decoded') :
    configuration = configuration' ∧ statement = statement' ∧ decoded = decoded' := by
  have hfetched := hattested.fetched
  rw [h.hint] at hfetched
  obtain rfl := h.served.text_eq hfetched
  obtain rfl := Except.ok.inj (h.decodes.symm.trans hattested.decodes)
  obtain ⟨endpoint', hendpoint', hanswered⟩ := hattested.attested
  obtain ⟨endpoint, hendpoint, hserved⟩ := h.attested
  obtain rfl := Option.some.inj (hendpoint.symm.trans hendpoint')
  rw [h.issuer_eq] at hanswered
  exact ⟨rfl, hserved.text_eq hanswered, rfl⟩

/-- How the branch ends, when nothing has been left out. -/
theorem ends (h : Hop host answer b issuer configuration statement decoded)
    (hcomplete : S.incomplete = false) (haborted : S.aborted = false) {how : BranchEnd}
    (hfate : Fate host anchors options leaf (Fixed answer) S b how) :
    ((anchors.get? issuer).isSome = true ∧
      ((∃ e, (b.level.chainSoFar ++ [statement, configuration]).mapM
          (decodeEntityStatement host.toPlatform) = .error e) ∨
        (∃ parsed reason, (b.level.chainSoFar ++ [statement, configuration]).mapM
            (decodeEntityStatement host.toPlatform) = .ok parsed ∧
          unverifiedExpiration host parsed = .error reason) ∨
        ∃ chain ∈ S.chains, chain.statements = b.level.chainSoFar ++ [statement, configuration] ∧
          chain.entityId = leaf ∧ chain.trustAnchorId = issuer)) ∨
    ((anchors.get? issuer).isSome = false ∧
      (lacksHints (authorityHints decoded.payload) = true ∨
        (∃ hints, authorityHints decoded.payload = some hints ∧ hints.isArray = false) ∨
        ∃ level items, how = .recursed (some level) ∧
          authorityHints decoded.payload = some (.arr items) ∧
          LevelOf host options (b.level.visited ++ [issuer]) (b.level.chainSoFar ++ [statement])
            issuer items level)) := by
  have hissuer := h.issuer_eq
  cases hfate with
  | looped hhint hmem =>
    obtain rfl := Json.str.inj (hhint.symm.trans h.hint)
    exact absurd hmem h.fresh
  | overBudget hincomplete => simp [hcomplete] at hincomplete
  | aborted h' => simp [haborted] at h'
  | rejected hgot houtcome =>
    -- every fetch of the hop succeeds
    obtain ⟨text, htext⟩ := h.succeeds hgot houtcome
    simp at htext
  | failed hgot houtcome =>
    obtain ⟨text, htext⟩ := h.succeeds hgot houtcome
    simp at htext
  | undecodable hfetched hdecode =>
    rw [h.hint] at hfetched
    obtain rfl := h.served.text_eq hfetched
    simp [h.decodes] at hdecode
  | noEndpoint hfetched hdecode hnone =>
    rw [h.hint] at hfetched
    obtain rfl := h.served.text_eq hfetched
    obtain rfl := Except.ok.inj (h.decodes.symm.trans hdecode)
    obtain ⟨endpoint, hendpoint, -⟩ := h.attested
    simp [hendpoint] at hnone
  | dropped hattested hanchor hdecode =>
    -- what has been fetched is what the hop serves
    obtain ⟨rfl, rfl, rfl⟩ := h.attested_eq hattested
    exact .inl ⟨hissuer ▸ hanchor, .inl ⟨_, hdecode⟩⟩
  | unexpiring hattested hanchor hdecode hexpires =>
    obtain ⟨rfl, rfl, rfl⟩ := h.attested_eq hattested
    exact .inl ⟨hissuer ▸ hanchor, .inr (.inl ⟨_, _, hdecode, hexpires⟩)⟩
  | completed hattested hanchor hstatements hentity htrust hmem =>
    obtain ⟨rfl, rfl, rfl⟩ := h.attested_eq hattested
    exact .inl ⟨hissuer ▸ hanchor, .inr (.inr ⟨_, hmem, hstatements, hentity, hissuer ▸ htrust⟩)⟩
  | noHints hattested hanchor hlacks =>
    obtain ⟨rfl, rfl, rfl⟩ := h.attested_eq hattested
    exact .inr ⟨hissuer ▸ hanchor, .inl hlacks⟩
  | noList hattested hanchor hhints hlist =>
    obtain ⟨rfl, rfl, rfl⟩ := h.attested_eq hattested
    exact .inr ⟨hissuer ▸ hanchor, .inr (.inl ⟨_, hhints, hlist⟩)⟩
  | pruned hincomplete => simp [hcomplete] at hincomplete
  | @recursed level hrecurses =>
    obtain ⟨_, _, _, items, hattested, hanchor, hitems, hshort, hlevel⟩ := hrecurses.next
    obtain ⟨rfl, rfl, rfl⟩ := h.attested_eq hattested
    rw [hissuer] at hanchor hlevel
    subst hlevel
    exact .inr ⟨hanchor, .inr (.inr ⟨_, items, rfl, hitems, rfl, rfl, rfl, rfl, hshort hcomplete⟩)⟩

end Hop

/-! ## The walk along a path -/

theorem Route.leaf_mem {entities statements : List String} {configuration : String}
    {decoded : ParsedEntityStatement}
    (h : Route host anchors options leaf answer entities statements configuration decoded) :
    leaf ∈ entities := by
  induction h with
  | leaf _ _ => exact List.mem_singleton.mpr rfl
  | hop _ _ _ _ _ _ _ _ _ _ _ _ ih => exact List.mem_append_left _ ih

theorem Route.decodes {entities statements : List String} {configuration : String}
    {decoded : ParsedEntityStatement}
    (h : Route host anchors options leaf answer entities statements configuration decoded) :
    decodeEntityStatement host.toPlatform configuration = .ok decoded ∧
      ∀ jwt ∈ statements, ∃ es, decodeEntityStatement host.toPlatform jwt = .ok es := by
  induction h with
  | leaf _ hdecodes =>
    refine ⟨hdecodes, fun jwt hjwt => ?_⟩
    obtain rfl := List.mem_singleton.mp hjwt
    exact ⟨_, hdecodes⟩
  | hop _ _ _ _ _ _ _ _ hdecodes _ _ hstatement ih =>
    refine ⟨hdecodes, fun jwt hjwt => ?_⟩
    rcases List.mem_append.mp hjwt with hbelow | hlast
    · exact ih.2 jwt hbelow
    · obtain rfl := List.mem_singleton.mp hlast
      exact ⟨_, hstatement⟩

/-- The walk is over and has left nothing out. -/
structure Walked (host : ResolutionHost) (anchors : TrustAnchorSet) (options : ResolutionOptions)
    (leaf : String) (answer : FetchCall → FetchOutcome) (S : Resolution) : Prop where
  kept : Kept host anchors options leaf (Fixed answer) S
  complete : S.incomplete = false
  unaborted : S.aborted = false
  root : S.root.isSome = true
  ended : ∀ p b, S.branches.get? p = some b → ∃ how, b.phase = .ended how

/-- The branch for the next entity of a path. -/
theorem Walked.exists_hop (h : Walked host anchors options leaf answer S)
    {entities statements : List String} {entity issuer configuration statement : String}
    {decoded : ParsedEntityStatement} {items : List Json} {level : Level} {endpoint : Json}
    (hat : S.levelAt p = some level)
    (hlevel : LevelOf host options entities statements entity items level)
    (hfresh : issuer ∉ entities) (hmem : .str issuer ∈ items)
    (hpasses : PassesFilter host options entity (.str issuer))
    (hserved : Serves host answer (.entityConfiguration (.str issuer)) configuration)
    (hdecodes : decodeEntityStatement host.toPlatform configuration = .ok decoded)
    (hendpoint : fetchEndpoint decoded.payload = some endpoint)
    (hattested : Serves host answer (.subordinateStatement endpoint entity issuer) statement) :
    ∃ i b how, S.branches.get? (i :: p) = some b ∧ b.level = level ∧ b.phase = .ended how ∧
      Fate host anchors options leaf (Fixed answer) S b how ∧
      Hop host answer b issuer configuration statement decoded := by
  have hhint : .str issuer ∈ level.hints := by
    rw [hlevel.hints]
    exact (mem_keptHints hlevel.short).mpr ⟨hmem, hpasses⟩
  obtain ⟨i, hi, hat_i⟩ := List.getElem_of_mem hhint
  obtain ⟨b, hget⟩ := h.kept.tree.child hat hi
  obtain ⟨hparent, hbranch⟩ := h.kept.tree.parent hget
  obtain rfl : level = b.level := Option.some.inj (hat.symm.trans hparent)
  obtain ⟨how, hhow⟩ := h.ended _ _ hget
  have hphase := (h.kept.branch hget).phase
  rw [hhow] at hphase
  refine ⟨i, b, how, hget, rfl, hhow, hphase, ?_, ?_, hserved, hdecodes, endpoint, hendpoint, ?_⟩
  · rw [List.getElem?_eq_getElem hi, hat_i] at hbranch
    exact (Option.some.inj hbranch).symm
  · rw [hlevel.visited]
    exact hfresh
  · rw [hlevel.entityId]
    exact hattested

/-- The walk comes to every entity of a path whose hints it follows. -/
theorem Route.level (h : Walked host anchors options leaf answer S)
    {entities statements : List String} {configuration : String} {decoded : ParsedEntityStatement}
    (hroute : Route host anchors options leaf answer entities statements configuration decoded)
    {entity : String} {items : List Json} (hlast : entities.getLast? = some entity)
    (hopen : entity = leaf ∨ (anchors.get? entity).isSome = false)
    (hitems : authorityHints decoded.payload = some (.arr items)) (hne : items ≠ []) :
    ∃ p level, S.levelAt p = some level ∧
      LevelOf host options entities statements entity items level := by
  induction hroute generalizing entity items with
  | leaf hserved hdecodes =>
    obtain rfl : leaf = entity := by simpa using hlast
    obtain ⟨level, hlevel⟩ := Option.isSome_iff_exists.mp h.root
    obtain ⟨outcome, houtcome, hstarts⟩ := h.kept.root hlevel
    obtain ⟨configuration', decoded', items', rfl, hdecodes', hitems', hshort, rfl⟩ :=
      hstarts.starts
    obtain rfl := hserved.text_eq houtcome
    obtain rfl := Except.ok.inj (hdecodes.symm.trans hdecodes')
    obtain rfl := Json.arr.inj (Option.some.inj (hitems.symm.trans hitems'))
    exact ⟨[], _, hlevel, rfl, rfl, rfl, rfl, hshort h.complete⟩
  | @hop entities statements below issuer _ configuration statement decodedBelow decoded _ itemsBelow
      endpoint hbelow hlastBelow hopenBelow hfresh hitemsBelow hmem hpasses hserved hdecodes hendpoint
      hattested _ ih =>
    obtain rfl : issuer = entity := by simpa using hlast
    obtain ⟨p, level, hat, hlevel⟩ :=
      ih hlastBelow hopenBelow hitemsBelow (List.ne_nil_of_mem hmem)
    obtain ⟨i, b, how, hget, rfl, hhow, hfate, hhop⟩ := h.exists_hop hat hlevel hfresh hmem hpasses
      hserved hdecodes hendpoint hattested
    rcases hhop.ends h.complete h.unaborted hfate with ⟨hanchor, -⟩ | ⟨-, hends⟩
    · -- the next entity is neither the leaf nor a Trust Anchor
      rcases hopen with rfl | hnot
      · exact absurd hbelow.leaf_mem hfresh
      · simp [hanchor] at hnot
    · rcases hends with hlacks | ⟨hints, hhints, hlist⟩ | ⟨level', items', rfl, hitems', hlevel'⟩
      · rw [hitems] at hlacks
        exact absurd (List.isEmpty_iff.mp hlacks) hne
      · rw [hitems] at hhints
        obtain rfl := Option.some.inj hhints
        simp [Json.isArray] at hlist
      · obtain rfl := Json.arr.inj (Option.some.inj (hitems.symm.trans hitems'))
        refine ⟨i :: p, level', ?_, ?_⟩
        · rw [levelAt_of_get? h.kept.tree.nil hget, hhow]
          rfl
        · rw [hlevel.visited, hlevel.chainSoFar] at hlevel'
          exact hlevel'

/-! ## Completeness -/

theorem exists_mapM_eq_ok {α β ε : Type} {f : α → Except ε β} {l : List α}
    (h : ∀ a ∈ l, ∃ c, f a = .ok c) :
    ∃ cs, l.mapM f = .ok cs ∧ ∀ c ∈ cs, ∃ a ∈ l, f a = .ok c := by
  induction l with
  | nil => exact ⟨[], rfl, by simp⟩
  | cons a l ih =>
    obtain ⟨c, hc⟩ := h a List.mem_cons_self
    obtain ⟨cs, hcs, hall⟩ := ih fun a' ha' => h a' (List.mem_cons_of_mem _ ha')
    refine ⟨c :: cs, by rw [List.mapM_cons, hc, hcs]; rfl, fun c' hc' => ?_⟩
    rcases List.mem_cons.mp hc' with rfl | hold
    · exact ⟨a, List.mem_cons_self, hc⟩
    · obtain ⟨a', ha', hf⟩ := hall c' hold
      exact ⟨a', List.mem_cons_of_mem _ ha', hf⟩

/-- The chain of a path to a Trust Anchor. -/
theorem Walked.exists_chain (h : Walked host anchors options leaf answer S)
    {entities statements : List String} {configuration anchor : String}
    {decoded : ParsedEntityStatement}
    (hroute : Route host anchors options leaf answer entities statements configuration decoded)
    (hhops : 2 ≤ entities.length) (hlast : entities.getLast? = some anchor)
    (hanchor : (anchors.get? anchor).isSome = true)
    (hexp : ∀ jwt ∈ statements ++ [configuration], ∀ es,
      decodeEntityStatement host.toPlatform jwt = .ok es →
        (host.text (es.payload.get? "exp")).isSome = true) :
    ∃ chain ∈ S.chains, chain.statements = statements ++ [configuration] ∧
      chain.entityId = leaf ∧ chain.trustAnchorId = anchor := by
  have hdecodes : ∀ jwt ∈ statements ++ [configuration],
      ∃ es, decodeEntityStatement host.toPlatform jwt = .ok es := by
    intro jwt hjwt
    rcases List.mem_append.mp hjwt with hstatement | hconfiguration
    · exact hroute.decodes.2 jwt hstatement
    · obtain rfl := List.mem_singleton.mp hconfiguration
      exact ⟨decoded, hroute.decodes.1⟩
  obtain ⟨parsed, hparsed, hall⟩ := exists_mapM_eq_ok hdecodes
  cases hroute with
  | leaf _ _ => simp at hhops
  | @hop entities statements below issuer _ _ statement decodedBelow _ _ itemsBelow endpoint hbelow
      hlastBelow hopenBelow hfresh hitemsBelow hmem hpasses hserved hdecodes hendpoint hattested _ =>
    obtain rfl : issuer = anchor := by simpa using hlast
    obtain ⟨p, level, hat, hlevel⟩ := Route.level h hbelow hlastBelow hopenBelow hitemsBelow
      (List.ne_nil_of_mem hmem)
    obtain ⟨i, b, how, hget, rfl, hhow, hfate, hhop⟩ := h.exists_hop hat hlevel hfresh hmem hpasses
      hserved hdecodes hendpoint hattested
    have hfull : b.level.chainSoFar ++ [statement, configuration] =
        (statements ++ [statement]) ++ [configuration] := by
      rw [hlevel.chainSoFar, List.append_assoc]
      rfl
    rcases hhop.ends h.complete h.unaborted hfate with ⟨-, hends⟩ | ⟨hnot, -⟩
    · rw [hfull] at hends
      rcases hends with ⟨e, hdropped⟩ | ⟨parsed', reason, hparsed', hthrows⟩ | hcompleted
      · rw [hparsed] at hdropped
        cases hdropped
      · -- every `exp` can be converted to a number
        obtain rfl := Except.ok.inj (hparsed.symm.trans hparsed')
        have hnone : ¬ (parsed.any fun s => (host.text (s.payload.get? "exp")).isNone) = true := by
          rw [List.any_eq_true]
          rintro ⟨es, hes, hthrow⟩
          obtain ⟨jwt, hjwt, hes⟩ := hall es hes
          have hsome := hexp jwt hjwt es hes
          rw [Option.isSome_iff_ne_none] at hsome
          exact hsome (Option.isNone_iff_eq_none.mp hthrow)
        rw [unverifiedExpiration, if_neg hnone] at hthrows
        cases hthrows
      · exact hcompleted
    · simp [hanchor] at hnot

/-- The hints of the leaf of a path. -/
theorem Route.leaf_hints {entities statements : List String} {configuration : String}
    {decoded : ParsedEntityStatement}
    (h : Route host anchors options leaf answer entities statements configuration decoded)
    (hhops : 2 ≤ entities.length) : ∃ configuration decoded items,
      Serves host answer (.entityConfiguration (.str leaf)) configuration ∧
      decodeEntityStatement host.toPlatform configuration = .ok decoded ∧
      authorityHints decoded.payload = some (.arr items) ∧ items ≠ [] := by
  induction h with
  | leaf _ _ => simp at hhops
  | hop hbelow _ _ _ hitems hmem _ _ _ _ _ _ ih =>
    cases hbelow with
    | leaf hserved hdecodes => exact ⟨_, _, _, hserved, hdecodes, hitems, List.ne_nil_of_mem hmem⟩
    | @hop entities _ _ _ _ _ _ _ _ _ _ _ hbelow _ _ _ _ _ _ _ _ _ _ _ =>
      refine ih ?_
      have hpos := List.length_pos_of_mem hbelow.leaf_mem
      rw [List.length_append, List.length_singleton]
      omega

/-- A result that is not flagged has a chain for every path to a Trust Anchor, if the leaf's
configuration is that of the leaf and every `exp` on the path can be converted to a number. -/
theorem discovery_complete
    (hreach : (resolution host anchors options leaf (Fixed answer)).Reach S)
    {result : TrustChainResult} (hresult : S.phase = .returned result)
    (hcomplete : result.incomplete = false)
    (hleaf : ∀ configuration decoded,
      Serves host answer (.entityConfiguration (.str leaf)) configuration →
        decodeEntityStatement host.toPlatform configuration = .ok decoded → decoded.IsOf leaf)
    {entities statements : List String} {configuration anchor : String}
    {decoded : ParsedEntityStatement}
    (hroute : Route host anchors options leaf answer entities statements configuration decoded)
    (hhops : 2 ≤ entities.length) (hlast : entities.getLast? = some anchor)
    (hanchor : (anchors.get? anchor).isSome = true)
    (hexp : ∀ jwt ∈ statements ++ [configuration], ∀ es,
      decodeEntityStatement host.toPlatform jwt = .ok es →
        (host.text (es.payload.get? "exp")).isSome = true) :
    ∃ chain ∈ result.chains, chain.statements = statements ++ [configuration] ∧
      chain.entityId = leaf ∧ chain.trustAnchorId = anchor := by
  cases returned_of_reach hreach hresult with
  | overBudget _ _ hincomplete => simp [hcomplete] at hincomplete
  | leaf _ houtcome hends =>
    obtain ⟨configuration', decoded', items, hserved, hdecodes, hitems, hne⟩ :=
      hroute.leaf_hints hhops
    -- the route has a next entity, so the leaf has hints
    have hnonempty : lacksHints (authorityHints decoded'.payload) = false := by
      rw [hitems]
      simpa [lacksHints] using hne
    cases hends with
    | failed e incomplete =>
      have hfailed := hserved.eq houtcome
      simp at hfailed
    | undecodable hfails =>
      obtain rfl := hserved.text_eq houtcome
      simp [hdecodes] at hfails
    | mismatched e hdecodes' hnot =>
      obtain rfl := hserved.text_eq houtcome
      exact absurd (hleaf _ _ hserved hdecodes') hnot
    | anchor expiresAt hdecodes' hlacks _ =>
      obtain rfl := hserved.text_eq houtcome
      obtain rfl := Except.ok.inj (hdecodes.symm.trans hdecodes')
      simp [hnonempty] at hlacks
    | noHints e hdecodes' hlacks =>
      obtain rfl := hserved.text_eq houtcome
      obtain rfl := Except.ok.inj (hdecodes.symm.trans hdecodes')
      simp [hnonempty] at hlacks
  | @walked T hT hbuilt _ _ _ heq =>
    subst heq
    have hkept := kept_of_reach hT
    have hphase := hkept.phase
    rw [hbuilt] at hphase
    obtain ⟨hincomplete, haborted⟩ := Bool.or_eq_false_iff.mp hcomplete
    -- an unflagged walk has forked at the leaf
    have hroot : T.root.isSome = true := by
      by_contra hnone
      have hflagged := hphase.1 (by simpa using hnone)
      simp [hincomplete] at hflagged
    exact Walked.exists_chain ⟨hkept, hincomplete, haborted, hroot, fun p b hget =>
      hkept.tree.all_ended hphase.2 hget⟩ hroute hhops hlast hanchor hexp

/-! ## A path of one hop -/

/-- A leaf below the anchor has one path, whatever else its configuration claims. -/
theorem route_served (claims : List (String × Json))
    (hhints : (Dict.ofEntries claims).get? "authority_hints" =
      some (.arr [.str "https://ta.example"])) :
    ∃ decoded, Route (servedHost claims) servedAnchors {} "https://leaf.example" served
      ["https://leaf.example", "https://ta.example"] ["leaf", "statement"] "anchor" decoded := by
  have hleaf : Route (servedHost claims) servedAnchors {} "https://leaf.example" served
      ["https://leaf.example"] ["leaf"] "leaf" _ := .leaf rfl rfl
  have hpasses : PassesFilter (servedHost claims) {} "https://leaf.example"
      (.str "https://ta.example") := by
    intro keep hkeep
    simp at hkeep
  exact ⟨_, hleaf.hop rfl (.inl rfl) (by decide) hhints (List.mem_singleton.mpr rfl) hpasses rfl rfl
    rfl rfl rfl⟩

/-- The leaf under the anchor whose result `hintedRun` computes. -/
theorem hintedRun_complete : ∃ result, hintedRun.phase = .returned result ∧
    ∃ chain ∈ result.chains, chain.statements = ["leaf", "statement", "anchor"] ∧
      chain.entityId = "https://leaf.example" ∧ chain.trustAnchorId = "https://ta.example" := by
  obtain ⟨decoded, hroute⟩ :=
    route_served (leafClaims [("authority_hints", .arr [.str "https://ta.example"])]) rfl
  have hphase : hintedRun.phase = .returned { errors := [], chains :=
      [{ statements := ["leaf", "statement", "anchor"], entityId := "https://leaf.example"
         trustAnchorId := "https://ta.example", expiresAt := some 2000 }] } := by decide +kernel
  refine ⟨_, hphase, discovery_complete (reach_discoveryRun _) hphase rfl ?_ hroute
    (by decide) rfl (by decide +kernel) ?_⟩
  · intro configuration es hserved hdecodes
    obtain rfl : "leaf" = configuration := by simpa [Serves, FetchCall.outcome, served] using hserved
    obtain rfl := Except.ok.inj hdecodes
    exact ⟨rfl, rfl⟩
  · intro jwt hjwt es hdecodes
    have hjwt' : jwt = "leaf" ∨ jwt = "statement" ∨ jwt = "anchor" := by simpa using hjwt
    rcases hjwt' with rfl | rfl | rfl
    · obtain rfl := Except.ok.inj hdecodes
      rfl
    · obtain rfl := Except.ok.inj hdecodes
      rfl
    · obtain rfl := Except.ok.inj hdecodes
      rfl

/-- A leaf whose configuration is that of another entity. -/
def foreignClaims : List (String × Json) :=
  statementClaims "https://other.example" "https://other.example" "leaf-key"
    [("authority_hints", .arr [.str "https://ta.example"])]

/-- A leaf whose `exp` cannot be converted to a number. -/
def timelessClaims : List (String × Json) :=
  leafClaims [("authority_hints", .arr [.str "https://ta.example"]),
    ("exp", .obj [("toString", .null)])]

/-- The federation serves a path, and a result has neither its chain nor a flag. -/
def MissesPath (claims : List (String × Json)) (options : ResolutionOptions := {}) : Prop :=
  ∃ S result,
    (resolution (servedHost claims) servedAnchors options "https://leaf.example"
      (Fixed served)).Reach S ∧
    S.phase = .returned result ∧ result.incomplete = false ∧
    ∃ entities statements configuration decoded, Route (servedHost claims) servedAnchors options
        "https://leaf.example" served entities statements configuration decoded ∧
      entities.length = 2 ∧ entities.getLast? = some "https://ta.example" ∧
      (servedAnchors.get? "https://ta.example").isSome = true ∧
      ¬ ∃ chain ∈ result.chains, chain.statements = statements ++ [configuration]

theorem missesPath_of_returned {claims : List (String × Json)} {errors : List FederationError}
    (hhints : (Dict.ofEntries claims).get? "authority_hints" =
      some (.arr [.str "https://ta.example"]))
    (hphase : (discoveryRun (servedHost claims) servedAnchors {} "https://leaf.example" served
      hintedMoves).phase = .returned { chains := [], errors := errors }) : MissesPath claims := by
  obtain ⟨decoded, hroute⟩ := route_served claims hhints
  refine ⟨_, _, reach_discoveryRun _, hphase, rfl, _, _, _, decoded, hroute, rfl, rfl,
    by decide +kernel, ?_⟩
  rintro ⟨chain, hchain, -⟩
  exact absurd hchain List.not_mem_nil

theorem paths_missed : MissesPath foreignClaims ∧ MissesPath timelessClaims := by
  constructor
  · have hphase : (discoveryRun (servedHost foreignClaims) servedAnchors {} "https://leaf.example"
        served hintedMoves).phase = .returned { chains := [], errors := [chainError
          ("Leaf EC identity mismatch: iss=https://other.example, " ++
            "sub=https://other.example, expected=https://leaf.example")] } := by decide +kernel
    exact missesPath_of_returned rfl hphase
  · have hphase : (discoveryRun (servedHost timelessClaims) servedAnchors {} "https://leaf.example"
        served hintedMoves).phase = .returned { chains := [], errors :=
          [internalError .Network "Cannot convert object to primitive value"] } := by decide +kernel
    exact missesPath_of_returned rfl hphase

end Resolution

end OidFed
