import OidFed.Collection.Refresh

/-!
# What a snapshot rests on (`core/src/entity-collection/refresh.ts`)

* `Entered`: an entry of the collection under way: its identifier is its key, its chain has been
  validated, and its marks rest on evidence.
* `traverse_spec`, `collectCandidates_spec`: the entries that are gathered are of this kind. The
  fuel of a traversal lasts (`traverse_isSome`).
* `FinishedEntry`: an entry that the last pass has left.
* `buildCollectionSnapshot_rests`: the entries of a snapshot are sorted, each of them finished.
-/

namespace OidFed

open Js

/-- The expiration of the chain to an entity is that of a chain that has been validated, and the
entry does not outlive it. -/
def ChainRests (C : EvidenceContext) (t : Nat) (entry : CollectionEntry) : Prop :=
  ∀ x, entry.chainExpiresAt = some x → entry.expiresAt ≤ x ∧ ∃ jwt rest path,
    C.configuration (entityIdOf entry.entity) = some (.ok jwt) ∧
      Validated C t (jwt :: rest) path ∧ path.expiresAt = x

theorem ChainRests.mono {C : EvidenceContext} {t t' : Nat} {entry : CollectionEntry}
    (h : ChainRests C t entry) (ht : t ≤ t') : ChainRests C t' entry := by
  intro x hx
  obtain ⟨hle, jwt, rest, path, hfetched, hpath, hexp⟩ := h x hx
  exact ⟨hle, jwt, rest, path, hfetched, hpath.mono ht, hexp⟩

/-- An entry that a refresh has under a key. -/
structure Entered (C : EvidenceContext) (t : Nat)
    (publications : Dict String EntityConfigurationPayload) (id : String) (entry : CollectionEntry) :
    Prop where
  key : entityIdOf entry.entity = id
  chain : ChainRests C t entry
  marks : MarksRest C t entry
  publication : WithChain C t entry (publications.get? id)

theorem Entered.mono {C : EvidenceContext} {t t' : Nat} {id : String} {entry : CollectionEntry}
    {publications : Dict String EntityConfigurationPayload}
    (h : Entered C t publications id entry) (ht : t ≤ t') : Entered C t' publications id entry :=
  ⟨h.key, h.chain.mono ht, h.marks.mono ht, fun payload hp =>
    ⟨(h.publication payload hp).1.mono ht, (h.publication payload hp).2⟩⟩

/-! ## The collector -/

section Collector

variable {W : CollectionRefresh} {C : EvidenceContext}

/-- A candidate comes without evidence. -/
structure Unproven (id : String) (entry : CollectionEntry) : Prop where
  key : entityIdOf entry.entity = id
  chain : entry.chainExpiresAt = none
  marks : entry.verifiedMarks = []

theorem parseCandidate_unproven {P : Platform} {isLanguageTag : String → Bool} {input : Json}
    {entry : CollectionEntry} (h : parseCandidate P isLanguageTag input = some entry) :
    Unproven (entityIdOf entry.entity) entry := by
  unfold parseCandidate at h
  split at h
  · split at h
    · split at h
      · obtain ⟨entity, -, rfl⟩ := Option.map_eq_some_iff.mp h
        exact ⟨rfl, rfl, rfl⟩
      · cases h
    · cases h
  · cases h

theorem addCandidate_unproven {entries entries' : Dict String CollectionEntry} {input : Json}
    (hentries : ∀ id entry, entries.get? id = some entry → Unproven id entry)
    (h : addCandidate W entries input = .ok entries') :
    ∀ id entry, entries'.get? id = some entry → Unproven id entry := by
  unfold addCandidate at h
  cases hparsed : parseCandidate W.host.toPlatform W.isLanguageTag input with
  | none => simp [hparsed] at h
  | some candidate =>
    simp only [hparsed] at h
    split at h
    · cases h
    obtain rfl := Except.ok.inj h
    intro id entry hget
    rw [Dict.get?_set] at hget
    split at hget
    · rename_i hid
      obtain rfl := Option.some.inj hget
      rw [hid]
      exact parseCandidate_unproven hparsed
    · exact hentries id entry hget

theorem collectCandidates_unproven {supplied : Option (Except FederationError Json)}
    {entries : Dict String CollectionEntry} (h : collectCandidates W supplied = .ok entries) :
    ∀ id entry, entries.get? id = some entry → Unproven id entry := by
  obtain ⟨value, -, h⟩ := bind_eq_ok.mp h
  split at h
  · rename_i inputs
    split at h
    · cases h
    rename_i hcount
    clear hcount
    have hstart : ∀ id entry, (Dict.empty : Dict String CollectionEntry).get? id = some entry →
        Unproven id entry := by
      intro id entry hget
      simp at hget
    generalize (Dict.empty : Dict String CollectionEntry) = start at h hstart
    induction inputs generalizing start with
    | nil =>
      obtain rfl := Except.ok.inj h
      exact hstart
    | cons input rest ih =>
      obtain ⟨entries₁, hadded, h⟩ := bind_eq_ok.mp h
      exact ih entries₁ h (addCandidate_unproven hstart hadded)
  · cases h

end Collector

/-! ## The traversal -/

section Outputs

variable {P : Platform} {isLanguageTag : String → Bool}

/-- The identifier of an entity that the collection shows is the one it was found under, as a URL
that has been trimmed stays as it is. -/
theorem parseEntity_id {id : String} {payload : EntityConfigurationPayload} {entity : Json}
    (htrimmed : P.zodUrl id = some id)
    (h : parseEntity P isLanguageTag (publishedEntity id payload) = some entity) :
    entityIdOf entity = id := by
  unfold parseEntity at h
  split at h
  · obtain rfl := Option.some.inj h
    rw [entityIdOf, publishedEntity, objectOutput_get? (by decide), List.cons_append,
      List.lookup_cons_self]
    simp [entityMemberOutput, urlValue, urlOutput, Json.string?, htrimmed]
  · cases h

/-- The subject of a decoded configuration has been trimmed. -/
theorem decodeEntityConfiguration_sub {jwt : String} {payload : EntityConfigurationPayload}
    (hurl : ∀ s t, P.zodUrl s = some t → P.zodUrl t = some t)
    (h : decodeEntityConfiguration P jwt = some payload) : P.zodUrl payload.sub = some payload.sub := by
  unfold decodeEntityConfiguration at h
  cases hes : decodeEntityStatement P jwt with
  | error e => simp [hes] at h
  | ok es =>
    simp only [hes] at h
    split at h
    · rename_i hchecked
      obtain rfl := Option.some.inj h
      obtain ⟨sub, hsub, hsubOk⟩ := looseObject_required
        (entityConfigurationSchema_fields hchecked.2).1
        (f := { name := "sub", schema := entityIdSchema P }) (by simp [baseEntityStatementFields]) rfl
      obtain ⟨text, htext⟩ := entityIdSchema_output hsubOk
      simp only at hsub
      rw [hsub, htext, Option.getD_some]
      obtain ⟨raw, -, hraw⟩ := Option.bind_eq_some_iff.mp htext
      exact hurl raw text hraw
    · cases h

end Outputs

section Traverse

variable {W : CollectionRefresh} {C : EvidenceContext} {T T' : Traversal}

/-- An entry of a traversal: a validated path leads to it. -/
structure Reached (C : EvidenceContext) (t : Nat) (id : String) (entry : CollectionEntry) :
    Prop where
  key : entityIdOf entry.entity = id
  expires : entry.chainExpiresAt = some entry.expiresAt
  chain : ChainRests C t entry
  marks : entry.verifiedMarks = []

/-- What a traversal has found. -/
structure TraversalRests (C : EvidenceContext) (T : Traversal) : Prop where
  sound : T.evidence.Sound C
  entries : ∀ id entry, T.entries.get? id = some entry → Reached C T.evidence.tick id entry
  publications : ∀ id payload, T.publications.get? id = some payload →
    PublishedBy C T.evidence.tick id payload

theorem Reached.mono {t t' : Nat} {id : String} {entry : CollectionEntry}
    (h : Reached C t id entry) (ht : t ≤ t') : Reached C t' id entry :=
  { h with chain := h.chain.mono ht }

/-- A traversal goes on with evidence that has advanced. -/
theorem TraversalRests.withEvidence {s : CollectionEvidence} (h : TraversalRests C T)
    (hadv : Advances C T.evidence s) : TraversalRests C { T with evidence := s } where
  sound := hadv.sound
  entries id entry hget := (h.entries id entry hget).mono hadv.le
  publications id payload hget := (h.publications id payload hget).mono hadv.le

/-- One more path to an entity, after those that have been validated. -/
theorem entryWith_reached {t : Nat} {id jwt : String} {rest : List String} {entity : Json}
    {verified : AuthenticatedChain} {previous : Option CollectionEntry}
    (hprevious : ∀ entry, previous = some entry → Reached C t id entry)
    (hkey : entityIdOf entity = id) (hfetched : C.configuration id = some (.ok jwt))
    (hpath : Validated C t (jwt :: rest) verified) :
    Reached C t id (entryWith previous entity verified.expiresAt) := by
  have hsame : previous.map (·.expiresAt) = previous.bind (·.chainExpiresAt) := by
    cases previous with
    | none => rfl
    | some entry => simp [(hprevious entry rfl).expires]
  refine ⟨hkey, by simp [entryWith, hsame], fun x hx => ?_, rfl⟩
  obtain rfl := Option.some.inj hx
  refine ⟨by simp [entryWith, hsame], ?_⟩
  obtain hnew | hold := laterOf_cases (previous.bind (·.chainExpiresAt)) verified.expiresAt
  · exact ⟨jwt, rest, verified, by rw [← hfetched, ← hkey]; rfl, hpath, hnew.symm⟩
  · obtain ⟨entry, hentry, hchain⟩ := Option.bind_eq_some_iff.mp hold
    obtain ⟨-, jwt', rest', path, hfetched', hpath', hexp⟩ :=
      (hprevious entry hentry).chain _ hchain
    rw [(hprevious entry hentry).key, ← hkey] at hfetched'
    exact ⟨jwt', rest', path, hfetched', hpath', hexp⟩

theorem addChild_rests {node : CollectionNode} {id jwt : String} {rest : List String}
    {verified : AuthenticatedChain} (hW : C.host = W.host)
    (hurl : ∀ s t, W.host.zodUrl s = some t → W.host.zodUrl t = some t) (h : TraversalRests C T)
    (hfetched : C.configuration id = some (.ok jwt))
    (hpath : Validated C T.evidence.tick (jwt :: rest) verified) :
    TraversalRests C (addChild W node id (jwt :: rest) verified T) := by
  unfold addChild
  cases hdecoded : decodeEntityConfiguration W.host.toPlatform jwt with
  | none => simpa [hdecoded] using h
  | some payload =>
    simp only [List.headD_cons, hdecoded]
    split
    · exact h
    rename_i hsub
    rw [ne_eq, not_not] at hsub
    cases hentity : parseEntity W.host.toPlatform W.isLanguageTag (publishedEntity id payload) with
    | none => exact h
    | some entity =>
      have htrimmed := decodeEntityConfiguration_sub hurl hdecoded
      rw [hsub] at htrimmed
      refine ⟨h.sound, fun id' entry hget => ?_, fun id' payload' hget => ?_⟩
      · simp only [Dict.get?_set] at hget
        split at hget
        · rename_i hid
          obtain rfl := Option.some.inj hget
          rw [hid]
          exact entryWith_reached (fun entry hprevious => h.entries id entry hprevious)
            (parseEntity_id htrimmed hentity) hfetched hpath
        · exact h.entries id' entry hget
      · simp only [Dict.get?_set] at hget
        split at hget
        · rename_i hid
          obtain rfl := Option.some.inj hget
          rw [hid]
          exact ⟨jwt, hfetched, by rw [hW]; exact hdecoded, hsub, .inl ⟨rest, verified, hpath⟩⟩
        · exact h.publications id' payload' hget

/-- The context of a refresh: its own host, and URLs that stay as they are once trimmed. -/
structure RefreshContext (W : CollectionRefresh) (C : EvidenceContext) : Prop where
  host : C.host = W.host
  trimmed : ∀ s t, W.host.zodUrl s = some t → W.host.zodUrl t = some t

theorem examineChild_spec {node : CollectionNode} {fetchEndpoint id : String}
    (hW : RefreshContext W C) (hT : TraversalRests C T)
    (h : examineChild W C node fetchEndpoint id T = .ok T') :
    TraversalRests C T' ∧ T'.examined = T.examined ∧ T'.queue.length ≤ T.queue.length + 1 := by
  obtain ⟨ec, hec, h⟩ := bind_eq_ok.mp h
  obtain ⟨ss, -, h⟩ := bind_eq_ok.mp h
  obtain ⟨⟨verified, s⟩, hpath, h⟩ := bind_eq_ok.mp h
  obtain ⟨hadv, hvalid⟩ := validatePath_spec hT.sound hpath
  have hnext := hT.withEvidence hadv
  cases verified with
  | none =>
    obtain rfl := Except.ok.inj h
    exact ⟨hnext, rfl, Nat.le_succ _⟩
  | some verified =>
    obtain rfl := Except.ok.inj h
    refine ⟨addChild_rests hW.host hW.trimmed hnext (resultOf_eq_ok.mp hec) (hvalid verified rfl), ?_⟩
    unfold addChild
    split
    · exact ⟨rfl, Nat.le_succ _⟩
    · split
      · exact ⟨rfl, Nat.le_succ _⟩
      · split
        · exact ⟨rfl, Nat.le_succ _⟩
        · simp

/-- How many authorities a traversal may still look at. -/
def Traversal.budget (W : CollectionRefresh) (T : Traversal) : Nat :=
  T.queue.length + (W.maxEntities - T.examined)

theorem visitChild_spec {node : CollectionNode} {fetchEndpoint id : String}
    (hW : RefreshContext W C) (hT : TraversalRests C T)
    (h : visitChild W C node fetchEndpoint T id = .ok T') :
    TraversalRests C T' ∧ T'.budget W ≤ T.budget W := by
  unfold visitChild at h
  split at h
  · cases h
  split at h
  · obtain rfl := Except.ok.inj h
    exact ⟨hT, le_rfl⟩
  split at h
  · cases h
  rename_i hcount
  split at h
  · cases h
  have hcounted : TraversalRests C { T with examined := T.examined + 1 } :=
    ⟨hT.sound, hT.entries, hT.publications⟩
  obtain ⟨hrests, hexamined, hqueue⟩ := examineChild_spec hW hcounted h
  refine ⟨hrests, ?_⟩
  unfold Traversal.budget
  simp only at hexamined hqueue
  omega

theorem visitNode_spec {node : CollectionNode} (hW : RefreshContext W C) (hT : TraversalRests C T)
    (h : visitNode W C node T = .ok T') : TraversalRests C T' ∧ T'.budget W ≤ T.budget W := by
  unfold visitNode at h
  split at h
  · cases h
  split at h
  · obtain rfl := Except.ok.inj h
    exact ⟨hT, le_rfl⟩
  split at h
  · cases h
  rename_i fetchEndpoint _
  obtain ⟨list, -, hlist⟩ := bind_eq_ok.mp h
  generalize list.eraseDups = ids at hlist
  clear h
  induction ids generalizing T with
  | nil =>
    obtain rfl := Except.ok.inj hlist
    exact ⟨hT, le_rfl⟩
  | cons id rest ih =>
    obtain ⟨T₁, hchild, hrest⟩ := bind_eq_ok.mp hlist
    obtain ⟨hT₁, hbudget⟩ := visitChild_spec hW hT hchild
    obtain ⟨hT', hbudget'⟩ := ih hT₁ hrest
    exact ⟨hT', hbudget'.trans hbudget⟩

theorem traverseNode_spec {node : CollectionNode} (hW : RefreshContext W C)
    (hT : TraversalRests C T) (h : traverseNode W C node T = .ok T') :
    TraversalRests C T' ∧ T'.budget W ≤ T.budget W := by
  obtain ⟨s, haborted, h⟩ := bind_eq_ok.mp h
  have hnext := hT.withEvidence (checkAborted_spec hT.sound haborted)
  split at h
  · obtain rfl := Except.ok.inj h
    exact ⟨hnext, le_rfl⟩
  · have hfollowed : TraversalRests C
        { T with evidence := s, traversed := node.path :: T.traversed } :=
      ⟨hnext.sound, hnext.entries, hnext.publications⟩
    obtain ⟨hrests, hbudget⟩ := visitNode_spec hW hfollowed h
    exact ⟨hrests, hbudget⟩

/-- Without the authority at its head, a queue leaves less to look at. -/
theorem dequeue_spec {node : CollectionNode} {rest : List CollectionNode} (hT : TraversalRests C T)
    (hqueue : T.queue = node :: rest) :
    TraversalRests C { T with queue := rest } ∧
      Traversal.budget W { T with queue := rest } + 1 = T.budget W := by
  refine ⟨⟨hT.sound, hT.entries, hT.publications⟩, ?_⟩
  simp only [Traversal.budget, hqueue, List.length_cons]
  omega

theorem traverse_spec {fuel : Nat} (hW : RefreshContext W C) (hT : TraversalRests C T)
    (h : traverse W C fuel T = some (.ok T')) : TraversalRests C T' := by
  induction fuel generalizing T with
  | zero =>
    unfold traverse at h
    split at h
    · obtain rfl := Except.ok.inj (Option.some.inj h)
      exact hT
    · cases h
  | succ fuel ih =>
    unfold traverse at h
    split at h
    · obtain rfl := Except.ok.inj (Option.some.inj h)
      exact hT
    · rename_i node rest hqueue
      split at h
      · cases h
      · rename_i T₁ hnode
        exact ih (traverseNode_spec hW (dequeue_spec (W := W) hT hqueue).1 hnode).1 h

/-- The loop ends: every authority but the anchor takes one of the entities that may be examined. -/
theorem traverse_isSome {fuel : Nat} (hW : RefreshContext W C) (hT : TraversalRests C T)
    (hfuel : T.budget W ≤ fuel) : (traverse W C fuel T).isSome = true := by
  induction fuel generalizing T with
  | zero =>
    have hempty : T.queue = [] := by
      rw [Traversal.budget] at hfuel
      exact List.length_eq_zero_iff.mp (by omega)
    simp [traverse, hempty]
  | succ fuel ih =>
    unfold traverse
    split
    · rfl
    · rename_i node rest hqueue
      split
      · rfl
      · rename_i T₁ hnode
        obtain ⟨hrest, hless⟩ := dequeue_spec (W := W) hT hqueue
        obtain ⟨hT₁, hbudget⟩ := traverseNode_spec hW hrest hnode
        exact ih hT₁ (by omega)

theorem traverseFederation_spec (hW : RefreshContext W C) (h : traverseFederation W C = .ok T) :
    TraversalRests C T := by
  obtain ⟨⟨result, s⟩, hroot, h⟩ := bind_eq_ok.mp h
  obtain ⟨hadv, -⟩ := root_spec CollectionEvidence.sound_init hroot
  cases result with
  | error e => cases h
  | ok trustedRoot =>
    have hstart (queue : List CollectionNode) : TraversalRests C { queue, evidence := s } :=
      ⟨hadv.sound, fun id entry hget => by simp at hget, fun id payload hget => by simp at hget⟩
    have hends (anchor : CollectionNode) :
        (traverse W C (traverseFuel W) { queue := [anchor], evidence := s }).isSome = true := by
      refine traverse_isSome hW (hstart _) ?_
      simp only [Traversal.budget, traverseFuel, List.length_singleton]
      omega
    obtain ⟨r, hr⟩ := Option.isSome_iff_exists.mp (hends
      { id := C.trustAnchor, chain := [trustedRoot.jwt], depth := 0, path := [C.trustAnchor] })
    have hresult : r = .ok T := by
      simpa only [hr, Option.getD_some] using h
    exact traverse_spec hW (hstart _) (hr.trans (congrArg some hresult))

end Traverse

/-! ## The passes -/

section Passes

variable {W : CollectionRefresh} {C : EvidenceContext} {s s' : CollectionEvidence}
  {publications : Dict String EntityConfigurationPayload} {id : String}
  {entry entry' : CollectionEntry}

/-- The entries that are gathered, under their keys. -/
theorem gatherEntries_spec {gathered : GatheredEntries} (hW : RefreshContext W C)
    (h : gatherEntries W C = .ok gathered) :
    gathered.evidence.Sound C ∧ ∀ p ∈ gathered.entries.members,
      Entered C gathered.evidence.tick gathered.publications p.1 p.2 := by
  unfold gatherEntries at h
  split at h
  · obtain ⟨entries, hcollected, h⟩ := bind_eq_ok.mp h
    obtain rfl := Except.ok.inj h
    refine ⟨CollectionEvidence.sound_init, fun p hp => ?_⟩
    have hcandidate := collectCandidates_unproven hcollected p.1 p.2 (Dict.get?_of_mem hp)
    exact {
      key := hcandidate.key
      chain := fun x hx => by simp [hcandidate.chain] at hx
      marks := fun m hm => by simp [hcandidate.marks] at hm
      publication := fun payload hpayload => by simp at hpayload }
  · obtain ⟨T, htraversed, h⟩ := bind_eq_ok.mp h
    obtain rfl := Except.ok.inj h
    have hT := traverseFederation_spec hW htraversed
    refine ⟨hT.sound, fun p hp => ?_⟩
    have hreached := hT.entries p.1 p.2 (Dict.get?_of_mem hp)
    exact {
      key := hreached.key
      chain := hreached.chain
      marks := fun m hm => by simp [hreached.marks] at hm
      publication := fun payload hpayload => by
        rw [hreached.key]
        exact ⟨hT.publications p.1 payload hpayload, by simp [hreached.expires]⟩ }

/-- A loop over entries: what holds of each before a visit becomes what the visit establishes, and
entries keep their order. -/
theorem visitEntries_spec
    {visit : CollectionEvidence → String → CollectionEntry →
      Except RefreshStop (Option CollectionEntry × CollectionEvidence)}
    {before after : Nat → String → CollectionEntry → Prop}
    (hbefore : ∀ t t' id entry, before t id entry → t ≤ t' → before t' id entry)
    (hafter : ∀ t t' id entry, after t id entry → t ≤ t' → after t' id entry)
    (hvisit : ∀ s s' id entry kept, s.Sound C → before s.tick id entry →
      visit s id entry = .ok (kept, s') →
      Advances C s s' ∧ ∀ entry', kept = some entry' → after s'.tick id entry')
    {entries kept : List (String × CollectionEntry)} (hs : s.Sound C)
    (hentries : ∀ p ∈ entries, before s.tick p.1 p.2)
    (h : visitEntries visit s entries = .ok (kept, s')) :
    Advances C s s' ∧ (∀ p ∈ kept, after s'.tick p.1 p.2) ∧
      (kept.map Prod.fst).Sublist (entries.map Prod.fst) := by
  induction entries generalizing s kept with
  | nil =>
    obtain ⟨rfl, rfl⟩ := Prod.mk.inj (Except.ok.inj h)
    exact ⟨hs.advances, by simp, .slnil⟩
  | cons p rest ih =>
    obtain ⟨id, entry⟩ := p
    obtain ⟨⟨one, s₁⟩, hone, h⟩ := bind_eq_ok.mp h
    obtain ⟨⟨others, s₂⟩, hothers, h⟩ := bind_eq_ok.mp h
    obtain ⟨rfl, rfl⟩ := Prod.mk.inj (Except.ok.inj h)
    obtain ⟨hadv, hleft⟩ := hvisit s s₁ id entry one hs (hentries _ List.mem_cons_self) hone
    obtain ⟨hadv', hall, hsub⟩ := ih hadv.sound
      (fun p hp => hbefore _ _ _ _ (hentries p (List.mem_cons_of_mem _ hp)) hadv.le) hothers
    refine ⟨hadv.trans hadv', fun p hp => ?_, ?_⟩
    · obtain hp | hp := List.mem_append.mp hp
      · cases one with
        | none => simp at hp
        | some entry' =>
          obtain rfl : p = (id, entry') := by simpa using hp
          exact hafter _ _ _ _ (hleft entry' rfl) hadv'.le
      · exact hall p hp
    · cases one with
      | none => exact hsub.cons _
      | some entry' => exact hsub.cons_cons _

/-- Verified marks are added to an entry that stays what it is. -/
theorem Entered.verified {openOnly : Bool} (hs : s.Sound C)
    (hentry : Entered C s.tick publications id entry)
    (h : verifyMarks C s entry (publications.get? id) openOnly = .ok (entry', s')) :
    Advances C s s' ∧ Entered C s'.tick publications id entry' := by
  obtain ⟨hadv, hmarks, hsame⟩ := verifyMarks_spec hs hentry.publication hentry.marks h
  have hlater := hentry.mono hadv.le
  rw [SameButMarks] at hsame
  rw [hsame] at hmarks ⊢
  exact ⟨hadv, ⟨hlater.key, hlater.chain, hmarks, hlater.publication⟩⟩

theorem verifyListed_spec {kept : Option CollectionEntry} (hs : s.Sound C)
    (hentry : Entered C s.tick publications id entry)
    (h : verifyListed C publications s id entry = .ok (kept, s')) :
    Advances C s s' ∧ ∀ entry', kept = some entry' → Entered C s'.tick publications id entry' := by
  unfold verifyListed at h
  split at h
  · obtain ⟨rfl, rfl⟩ := Prod.mk.inj (Except.ok.inj h)
    exact ⟨hs.next, nofun⟩
  · obtain ⟨⟨verified, s₁⟩, hverified, h⟩ := bind_eq_ok.mp h
    obtain ⟨rfl, rfl⟩ := Prod.mk.inj (Except.ok.inj h)
    obtain ⟨hadv, hentered⟩ := (hentry.mono hs.next.le).verified hs.next.sound hverified
    refine ⟨hs.next.trans hadv, fun entry' hentry' => ?_⟩
    obtain rfl := Option.some.inj hentry'
    exact hentered

/-- An entry as a filter may leave it: the same, with deadlines that are no later. -/
structure Shortened (entry entry' : CollectionEntry) : Prop where
  entity : entry'.entity = entry.entity
  chain : entry'.chainExpiresAt = entry.chainExpiresAt
  expires : entry'.expiresAt ≤ entry.expiresAt
  marks : List.Forall₂ (fun mark mark' => mark'.1 = mark.1 ∧ mark'.2 ≤ mark.2)
    entry.verifiedMarks entry'.verifiedMarks

theorem Shortened.refl (entry : CollectionEntry) : Shortened entry entry :=
  ⟨rfl, rfl, le_rfl, List.forall₂_same.mpr fun _ _ => ⟨rfl, le_rfl⟩⟩

theorem shortenTo_shortened (expiresAt : Rat) (entry : CollectionEntry) :
    Shortened entry (shortenTo expiresAt entry) where
  entity := rfl
  chain := rfl
  expires := min_le_left _ _
  marks := by
    rw [shortenTo, List.forall₂_map_right_iff]
    exact List.forall₂_same.mpr fun mark _ => ⟨rfl, min_le_left _ _⟩

/-- What a filter leaves of an entry is the entry, or a shortened one whose marks are within it. -/
theorem applyDecision_cases {decision : Json}
    (h : applyDecision entry decision = .ok (some entry')) :
    entry' = entry ∨ ∃ expiresAt, entry' = shortenTo expiresAt entry := by
  unfold applyDecision at h
  split at h
  · cases h
  · exact .inl (Option.some.inj (Except.ok.inj h)).symm
  · exact .inr ⟨_, (Option.some.inj (Except.ok.inj h)).symm⟩
  · cases h

theorem Entered.shortenTo {t : Nat} (h : Entered C t publications id entry) (expiresAt : Rat) :
    Entered C t publications id (OidFed.shortenTo expiresAt entry) where
  key := h.key
  chain x hx := by
    obtain ⟨hle, hpath⟩ := h.chain x hx
    exact ⟨(min_le_left _ _).trans hle, hpath⟩
  marks m hm := by
    obtain ⟨mark, hmark, rfl⟩ := List.mem_map.mp hm
    refine ⟨min_le_right _ _, fun hown => ?_⟩
    obtain ⟨ref, root, issuer, checked, hevidence⟩ := (h.marks mark hmark).evidence hown
    exact ⟨ref, root, issuer, checked, hevidence.earlier (min_le_left _ _)⟩
  publication := h.publication

theorem filterEntry_spec {kept : Option CollectionEntry} (hs : s.Sound C)
    (hentry : Entered C s.tick publications id entry)
    (h : filterEntry W s entry = .ok (kept, s')) :
    Advances C s s' ∧ ∀ entry', kept = some entry' →
      Entered C s'.tick publications id entry' ∧ Shortened entry entry' := by
  unfold filterEntry at h
  split at h
  · obtain ⟨rfl, rfl⟩ := Prod.mk.inj (Except.ok.inj h)
    refine ⟨hs.advances, fun entry' hentry' => ?_⟩
    obtain rfl := Option.some.inj hentry'
    exact ⟨hentry, .refl _⟩
  · obtain ⟨decision, -, h⟩ := bind_eq_ok.mp h
    obtain ⟨left, hleft, h⟩ := bind_eq_ok.mp h
    obtain ⟨rfl, rfl⟩ := Prod.mk.inj (Except.ok.inj h)
    refine ⟨hs.next, fun entry' hentry' => ?_⟩
    subst hentry'
    obtain rfl | ⟨expiresAt, rfl⟩ := applyDecision_cases hleft
    · exact ⟨hentry.mono hs.next.le, .refl _⟩
    · exact ⟨(hentry.mono hs.next.le).shortenTo expiresAt, shortenTo_shortened expiresAt entry⟩

/-- An entry that the last pass has left: it has been verified, then shortened at most, and had not
expired at the reading of the clock that follows, the last one for it. -/
structure FinishedEntry (W : CollectionRefresh) (C : EvidenceContext) (t : Nat) (id : String)
    (entry : CollectionEntry) : Prop where
  key : entityIdOf entry.entity = id
  chain : ChainRests C t entry
  marks : MarksRest C t entry
  finished : ∃ publication s before verified s₁ s₂,
    verifyMarks C s before publication true = .ok (verified, s₁) ∧
      filterEntry W s₁ verified = .ok (some entry, s₂) ∧ Shortened verified entry ∧
      s₂.tick < t ∧ C.clock s₂.tick .start < entry.expiresAt

theorem FinishedEntry.mono {t t' : Nat} (h : FinishedEntry W C t id entry) (ht : t ≤ t') :
    FinishedEntry W C t' id entry := by
  obtain ⟨publication, s, before, verified, s₁, s₂, hverified, hleft, hshortened, hlt, halive⟩ :=
    h.finished
  exact ⟨h.key, h.chain.mono ht, h.marks.mono ht, publication, s, before, verified, s₁, s₂,
    hverified, hleft, hshortened, lt_of_lt_of_le hlt ht, halive⟩

theorem finishEntry_spec {kept : Option CollectionEntry} (hs : s.Sound C)
    (hentry : Entered C s.tick publications id entry)
    (h : finishEntry W C publications s id entry = .ok (kept, s')) :
    Advances C s s' ∧ ∀ entry', kept = some entry' → FinishedEntry W C s'.tick id entry' := by
  obtain ⟨⟨verified, s₁⟩, hverified, h⟩ := bind_eq_ok.mp h
  obtain ⟨⟨left, s₂⟩, hleft, h⟩ := bind_eq_ok.mp h
  obtain ⟨hadv, hentered⟩ := hentry.verified hs hverified
  obtain ⟨hadv', hfiltered⟩ := filterEntry_spec hadv.sound hentered hleft
  have hall := hadv.trans hadv'
  cases left with
  | none =>
    obtain ⟨rfl, rfl⟩ := Prod.mk.inj (Except.ok.inj h)
    exact ⟨hall, nofun⟩
  | some left =>
    obtain ⟨rfl, rfl⟩ := Prod.mk.inj (Except.ok.inj h)
    refine ⟨hall.trans hall.sound.next, fun entry' hentry' => ?_⟩
    split at hentry'
    · cases hentry'
    rename_i halive
    obtain rfl := Option.some.inj hentry'
    obtain ⟨hentered', hshortened⟩ := hfiltered left rfl
    have hlater := hentered'.mono hall.sound.next.le
    exact ⟨hlater.key, hlater.chain, hlater.marks, publications.get? id, s, entry, verified, s₁, s₂,
      hverified, hleft, hshortened, Nat.lt_succ_self _, lt_of_not_ge halive⟩

end Passes

/-! ## The snapshot -/

section Snapshot

variable {W : CollectionRefresh} {C : EvidenceContext}

/-- Entries under different keys are sorted strictly. -/
theorem sortEntries_sorted {kept : List (String × CollectionEntry)}
    (hkeys : (kept.map Prod.fst).Nodup) (hids : ∀ p ∈ kept, entityIdOf p.2.entity = p.1) :
    (sortEntries (kept.map Prod.snd)).Pairwise fun a b =>
      textLt (entityIdOf a.entity) (entityIdOf b.entity) = true := by
  have : Std.Total fun a b : CollectionEntry =>
      textLe (entityIdOf a.entity) (entityIdOf b.entity) = true :=
    ⟨fun a b => by simpa using textLe_total (entityIdOf a.entity) (entityIdOf b.entity)⟩
  have : IsTrans CollectionEntry fun a b =>
      textLe (entityIdOf a.entity) (entityIdOf b.entity) = true :=
    ⟨fun a b c hab hbc => textLe_trans hab hbc⟩
  have hle : (sortEntries (kept.map Prod.snd)).Pairwise fun a b =>
      textLe (entityIdOf a.entity) (entityIdOf b.entity) = true :=
    List.pairwise_insertionSort _ _
  have hnodup : ((sortEntries (kept.map Prod.snd)).map fun e => entityIdOf e.entity).Nodup := by
    refine ((List.perm_insertionSort _ _).map _).nodup_iff.mpr ?_
    rw [List.map_map]
    have hsame : kept.map ((fun e => entityIdOf e.entity) ∘ Prod.snd) = kept.map Prod.fst :=
      List.map_congr_left hids
    rwa [hsame]
  have hne : (sortEntries (kept.map Prod.snd)).Pairwise fun a b =>
      entityIdOf a.entity ≠ entityIdOf b.entity := List.pairwise_map.mp hnodup
  refine (hle.and hne).imp fun {a b} hab => ?_
  rw [textLt, decide_eq_true_eq]
  exact lt_of_le_of_ne (textLe_iff.mp hab.1) fun heq => hab.2 (congrArg Utf16.text heq)

theorem collectSnapshot_spec {snapshot : EntityCollectionSnapshot} (hW : RefreshContext W C)
    (h : collectSnapshot W C = .ok snapshot) :
    (snapshot.entries.Pairwise fun a b =>
      textLt (entityIdOf a.entity) (entityIdOf b.entity) = true) ∧
      ∃ t, snapshot.lastUpdated = C.clock t .start ∧
        ∀ e ∈ snapshot.entries, FinishedEntry W C t (entityIdOf e.entity) e := by
  obtain ⟨gathered, hgathered, h⟩ := bind_eq_ok.mp h
  obtain ⟨⟨listed, s₁⟩, hlisted, h⟩ := bind_eq_ok.mp h
  obtain ⟨⟨finished, s₂⟩, hfinished, h⟩ := bind_eq_ok.mp h
  obtain ⟨s₃, haborted, h⟩ := bind_eq_ok.mp h
  obtain rfl := Except.ok.inj h
  obtain ⟨hsound, hentries⟩ := gatherEntries_spec hW hgathered
  have hmono t t' id entry (h : Entered C t gathered.publications id entry) (ht : t ≤ t') :
      Entered C t' gathered.publications id entry := h.mono ht
  have hmono' t t' id entry (h : FinishedEntry W C t id entry) (ht : t ≤ t') :
      FinishedEntry W C t' id entry := h.mono ht
  obtain ⟨hadv₁, hentered, hsub₁⟩ := visitEntries_spec hmono hmono
    (fun _ _ _ _ _ hs hentry hrun => verifyListed_spec hs hentry hrun) hsound hentries hlisted
  obtain ⟨hadv₂, hkept, hsub₂⟩ := visitEntries_spec hmono hmono'
    (fun _ _ _ _ _ hs hentry hrun => finishEntry_spec hs hentry hrun) hadv₁.sound hentered hfinished
  have hadv₃ := checkAborted_spec hadv₂.sound haborted
  have hkeys : (finished.map Prod.fst).Nodup :=
    (hsub₂.trans hsub₁).nodup gathered.entries.nodup
  refine ⟨sortEntries_sorted hkeys fun p hp => (hkept p hp).key, s₃.tick, rfl, fun e he => ?_⟩
  obtain ⟨p, hp, rfl⟩ := List.mem_map.mp ((List.mem_insertionSort _).mp he)
  rw [(hkept p hp).key]
  exact (hkept p hp).mono hadv₃.le

/-- A chain that has been validated for a refresh ends at its anchor. -/
theorem Validated.anchor {anchor : String} {jwks : JWKSet} {t : Nat} {chain : List String}
    {path : AuthenticatedChain} (h : Validated (W.evidence anchor jwks) t chain path) :
    path.trustAnchorId = anchor := by
  obtain ⟨n, -, r, hr, hpath⟩ := h
  obtain ⟨parsed, hacc, rfl, -⟩ := validateTrustChainImpl_accepted hr hpath
  obtain ⟨_, _, iss, _, _, -, -, -, hkeys, -, hanchor⟩ := hacc.authentic.anchor
  rw [hanchor]
  by_contra hne
  rw [show (W.evidence anchor jwks).trustAnchors = Dict.empty.set anchor jwks from rfl,
    Dict.get?_set_ne _ _ hne] at hkeys
  simp at hkeys

end Snapshot

/-- The entries of a snapshot are sorted by identifier, and each of them is finished, on evidence
from before the time of the snapshot. -/
def SnapshotRests (W : CollectionRefresh) (anchor : String) (snapshot : EntityCollectionSnapshot) :
    Prop :=
  ∃ jwks C, W.trustAnchors.get? anchor = some jwks ∧ C = W.evidence anchor jwks ∧
    (snapshot.entries.Pairwise fun a b =>
      textLt (entityIdOf a.entity) (entityIdOf b.entity) = true) ∧
    (∀ n chain path, Validated C n chain path → path.trustAnchorId = anchor) ∧
    ∃ t, snapshot.lastUpdated = C.clock t .start ∧
      ∀ e ∈ snapshot.entries, FinishedEntry W C t (entityIdOf e.entity) e

/-- Whatever a refresh meets: an entry of its snapshot has not expired when the clock is last read
for it, and each of its marks rests on evidence and expires with the first of what it rests on, at
the latest. -/
theorem buildCollectionSnapshot_rests (W : CollectionRefresh) (anchor : String)
    (hurl : ∀ s t, W.host.zodUrl s = some t → W.host.zodUrl t = some t)
    (snapshot : EntityCollectionSnapshot) (h : buildCollectionSnapshot W anchor = .ok snapshot) :
    SnapshotRests W anchor snapshot := by
  unfold buildCollectionSnapshot at h
  cases hanchor : W.trustAnchors.get? anchor with
  | none => simp [hanchor] at h
  | some jwks =>
    simp only [hanchor] at h
    split at h
    · rename_i built hbuilt
      obtain rfl := Except.ok.inj h
      obtain ⟨hsorted, t, hupdated, hentries⟩ := collectSnapshot_spec ⟨rfl, hurl⟩ hbuilt
      exact ⟨jwks, W.evidence anchor jwks, hanchor, rfl, hsorted, fun _ _ _ hpath => hpath.anchor,
        t, hupdated, hentries⟩
    · cases h
    · cases h

/-- An anchor that lists an issuer for a type, and an entity with a mark of the issuer. -/
def markFederation : List (String × SignedJwt) :=
  let hints := ("authority_hints", Json.arr [.str "https://ta.example"])
  let subject (id key : String) (rest : List (String × Json)) :=
    signedJwt JwtTyp.entityStatement key (statementClaims id id key (hints :: rest))
  [("ta", signedJwt JwtTyp.entityStatement "ta-key"
      (statementClaims "https://ta.example" "https://ta.example" "ta-key"
        [("metadata", .obj [("federation_entity", .obj
            [("federation_list_endpoint", .str "https://ta.example/list"),
              ("federation_fetch_endpoint", .str "https://ta.example/fetch")])]),
          ("trust_mark_issuers", .obj
            [("https://ta.example/mark", .arr [.str "https://issuer.example"])])])),
    ("issuer", subject "https://issuer.example" "issuer-key" []),
    ("rp", subject "https://rp.example" "rp-key"
      [("trust_marks", .arr [.obj [("trust_mark_type", .str "https://ta.example/mark"),
        ("trust_mark", .str "mark")]])]),
    ("ta-about-issuer", signedJwt JwtTyp.entityStatement "ta-key"
      (statementClaims "https://ta.example" "https://issuer.example" "issuer-key" [])),
    ("ta-about-rp", signedJwt JwtTyp.entityStatement "ta-key"
      (statementClaims "https://ta.example" "https://rp.example" "rp-key" [])),
    ("mark", signedJwt JwtTyp.trustMark "issuer-key"
      [("iss", .str "https://issuer.example"), ("sub", .str "https://rp.example"),
        ("trust_mark_type", .str "https://ta.example/mark"), ("iat", .num 1000),
        ("exp", .num 1900)])]

/-- A refresh of it at 1500, with a filter that sets a deadline. -/
def markRefresh : CollectionRefresh where
  host := { tablePlatform markFederation with
    searchParams := fun _ => []
    formText := fun _ => ""
    urlPathname := Url.href }
  trustAnchors := exampleAnchors
  filter := some fun _ _ => some (.obj [("expiresAt", .num 1800)])
  clock _ _ := 1500
  configuration id := (([("https://ta.example", "ta"), ("https://issuer.example", "issuer"),
    ("https://rp.example", "rp")] : List (String × String)).lookup id).map .ok
  statement _ _ id := (([("https://issuer.example", "ta-about-issuer"),
    ("https://rp.example", "ta-about-rp")] : List (String × String)).lookup id).map .ok
  listing _ _ := some (.ok ["https://rp.example", "https://issuer.example"])
  resolveTrustChains _ _ _ := none
  randomUUID := "snapshot"

theorem markRefresh_rests : ∃ snapshot, SnapshotRests markRefresh "https://ta.example" snapshot ∧
    (snapshot.entries.map fun e => (entityIdOf e.entity, e.expiresAt, e.verifiedMarks)) =
      [("https://issuer.example", 1800, []),
        ("https://rp.example", 1800, [("https://ta.example/mark", 1800)])] := by
  have hrun : ((buildCollectionSnapshot markRefresh "https://ta.example").toOption.map fun s =>
      s.entries.map fun e => (entityIdOf e.entity, e.expiresAt, e.verifiedMarks)) =
        some [("https://issuer.example", 1800, []),
          ("https://rp.example", 1800, [("https://ta.example/mark", 1800)])] := by decide +kernel
  obtain ⟨snapshot, hbuilt, hentries⟩ := Option.map_eq_some_iff.mp hrun
  refine ⟨snapshot, buildCollectionSnapshot_rests markRefresh "https://ta.example" ?_ snapshot
    (toOption_eq_some.mp hbuilt), hentries⟩
  intro s t hs
  have hs' : (if isHttps s then some s else none) = some t := hs
  obtain ⟨-, hst⟩ := Option.ite_none_right_eq_some.mp hs'
  obtain rfl := Option.some.inj hst
  exact hs

end OidFed
