import OidFed.Js.Dict

/-!
# Paths of claim descriptions (`wallet/src/metadata.ts`)

* `ClaimPathNode`, `ClaimPathNode.insert`, `validateClaimDescriptions`: the tree of the paths so far,
  the walk of a path through it, and the loop over the claims.
* `Compatible`, `CompatiblePaths`: two components at one place, and two paths.
* `Represents`: the flags of a tree say which paths are in it. `insert_isOk_iff`, `insert_represents`:
  when a path can be added, and what the tree is then.
* `validateClaimDescriptions_iff`: descriptions are accepted exactly where the paths are well formed,
  distinct and compatible two by two, so that their order does not matter.
-/

namespace OidFed

open Js

/-! ## The tree -/

/-- A component of a path: a name, an index, or `null` for all elements. -/
inductive PathComponent where
  | name (text : String)
  | index (n : Int)
  | all
  deriving DecidableEq, Repr

inductive PathKind where
  | object
  | array
  deriving DecidableEq, Repr

structure ClaimPathNode where
  children : List (PathComponent × ClaimPathNode) := []
  kind : Option PathKind := none
  wildcard : Bool := false
  indexed : Bool := false
  terminal : Bool := false

/-- A description, with the part of it that the check reads. -/
structure ClaimDescription where
  path : List PathComponent
  deriving DecidableEq, Repr

/-- What a component says about the value it is a part of. VCI Appendix C.2 allows integer CBOR map
keys; a nonnegative integer is ambiguous. -/
def pathKind (mdoc : Bool) : PathComponent → Option PathKind
  | .name _ => some .object
  | .index n => if mdoc then (if n < 0 then some .object else none) else some .array
  | .all => some .array

def isIndex : PathComponent → Bool
  | .index n => decide (0 ≤ n)
  | _ => false

/-- The path is one of the credential format. -/
def isFormatPath (mdoc : Bool) (path : List PathComponent) : Bool :=
  if mdoc then
    match path with
    | .name _ :: .name _ :: _ => true
    | _ => false
  else
    path.all fun component =>
      match component with
      | .index n => decide (0 ≤ n)
      | _ => true

namespace ClaimPathNode

/-- The child under a component, or a new one. -/
def child (node : ClaimPathNode) (component : PathComponent) : ClaimPathNode :=
  (node.children.lookup component).getD {}

def conflicts (mdoc : Bool) (node : ClaimPathNode) (component : PathComponent) : Bool :=
  (match pathKind mdoc component, node.kind with
    | some kind, some kind' => kind != kind'
    | _, _ => false) ||
  (component == .all && node.indexed) || (isIndex component && node.wildcard)

/-- The walk of a path, which adds it to the tree. An error is the message of the issue. -/
def insert (mdoc : Bool) : ClaimPathNode → List PathComponent → Except String ClaimPathNode
  | node, [] =>
    if node.terminal then .error "Claim descriptions repeat the same path"
    else .ok { node with terminal := true }
  | node, component :: rest =>
    if node.conflicts mdoc component then .error "Claim descriptions contain conflicting paths"
    else do
      let next ← insert mdoc (node.child component) rest
      return { node with
        children := setMembers node.children component next
        kind := (pathKind mdoc component).or node.kind
        wildcard := node.wildcard || component == .all
        indexed := node.indexed || isIndex component }

end ClaimPathNode

/-- The loop over the claims; the message of the issue, if any. -/
def validateClaims (mdoc : Bool) (root : ClaimPathNode) : List ClaimDescription → Option String
  | [] => none
  | claim :: rest =>
    if !isFormatPath mdoc claim.path then
      some "Invalid claim description path for the credential format"
    else
      match root.insert mdoc claim.path with
      | .error message => some message
      | .ok root => validateClaims mdoc root rest

def validateClaimDescriptions (claims : List ClaimDescription) (mdoc : Bool) : Option String :=
  validateClaims mdoc {} claims

/-! ## Paths -/

/-- Two components at one place: they do not speak of an object and of an array, nor of all elements
and of one. -/
structure Compatible (mdoc : Bool) (c d : PathComponent) : Prop where
  kind : ∀ k k', pathKind mdoc c = some k → pathKind mdoc d = some k' → k = k'
  left : ¬ (c = .all ∧ isIndex d = true)
  right : ¬ (isIndex c = true ∧ d = .all)

/-- Behind every common prefix the next components are compatible. -/
def CompatiblePaths (mdoc : Bool) (p q : List PathComponent) : Prop :=
  ∀ start c d p' q', p = start ++ c :: p' → q = start ++ d :: q' → Compatible mdoc c d

/-- What descriptions are accepted. -/
structure ConsistentClaims (mdoc : Bool) (claims : List ClaimDescription) : Prop where
  format : ∀ claim ∈ claims, isFormatPath mdoc claim.path = true
  distinct : (claims.map (·.path)).Nodup
  compatible : ∀ claim ∈ claims, ∀ claim' ∈ claims,
    CompatiblePaths mdoc claim.path claim'.path

section Paths

variable {mdoc : Bool} {c d : PathComponent} {p q : List PathComponent}

theorem Compatible.symm (h : Compatible mdoc c d) : Compatible mdoc d c where
  kind k k' hk hk' := (h.kind k' k hk' hk).symm
  left h' := h.right ⟨h'.2, h'.1⟩
  right h' := h.left ⟨h'.2, h'.1⟩

theorem Compatible.refl (c : PathComponent) : Compatible mdoc c c where
  kind k k' hk hk' := Option.some.inj (hk.symm.trans hk')
  left := by
    rintro ⟨rfl, h⟩
    simp [isIndex] at h
  right := by
    rintro ⟨h, rfl⟩
    simp [isIndex] at h

theorem CompatiblePaths.symm (h : CompatiblePaths mdoc p q) : CompatiblePaths mdoc q p :=
  fun start c d p' q' hp hq => (h start d c q' p' hq hp).symm

theorem CompatiblePaths.refl (p : List PathComponent) : CompatiblePaths mdoc p p := by
  intro start c d p' q' hp hq
  obtain ⟨rfl, -⟩ := List.cons.inj (List.append_cancel_left (hp.symm.trans hq))
  exact .refl c

theorem compatiblePaths_nil : CompatiblePaths mdoc [] q := by
  intro start c d p' q' hp
  simp at hp

theorem compatiblePaths_cons : CompatiblePaths mdoc (c :: p) (d :: q) ↔
    Compatible mdoc c d ∧ (c = d → CompatiblePaths mdoc p q) := by
  constructor
  · intro h
    refine ⟨h [] c d p q rfl rfl, ?_⟩
    rintro rfl start x y p' q' rfl rfl
    exact h (c :: start) x y p' q' rfl rfl
  · rintro ⟨hfirst, hrest⟩ start x y p' q' hp hq
    cases start with
    | nil =>
      obtain ⟨rfl, -⟩ := List.cons.inj hp
      obtain ⟨rfl, -⟩ := List.cons.inj hq
      exact hfirst
    | cons s start =>
      obtain ⟨rfl, rfl⟩ := List.cons.inj hp
      obtain ⟨rfl, rfl⟩ := List.cons.inj hq
      exact hrest rfl start x y p' q' rfl rfl

end Paths

/-! ## What a tree represents -/

namespace ClaimPathNode

/-- The node under a path. -/
def walk (node : ClaimPathNode) : List PathComponent → ClaimPathNode
  | [] => node
  | c :: rest => (node.child c).walk rest

/-- The flags of a node say which paths lead on from it. -/
structure Shows (mdoc : Bool) (node : ClaimPathNode) (paths : List PathComponent → Prop) : Prop where
  terminal : node.terminal = true ↔ paths []
  kind : ∀ k, node.kind = some k ↔ ∃ c rest, paths (c :: rest) ∧ pathKind mdoc c = some k
  wildcard : node.wildcard = true ↔ ∃ rest, paths (.all :: rest)
  indexed : node.indexed = true ↔ ∃ c rest, paths (c :: rest) ∧ isIndex c = true

/-- Every node of a tree shows the paths that lead through it. -/
def Represents (mdoc : Bool) (node : ClaimPathNode) (paths : List PathComponent → Prop) : Prop :=
  ∀ start, (node.walk start).Shows mdoc fun rest => paths (start ++ rest)

section Represents

variable {mdoc : Bool} {node node' : ClaimPathNode} {paths : List PathComponent → Prop}
  {c : PathComponent}

theorem walk_new (start : List PathComponent) : ({} : ClaimPathNode).walk start = {} := by
  induction start with
  | nil => rfl
  | cons c start ih => exact ih

theorem represents_new : ({} : ClaimPathNode).Represents mdoc fun _ => False := by
  intro start
  rw [walk_new]
  constructor <;> simp

theorem Represents.child (h : node.Represents mdoc paths) (c : PathComponent) :
    (node.child c).Represents mdoc fun rest => paths (c :: rest) :=
  fun start => h (c :: start)

/-- A component conflicts with a node where it is not compatible with one that leads on from it. -/
theorem conflicts_eq_false_iff (h : node.Shows mdoc paths) :
    node.conflicts mdoc c = false ↔ ∀ d rest, paths (d :: rest) → Compatible mdoc c d := by
  have hkind : (match pathKind mdoc c, node.kind with
      | some kind, some kind' => kind != kind'
      | _, _ => false) = false ↔
      ∀ k k', pathKind mdoc c = some k → node.kind = some k' → k = k' := by
    cases pathKind mdoc c with
    | none => simp
    | some k =>
      cases node.kind with
      | none => simp
      | some k' => simp
  rw [conflicts, Bool.or_eq_false_iff, Bool.or_eq_false_iff, hkind, Bool.and_eq_false_iff,
    Bool.and_eq_false_iff]
  constructor
  · rintro ⟨⟨hk, hall⟩, hindex⟩ d rest hd
    refine ⟨fun k k' hc hd' => hk k k' hc ((h.kind k').mpr ⟨d, rest, hd, hd'⟩), ?_, ?_⟩
    · rintro ⟨rfl, hd'⟩
      have := h.indexed.mpr ⟨d, rest, hd, hd'⟩
      simp [this] at hall
    · rintro ⟨hc, rfl⟩
      have := h.wildcard.mpr ⟨rest, hd⟩
      simp [this, hc] at hindex
  · intro hcompatible
    refine ⟨⟨fun k k' hc hk' => ?_, ?_⟩, ?_⟩
    · obtain ⟨d, rest, hd, hd'⟩ := (h.kind k').mp hk'
      exact (hcompatible d rest hd).kind k k' hc hd'
    · by_contra hno
      rw [not_or, Bool.not_eq_false, Bool.not_eq_false, beq_iff_eq] at hno
      obtain ⟨d, rest, hd, hd'⟩ := h.indexed.mp hno.2
      exact (hcompatible d rest hd).left ⟨hno.1, hd'⟩
    · by_contra hno
      rw [not_or, Bool.not_eq_false, Bool.not_eq_false] at hno
      obtain ⟨rest, hd⟩ := h.wildcard.mp hno.2
      exact (hcompatible .all rest hd).right ⟨hno.1, rfl⟩

/-- A path can be added where it is a new one and compatible with all the others. -/
theorem insert_isOk_iff {path : List PathComponent} (h : node.Represents mdoc paths) :
    (∃ node', node.insert mdoc path = .ok node') ↔
      ¬ paths path ∧ ∀ q, paths q → CompatiblePaths mdoc path q := by
  induction path generalizing node paths with
  | nil =>
    have hterminal := (h []).terminal
    rw [insert]
    cases ht : node.terminal with
    | true => simpa using fun hno => absurd (hterminal.mp ht) hno
    | false =>
      have hno : ¬ paths [] := fun hp => by
        have := hterminal.mpr hp
        simp [walk, ht] at this
      simpa using ⟨hno, fun q _ => compatiblePaths_nil⟩
  | cons c rest ih =>
    have hconflicts := conflicts_eq_false_iff (c := c) (h [])
    have hchild := ih (h.child c)
    rw [insert]
    constructor
    · rintro ⟨node', hok⟩
      split at hok
      · simp at hok
      · rename_i hc
        obtain ⟨next, hnext, -⟩ := bind_eq_ok.mp hok
        obtain ⟨hnew, hall⟩ := hchild.mp ⟨next, hnext⟩
        refine ⟨hnew, fun q hq => ?_⟩
        cases q with
        | nil => exact compatiblePaths_nil.symm
        | cons d q =>
          refine compatiblePaths_cons.mpr ⟨hconflicts.mp (by simpa [walk] using hc) d q hq, ?_⟩
          rintro rfl
          exact hall q hq
    · rintro ⟨hnew, hall⟩
      have hc : node.conflicts mdoc c = false := hconflicts.mpr fun d r hd =>
        (compatiblePaths_cons.mp (hall (d :: r) hd)).1
      obtain ⟨next, hnext⟩ := hchild.mpr ⟨hnew, fun q hq =>
        (compatiblePaths_cons.mp (hall (c :: q) hq)).2 rfl⟩
      rw [hc, if_neg Bool.false_ne_true, hnext]
      exact ⟨_, rfl⟩

theorem child_setMembers (node : ClaimPathNode) (c d : PathComponent) (next : ClaimPathNode)
    (k : Option PathKind) (w i t : Bool) :
    (ClaimPathNode.mk (setMembers node.children c next) k w i t).child d =
      if d = c then next else node.child d := by
  rw [child, lookup_setMembers]
  split
  · rfl
  · rfl

/-- The node that a new component leaves, which is compatible with the others. -/
theorem shows_insert {rest : List PathComponent} (h : node.Shows mdoc paths)
    (hcompatible : ∀ d r, paths (d :: r) → Compatible mdoc c d)
    (children : List (PathComponent × ClaimPathNode)) :
    (ClaimPathNode.mk children ((pathKind mdoc c).or node.kind) (node.wildcard || c == .all)
      (node.indexed || isIndex c) node.terminal).Shows mdoc
        fun q => paths q ∨ q = c :: rest where
  terminal := by simpa using h.terminal
  kind k := by
    cases hc : pathKind mdoc c with
    | none =>
      rw [Option.none_or, h.kind]
      constructor
      · rintro ⟨d, r, hd, hk⟩
        exact ⟨d, r, .inl hd, hk⟩
      · rintro ⟨d, r, hd | heq, hk⟩
        · exact ⟨d, r, hd, hk⟩
        · rw [(List.cons.inj heq).1, hc] at hk
          simp at hk
    | some k' =>
      rw [Option.some_or]
      constructor
      · intro hk
        obtain rfl : k' = k := Option.some.inj hk
        exact ⟨c, rest, .inr rfl, hc⟩
      · rintro ⟨d, r, hd | heq, hk⟩
        · rw [(hcompatible d r hd).kind k' k hc hk]
        · rw [(List.cons.inj heq).1, hc] at hk
          exact hk
  wildcard := by
    rw [Bool.or_eq_true, h.wildcard, beq_iff_eq]
    constructor
    · rintro (⟨r, hr⟩ | rfl)
      · exact ⟨r, .inl hr⟩
      · exact ⟨rest, .inr rfl⟩
    · rintro ⟨r, hr | heq⟩
      · exact .inl ⟨r, hr⟩
      · exact .inr (List.cons.inj heq).1.symm
  indexed := by
    rw [Bool.or_eq_true, h.indexed]
    constructor
    · rintro (⟨d, r, hd, hindex⟩ | hindex)
      · exact ⟨d, r, .inl hd, hindex⟩
      · exact ⟨c, rest, .inr rfl, hindex⟩
    · rintro ⟨d, r, hd | heq, hindex⟩
      · exact .inl ⟨d, r, hd, hindex⟩
      · exact .inr ((List.cons.inj heq).1 ▸ hindex)

/-- With a path added, the tree represents it too. -/
theorem insert_represents {path : List PathComponent} (h : node.Represents mdoc paths)
    (hok : node.insert mdoc path = .ok node') :
    node'.Represents mdoc fun q => paths q ∨ q = path := by
  induction path generalizing node node' paths with
  | nil =>
    rw [insert] at hok
    split at hok
    · simp at hok
    obtain rfl := Except.ok.inj hok
    intro start
    cases start with
    | nil =>
      have hroot := h []
      exact ⟨by simp [walk], by simpa [walk] using hroot.kind, by simpa [walk] using hroot.wildcard,
        by simpa [walk] using hroot.indexed⟩
    | cons d start =>
      -- the children are the same, and so is what lies under them
      have hsame : (({ node with terminal := true } : ClaimPathNode).walk (d :: start)).Shows mdoc
          fun q => paths (d :: start ++ q) := h (d :: start)
      simpa using hsame
  | cons c rest ih =>
    obtain ⟨-, hall⟩ := (insert_isOk_iff h).mp ⟨node', hok⟩
    rw [insert] at hok
    split at hok
    · simp at hok
    obtain ⟨next, hnext, hnode⟩ := bind_eq_ok.mp hok
    obtain rfl := Except.ok.inj hnode
    have hnext' := ih (h.child c) hnext
    intro start
    cases start with
    | nil =>
      exact shows_insert (h []) (fun d r hd => (compatiblePaths_cons.mp (hall (d :: r) hd)).1) _
    | cons d start =>
      have hwalk : ∀ (n : ClaimPathNode), n.walk (d :: start) = (n.child d).walk start :=
        fun _ => rfl
      rw [hwalk, child_setMembers]
      by_cases hd : d = c
      · subst hd
        rw [if_pos rfl]
        simpa using hnext' start
      · rw [if_neg hd]
        have hsame := h (d :: start)
        rw [hwalk] at hsame
        simpa [hd] using hsame

end Represents

end ClaimPathNode

/-! ## The loop -/

/-- The loop accepts what is consistent in itself and with the paths in the tree. -/
theorem validateClaims_eq_none_iff {mdoc : Bool} {root : ClaimPathNode}
    {paths : List PathComponent → Prop} (h : root.Represents mdoc paths)
    {claims : List ClaimDescription} : validateClaims mdoc root claims = none ↔
      ConsistentClaims mdoc claims ∧ ∀ claim ∈ claims, ¬ paths claim.path ∧
        ∀ q, paths q → CompatiblePaths mdoc claim.path q := by
  induction claims generalizing root paths with
  | nil => exact ⟨fun _ => ⟨⟨by simp, by simp, by simp⟩, by simp⟩, fun _ => rfl⟩
  | cons claim rest ih =>
    have hinsert : (∃ root', root.insert mdoc claim.path = .ok root') ↔
        ¬ paths claim.path ∧ ∀ q, paths q → CompatiblePaths mdoc claim.path q :=
      ClaimPathNode.insert_isOk_iff h
    rw [validateClaims]
    -- a claim fails by its format, or because it does not go into the tree of those before it
    by_cases hformat : isFormatPath mdoc claim.path = true
    swap
    · have hfalse : isFormatPath mdoc claim.path = false := by simpa using hformat
      rw [hfalse, Bool.not_false, if_pos rfl]
      exact ⟨nofun, fun hall => absurd (hall.1.format claim List.mem_cons_self) hformat⟩
    rw [hformat, Bool.not_true, if_neg Bool.false_ne_true]
    cases hok : root.insert mdoc claim.path with
    | error message =>
      refine ⟨nofun, fun hall => ?_⟩
      obtain ⟨node', hnode⟩ := hinsert.mpr (hall.2 claim List.mem_cons_self)
      simp [hok] at hnode
    | ok root' =>
      have hnew := hinsert.mp ⟨root', hok⟩
      change validateClaims mdoc root' rest = none ↔ _
      rw [ih (ClaimPathNode.insert_represents h hok)]
      constructor
      · rintro ⟨hrest, hall⟩
        refine ⟨⟨List.forall_mem_cons.mpr ⟨hformat, hrest.format⟩, ?_, ?_⟩,
          List.forall_mem_cons.mpr ⟨hnew, fun d hd => ?_⟩⟩
        · rw [List.map_cons, List.nodup_cons]
          refine ⟨fun hmem => ?_, hrest.distinct⟩
          obtain ⟨d, hd, heq⟩ := List.mem_map.mp hmem
          exact (hall d hd).1 (.inr heq)
        · have hothers : ∀ d ∈ rest, CompatiblePaths mdoc d.path claim.path :=
            fun d hd => (hall d hd).2 claim.path (.inr rfl)
          refine List.forall_mem_cons.mpr ⟨List.forall_mem_cons.mpr ⟨.refl _, fun d hd =>
            (hothers d hd).symm⟩, fun d hd => List.forall_mem_cons.mpr ⟨hothers d hd, ?_⟩⟩
          exact hrest.compatible d hd
        · exact ⟨fun hp => (hall d hd).1 (.inl hp), fun q hq => (hall d hd).2 q (.inl hq)⟩
      · rintro ⟨hall, hpaths⟩
        have hdistinct := hall.distinct
        rw [List.map_cons, List.nodup_cons] at hdistinct
        refine ⟨⟨fun d hd => hall.format d (List.mem_cons_of_mem _ hd), hdistinct.2,
          fun d hd e he => hall.compatible d (List.mem_cons_of_mem _ hd) e
            (List.mem_cons_of_mem _ he)⟩, fun d hd => ?_⟩
        have hd' := hpaths d (List.mem_cons_of_mem _ hd)
        refine ⟨?_, ?_⟩
        · rintro (hp | heq)
          · exact hd'.1 hp
          · exact hdistinct.1 (List.mem_map.mpr ⟨d, hd, heq⟩)
        · rintro q (hq | rfl)
          · exact hd'.2 q hq
          · exact hall.compatible d (List.mem_cons_of_mem _ hd) claim List.mem_cons_self

theorem validateClaimDescriptions_eq_none_iff {mdoc : Bool} {claims : List ClaimDescription} :
    validateClaimDescriptions claims mdoc = none ↔ ConsistentClaims mdoc claims := by
  rw [validateClaimDescriptions, validateClaims_eq_none_iff ClaimPathNode.represents_new]
  exact and_iff_left fun claim _ => ⟨not_false, fun q hq => hq.elim⟩

theorem ConsistentClaims.perm {mdoc : Bool} {claims claims' : List ClaimDescription}
    (h : ConsistentClaims mdoc claims) (hperm : claims.Perm claims') :
    ConsistentClaims mdoc claims' where
  format claim hc := h.format claim (hperm.mem_iff.mpr hc)
  distinct := (hperm.map _).nodup_iff.mp h.distinct
  compatible claim hc claim' hc' :=
    h.compatible claim (hperm.mem_iff.mpr hc) claim' (hperm.mem_iff.mpr hc')

/-- Descriptions are accepted exactly where the paths are of the format, distinct and compatible two
by two, and whatever their order. -/
theorem validateClaimDescriptions_iff (mdoc : Bool) (claims : List ClaimDescription) :
    (validateClaimDescriptions claims mdoc = none ↔ ConsistentClaims mdoc claims) ∧
      ∀ claims', claims.Perm claims' → (validateClaimDescriptions claims mdoc = none ↔
        validateClaimDescriptions claims' mdoc = none) := by
  refine ⟨validateClaimDescriptions_eq_none_iff, fun claims' hperm => ?_⟩
  rw [validateClaimDescriptions_eq_none_iff, validateClaimDescriptions_eq_none_iff]
  exact ⟨fun h => h.perm hperm, fun h => h.perm hperm.symm⟩

example : validateClaimDescriptions [⟨[.name "a", .all]⟩, ⟨[.name "a", .index 0]⟩] false =
    some "Claim descriptions contain conflicting paths" := by decide

end OidFed
