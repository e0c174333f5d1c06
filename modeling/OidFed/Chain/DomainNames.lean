import OidFed.Constraints
import OidFed.Jose
import OidFed.Schema

/-!
# Naming constraints as domain names (`constraints/index.ts`)

A host is what the URL parser makes of an Entity Identifier, in lower case, while a pattern is
compared as it is written.

* `NameMatches`: a host lies in what a pattern names, whatever the case of the letters and whether
  or not the root's dot is written. `AcceptedByName`: the decision that naming constraints stand for.
* `matchesDomainPattern_iff`: a pattern matches where it names the host and is spelt as the host.
* `SpeltAsHost`, `checkNamingConstraints_iff`: when the check and the decision agree.
-/

namespace OidFed

open Js

/-! ## Names -/

/-- A name with the dot of the root at its end, in lower case. -/
def absoluteName (name : String) : List Char :=
  (if name.toList.getLast? = some '.' then name.toList else name.toList ++ ['.']).map Char.toLower

/-- The host is what the pattern names: the subdomains of the name behind a leading dot, or else the
name alone. -/
def NameMatches (host pattern : String) : Prop :=
  if ['.'].isPrefixOf pattern.toList then absoluteName pattern <:+ absoluteName host
  else absoluteName host = absoluteName pattern

/-- The host is no excluded name, and it is a permitted one where these are given. -/
structure AcceptedByName (namingConstraints : NamingConstraints) (host : String) : Prop where
  excluded : ∀ p ∈ namingConstraints.excluded.getD [], ¬ NameMatches host p
  permitted : ∀ l, namingConstraints.permitted = some l → ∃ p ∈ l, NameMatches host p

/-! ## Spellings -/

def IsLower (name : String) : Prop := ∀ c ∈ name.toList, c.toLower = c

/-- The pattern is spelt as a host is, in lower case, and as this one with or without the dot of the
root. -/
structure SameSpelling (host pattern : String) : Prop where
  lower : IsLower pattern
  dot : pattern.toList.getLast? = some '.' ↔ host.toList.getLast? = some '.'

/-- What decides is spelt as the host. If an excluded pattern names the host, one that does is spelt
so, or none of the permitted ones that do is. If no excluded pattern names it and a permitted one
does, one that does is spelt so. -/
structure SpeltAsHost (namingConstraints : NamingConstraints) (host : String) : Prop where
  excluded : (∃ p ∈ namingConstraints.excluded.getD [], NameMatches host p) →
    (∃ p ∈ namingConstraints.excluded.getD [], NameMatches host p ∧ SameSpelling host p) ∨
      ∃ l, namingConstraints.permitted = some l ∧
        ∀ p ∈ l, NameMatches host p → ¬ SameSpelling host p
  permitted : (∀ p ∈ namingConstraints.excluded.getD [], ¬ NameMatches host p) →
    ∀ l, namingConstraints.permitted = some l → (∃ p ∈ l, NameMatches host p) →
      ∃ p ∈ l, NameMatches host p ∧ SameSpelling host p

/-- The hosts of parsed URLs are in lower case. -/
def LowerHosts (P : Platform) : Prop :=
  ∀ value url, P.parseUrl value = some url → IsLower url.hostname

/-! ## What the check decides -/

theorem absoluteName_of_lower {name : String} (h : IsLower name) : absoluteName name =
    if name.toList.getLast? = some '.' then name.toList else name.toList ++ ['.'] := by
  have hmap : name.toList.map Char.toLower = name.toList := by
    rw [List.map_congr_left h, List.map_id']
  unfold absoluteName
  split
  · exact hmap
  · rw [List.map_append, hmap]
    rfl

theorem getLast?_of_suffix {l m : List Char} (hl : l ≠ []) (h : l <:+ m) :
    l.getLast? = m.getLast? := by
  obtain ⟨t, rfl⟩ := h
  rw [List.getLast?_append_of_ne_nil _ hl]

/-- A pattern matches where it names the host and is spelt as the host. -/
theorem matchesDomainPattern_iff {host pattern : String}
    (hhost : IsLower host) :
    matchesDomainPattern host pattern = true ↔
      NameMatches host pattern ∧ SameSpelling host pattern := by
  have hhostName := absoluteName_of_lower hhost
  unfold matchesDomainPattern NameMatches
  split
  · rename_i hlead
    have hne : pattern.toList ≠ [] := by
      intro h
      rw [h] at hlead
      exact absurd hlead (by decide)
    rw [List.isSuffixOf_iff_suffix]
    constructor
    · intro h
      have hlower : IsLower pattern := fun c hc => hhost c (h.subset hc)
      have hlast := getLast?_of_suffix hne h
      refine ⟨?_, hlower, by rw [hlast]⟩
      rw [hhostName, absoluteName_of_lower hlower, hlast]
      obtain ⟨t, ht⟩ := h
      split
      · exact ⟨t, ht⟩
      · exact ⟨t, by rw [← List.append_assoc, ht]⟩
    · rintro ⟨h, hspelling⟩
      rw [hhostName, absoluteName_of_lower hspelling.lower] at h
      by_cases hdot : host.toList.getLast? = some '.'
      · rwa [if_pos hdot, if_pos (hspelling.dot.mpr hdot)] at h
      · rw [if_neg hdot, if_neg fun hp => hdot (hspelling.dot.mp hp)] at h
        obtain ⟨t, ht⟩ := h
        rw [← List.append_assoc] at ht
        exact ⟨t, List.append_cancel_right ht⟩
  · rw [beq_iff_eq]
    constructor
    · rintro rfl
      exact ⟨rfl, hhost, Iff.rfl⟩
    · rintro ⟨h, hspelling⟩
      rw [hhostName, absoluteName_of_lower hspelling.lower] at h
      by_cases hdot : host.toList.getLast? = some '.'
      · rw [if_pos hdot, if_pos (hspelling.dot.mpr hdot)] at h
        exact String.toList_inj.mp h
      · rw [if_neg hdot, if_neg fun hp => hdot (hspelling.dot.mp hp)] at h
        exact String.toList_inj.mp (List.append_cancel_right h)

theorem checkHostname_iff {namingConstraints : NamingConstraints} {host : String}
    (hhost : IsLower host) :
    checkHostname namingConstraints host = true ↔
      (∀ p ∈ namingConstraints.excluded.getD [], NameMatches host p → ¬ SameSpelling host p) ∧
        ∀ l, namingConstraints.permitted = some l →
          ∃ p ∈ l, NameMatches host p ∧ SameSpelling host p := by
  have hexcluded : (!(namingConstraints.excluded.getD []).any (matchesDomainPattern host)) = true ↔
      ∀ p ∈ namingConstraints.excluded.getD [], NameMatches host p → ¬ SameSpelling host p := by
    rw [Bool.not_eq_true', List.any_eq_false]
    refine forall_congr' fun p => forall_congr' fun _ => ?_
    rw [matchesDomainPattern_iff hhost, not_and]
  rw [checkHostname, Bool.and_eq_true, hexcluded]
  refine and_congr_right fun _ => ?_
  cases namingConstraints.permitted with
  | none => simp
  | some l =>
    rw [List.any_eq_true]
    constructor
    · rintro ⟨p, hp, h⟩ l' hl
      obtain rfl := Option.some.inj hl
      exact ⟨p, hp, (matchesDomainPattern_iff hhost).mp h⟩
    · intro h
      obtain ⟨p, hp, h⟩ := h l rfl
      exact ⟨p, hp, (matchesDomainPattern_iff hhost).mpr h⟩

theorem isValidEntityId_url {P : Platform} {entityId : String}
    (h : isValidEntityId P entityId = true) : ∃ url, P.parseUrl entityId = some url := by
  unfold isValidEntityId at h
  cases hurl : P.parseUrl entityId with
  | none => simp [hurl] at h
  | some url => exact ⟨url, rfl⟩

/-- The check of an Entity Identifier is the decision on the name of its host, exactly where the
patterns that decide are spelt as the host. -/
theorem checkNamingConstraints_iff {P : Platform} (hosts : LowerHosts P)
    (namingConstraints : NamingConstraints) {entityId : String}
    (hvalid : isValidEntityId P entityId = true) :
    ∃ url, P.parseUrl entityId = some url ∧
      ((checkNamingConstraints P namingConstraints entityId = .ok true ↔
        AcceptedByName namingConstraints url.hostname) ↔
          SpeltAsHost namingConstraints url.hostname) := by
  obtain ⟨url, hurl⟩ := isValidEntityId_url hvalid
  refine ⟨url, hurl, ?_⟩
  have hcheck : checkNamingConstraints P namingConstraints entityId = .ok true ↔
      checkHostname namingConstraints url.hostname = true := by
    simp [checkNamingConstraints, hurl]
  rw [hcheck, checkHostname_iff (hosts entityId url hurl)]
  constructor
  · intro hagree
    constructor
    · rintro ⟨p, hp, hname⟩
      by_contra hnone
      rw [not_or] at hnone
      obtain ⟨hspelt, hpermitted⟩ := hnone
      refine (hagree.mp ⟨fun q hq hqn hqs => hspelt ⟨q, hq, hqn, hqs⟩, fun l hl => ?_⟩).excluded p
        hp hname
      by_contra hno
      exact hpermitted ⟨l, hl, fun q hq hqn hqs => hno ⟨q, hq, hqn, hqs⟩⟩
    · intro hexcluded l hl hp
      refine (hagree.mpr ⟨hexcluded, fun l' hl' => ?_⟩).2 l hl
      obtain rfl := Option.some.inj (hl.symm.trans hl')
      exact hp
  · intro hspelt
    constructor
    · rintro ⟨hexcluded, hpermitted⟩
      refine ⟨fun p hp hname => ?_, fun l hl => ?_⟩
      · rcases hspelt.excluded ⟨p, hp, hname⟩ with ⟨q, hq, hqn, hqs⟩ | ⟨l, hl, hno⟩
        · exact hexcluded q hq hqn hqs
        · obtain ⟨q, hq, hqn, hqs⟩ := hpermitted l hl
          exact hno q hq hqn hqs
      · obtain ⟨q, hq, hqn, -⟩ := hpermitted l hl
        exact ⟨q, hq, hqn⟩
    · rintro ⟨hexcluded, hpermitted⟩
      exact ⟨fun p hp hname => absurd hname (hexcluded p hp),
        fun l hl => hspelt.permitted hexcluded l hl (hpermitted l hl)⟩

/-- A platform that parses one URL. -/
def oneUrl : Platform :=
  { tablePlatform [] with
    parseUrl := fun value =>
      if value = "https://evil.example.com" then
        some { protocol := "https:", hostname := "evil.example.com"
               href := "https://evil.example.com/" }
      else none }

theorem oneUrl_lowerHosts : LowerHosts oneUrl := by
  intro value url h
  simp only [oneUrl] at h
  split at h
  · obtain rfl := Option.some.inj h
    have hlower : "evil.example.com".toList.all (fun c => c.toLower = c) = true := by decide
    intro c hc
    simpa using List.all_eq_true.mp hlower c hc
  · simp at h

theorem checkNamingConstraints_iff_evil :
    ∃ url, oneUrl.parseUrl "https://evil.example.com" = some url ∧
      ((checkNamingConstraints oneUrl { excluded := some ["Evil.Example.com"] }
          "https://evil.example.com" = .ok true ↔
        AcceptedByName { excluded := some ["Evil.Example.com"] } url.hostname) ↔
          SpeltAsHost { excluded := some ["Evil.Example.com"] } url.hostname) :=
  checkNamingConstraints_iff oneUrl_lowerHosts _ (by decide)

/-- A host that is excluded in capital letters is accepted. -/
theorem excluded_in_capitals :
    checkNamingConstraints oneUrl { excluded := some ["Evil.Example.com"] }
        "https://evil.example.com" = .ok true ∧
      ¬ AcceptedByName { excluded := some ["Evil.Example.com"] } "evil.example.com" ∧
      ¬ ∀ (P : Platform), LowerHosts P → ∀ (namingConstraints : NamingConstraints)
        (entityId : String), isValidEntityId P entityId = true →
          ∃ url, P.parseUrl entityId = some url ∧
            (checkNamingConstraints P namingConstraints entityId = .ok true ↔
              AcceptedByName namingConstraints url.hostname) := by
  have haccepts : checkNamingConstraints oneUrl { excluded := some ["Evil.Example.com"] }
      "https://evil.example.com" = .ok true := by rfl
  have hnot : ¬ AcceptedByName { excluded := some ["Evil.Example.com"] } "evil.example.com" := by
    intro h
    refine h.excluded "Evil.Example.com" (by decide) ?_
    unfold NameMatches
    rw [if_neg (by decide)]
    decide
  refine ⟨haccepts, hnot, fun h => ?_⟩
  obtain ⟨url, hurl, hiff⟩ := h oneUrl oneUrl_lowerHosts
    { excluded := some ["Evil.Example.com"] } "https://evil.example.com" (by decide)
  have hhost : url.hostname = "evil.example.com" := by
    have hparse : (oneUrl.parseUrl "https://evil.example.com").map (·.hostname) =
        some "evil.example.com" := by rfl
    rw [hurl] at hparse
    exact Option.some.inj hparse
  exact hnot (hhost ▸ hiff.mp haccepts)

end OidFed
