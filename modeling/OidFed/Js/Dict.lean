import Mathlib

/-!
# Ordered dictionaries

`Dict κ α`: the members of a map or an object with distinct keys, in insertion order. The
distinctness is a field, so no operation can make a dictionary with a repeated key.

* `get?`, `set`, `erase`, `put`: reads and writes. `set` keeps the place of a key that is
  there and appends one that is not; `put` with `none` erases.
* `updateM`: a loop over entries that replaces the value at each entry's own key and may stop.
  `updateM_get?` and `updateM_isOk` say what such a loop does key by key; a loop over distinct
  keys is determined by its steps at the single keys, in any order.
-/

namespace Js

/-- `x >>= f` succeeds exactly when both parts do. -/
theorem bind_eq_ok {ε α β : Type} {x : Except ε α} {f : α → Except ε β} {b : β} :
    (x >>= f) = .ok b ↔ ∃ a, x = .ok a ∧ f a = .ok b := by
  cases x with
  | error e => simp [bind, Except.bind]
  | ok a => simp [bind, Except.bind]

theorem toOption_eq_some {ε α : Type} {x : Except ε α} {a : α} :
    x.toOption = some a ↔ x = .ok a := by
  cases x <;> simp [Except.toOption]

section Members

variable {κ α : Type} [DecidableEq κ]

/-- Replace the value of `k` where it stands, or append `k`. -/
def setMembers : List (κ × α) → κ → α → List (κ × α)
  | [], k, v => [(k, v)]
  | (k', w) :: rest, k, v => if k' = k then (k, v) :: rest else (k', w) :: setMembers rest k v

theorem setMembers_keys (l : List (κ × α)) (k : κ) (v : α) :
    (setMembers l k v).map Prod.fst =
      if k ∈ l.map Prod.fst then l.map Prod.fst else l.map Prod.fst ++ [k] := by
  induction l with
  | nil => simp [setMembers]
  | cons p rest ih =>
    obtain ⟨k', w⟩ := p
    by_cases h : k' = k
    · simp [setMembers, h]
    · have h' : ¬ k = k' := fun e => h e.symm
      simp only [setMembers, h, if_false, List.map_cons, ih, List.mem_cons, h', false_or]
      split <;> simp

theorem setMembers_nodup {l : List (κ × α)} (h : (l.map Prod.fst).Nodup) (k : κ) (v : α) :
    ((setMembers l k v).map Prod.fst).Nodup := by
  rw [setMembers_keys]
  split
  · exact h
  · rename_i hk
    exact List.nodup_append.mpr ⟨h, List.nodup_singleton k, by
      intro a ha b hb
      simp only [List.mem_singleton] at hb
      subst hb
      rintro rfl
      exact hk ha⟩

theorem lookup_cons_ite (p : κ × α) (rest : List (κ × α)) (k : κ) :
    (p :: rest).lookup k = if k = p.1 then some p.2 else rest.lookup k := by
  rw [List.lookup_cons]
  by_cases h : k = p.1
  · simp [h]
  · simp [h, beq_eq_false_iff_ne.mpr h]

theorem lookup_setMembers (l : List (κ × α)) (k k' : κ) (v : α) :
    (setMembers l k v).lookup k' = if k' = k then some v else l.lookup k' := by
  induction l with
  | nil => simp [setMembers, lookup_cons_ite]
  | cons p rest ih =>
    obtain ⟨a, w⟩ := p
    by_cases h : a = k
    · subst h
      by_cases hk : k' = a <;> simp [setMembers, lookup_cons_ite, hk]
    · by_cases hk : k' = a
      · subst hk
        simp [setMembers, h]
      · simp [setMembers, h, lookup_cons_ite, hk, ih]

theorem lookup_filter_ne (l : List (κ × α)) (k k' : κ) :
    (l.filter (fun p => p.1 ≠ k)).lookup k' = if k' = k then none else l.lookup k' := by
  induction l with
  | nil => simp
  | cons p rest ih =>
    by_cases h : p.1 = k
    · rw [List.filter_cons_of_neg (by simpa using h), ih, lookup_cons_ite, h]
      split <;> rfl
    · rw [List.filter_cons_of_pos (by simpa using h), lookup_cons_ite, lookup_cons_ite, ih]
      by_cases hk : k' = p.1
      · subst hk
        simp [h]
      · simp [hk]

theorem lookup_eq_some_iff_mem {l : List (κ × α)} (h : (l.map Prod.fst).Nodup) (k : κ) (v : α) :
    l.lookup k = some v ↔ (k, v) ∈ l := by
  induction l with
  | nil => simp
  | cons p rest ih =>
    obtain ⟨a, w⟩ := p
    simp only [List.map_cons, List.nodup_cons] at h
    by_cases hk : k = a
    · subst hk
      have hn : (k, v) ∉ rest := fun hm => h.1 (List.mem_map.mpr ⟨_, hm, rfl⟩)
      simp [hn, eq_comm]
    · simp [lookup_cons_ite, hk, ih h.2]

end Members

/-- Members with distinct keys, in insertion order. -/
structure Dict (κ α : Type) where
  members : List (κ × α)
  nodup : (members.map Prod.fst).Nodup

namespace Dict

variable {κ α β ε : Type}

instance [DecidableEq κ] [DecidableEq α] : DecidableEq (Dict κ α) := fun a b =>
  decidable_of_iff (a.members = b.members) (by cases a; cases b; simp)

def empty : Dict κ α := ⟨[], by simp⟩

instance : Inhabited (Dict κ α) := ⟨empty⟩

def keys (d : Dict κ α) : List κ := d.members.map Prod.fst

@[simp] theorem keys_empty : (empty : Dict κ α).keys = [] := rfl

/-- Keep the members that satisfy a test. -/
def filter (keep : κ → α → Bool) (d : Dict κ α) : Dict κ α :=
  ⟨d.members.filter fun p => keep p.1 p.2, d.nodup.sublist (List.filter_sublist.map _)⟩

theorem keys_filter_length_le (keep : κ → α → Bool) (d : Dict κ α) :
    (d.filter keep).keys.length ≤ d.keys.length := by
  simp only [keys, List.length_map]
  exact List.length_filter_le _ _

/-- Every value changed by `f`, under its own key. -/
def mapValues (f : α → β) (d : Dict κ α) : Dict κ β :=
  ⟨d.members.map fun p => (p.1, f p.2), by simpa [List.map_map, Function.comp_def] using d.nodup⟩

variable [DecidableEq κ]

def get? (d : Dict κ α) (k : κ) : Option α := d.members.lookup k

def set (d : Dict κ α) (k : κ) (v : α) : Dict κ α :=
  ⟨setMembers d.members k v, setMembers_nodup d.nodup k v⟩

def erase (d : Dict κ α) (k : κ) : Dict κ α :=
  ⟨d.members.filter fun p => p.1 ≠ k, d.nodup.sublist (List.filter_sublist.map _)⟩

/-- Write `v` at `k`, or take `k` out. -/
def put (d : Dict κ α) (k : κ) : Option α → Dict κ α
  | some v => d.set k v
  | none => d.erase k

/-- The members `l` written one after the other: a repeated key keeps its first place and its
last value. -/
def ofEntries (l : List (κ × α)) : Dict κ α := l.foldl (fun d p => d.set p.1 p.2) empty

/-- Replace the value at the key of each entry by what `f` makes of it, and stop at the first
error. -/
def updateM (f : κ → β → Option α → Except ε (Option α)) (entries : List (κ × β))
    (d : Dict κ α) : Except ε (Dict κ α) :=
  entries.foldlM (fun d e => do return d.put e.1 (← f e.1 e.2 (d.get? e.1))) d

@[simp] theorem get?_empty (k : κ) : (empty : Dict κ α).get? k = none := rfl

theorem get?_set (d : Dict κ α) (k k' : κ) (v : α) :
    (d.set k v).get? k' = if k' = k then some v else d.get? k' :=
  lookup_setMembers d.members k k' v

@[simp] theorem get?_set_self (d : Dict κ α) (k : κ) (v : α) : (d.set k v).get? k = some v := by
  simp [get?_set]

theorem get?_set_ne (d : Dict κ α) {k k' : κ} (v : α) (h : k' ≠ k) :
    (d.set k v).get? k' = d.get? k' := by
  simp [get?_set, h]

theorem get?_erase (d : Dict κ α) (k k' : κ) :
    (d.erase k).get? k' = if k' = k then none else d.get? k' :=
  lookup_filter_ne d.members k k'

theorem get?_put (d : Dict κ α) (k k' : κ) (v : Option α) :
    (d.put k v).get? k' = if k' = k then v else d.get? k' := by
  cases v with
  | some v => exact get?_set d k k' v
  | none => exact get?_erase d k k'

@[simp] theorem get?_put_self (d : Dict κ α) (k : κ) (v : Option α) : (d.put k v).get? k = v := by
  simp [get?_put]

theorem get?_put_ne (d : Dict κ α) {k k' : κ} (v : Option α) (h : k' ≠ k) :
    (d.put k v).get? k' = d.get? k' := by
  simp [get?_put, h]

theorem get?_eq_some_iff (d : Dict κ α) (k : κ) (v : α) : d.get? k = some v ↔ (k, v) ∈ d.members :=
  lookup_eq_some_iff_mem d.nodup k v

theorem get?_of_mem {d : Dict κ α} {p : κ × α} (h : p ∈ d.members) : d.get? p.1 = some p.2 :=
  (get?_eq_some_iff d p.1 p.2).mpr h

theorem get?_filter_eq_some {keep : κ → α → Bool} {d : Dict κ α} {k : κ} {v : α} :
    (d.filter keep).get? k = some v ↔ d.get? k = some v ∧ keep k v = true := by
  rw [get?_eq_some_iff, get?_eq_some_iff]
  exact List.mem_filter

theorem mem_keys_iff (d : Dict κ α) (k : κ) : k ∈ d.keys ↔ ∃ v, d.get? k = some v := by
  simp [keys, get?_eq_some_iff]

theorem get?_eq_none_iff (d : Dict κ α) (k : κ) : d.get? k = none ↔ k ∉ d.keys := by
  rw [mem_keys_iff]
  cases d.get? k <;> simp

theorem keys_set (d : Dict κ α) (k : κ) (v : α) :
    (d.set k v).keys = if k ∈ d.keys then d.keys else d.keys ++ [k] :=
  setMembers_keys d.members k v

theorem length_set_le {d : Dict κ α} {n : Nat} (h : d.keys.length < n) (k : κ) (v : α) :
    (d.set k v).keys.length ≤ n := by
  rw [keys_set]
  split
  · exact h.le
  · rw [List.length_append, List.length_singleton]
    exact h

theorem keys_erase (d : Dict κ α) (k : κ) : (d.erase k).keys = d.keys.erase k := by
  have hfilter : (d.erase k).keys = d.keys.filter (· != k) := by
    simp only [keys, erase, List.filter_map, Function.comp_def, ne_eq, decide_not]
    rfl
  rw [hfilter]
  exact (d.nodup.erase_eq_filter k).symm

theorem get?_mapValues (f : α → β) (d : Dict κ α) (k : κ) :
    (d.mapValues f).get? k = (d.get? k).map f := by
  change (d.members.map fun p => (p.1, f p.2)).lookup k = (d.members.lookup k).map f
  induction d.members with
  | nil => rfl
  | cons p rest ih =>
    rw [List.map_cons, lookup_cons_ite, lookup_cons_ite, ih]
    split <;> rfl

theorem set_get? {d : Dict κ α} {k : κ} {v : α} (h : d.get? k = some v) : d.set k v = d := by
  have hmem : ∀ l : List (κ × α), l.lookup k = some v → setMembers l k v = l := by
    intro l hl
    induction l with
    | nil => simp at hl
    | cons p rest ih =>
      obtain ⟨a, w⟩ := p
      by_cases ha : a = k
      · subst ha
        simp only [List.lookup_cons_self, Option.some.injEq] at hl
        simp [setMembers, hl]
      · rw [lookup_cons_ite, if_neg fun h => ha h.symm] at hl
        simp [setMembers, ha, ih hl]
  obtain ⟨l, hn⟩ := d
  simp only [set, mk.injEq]
  exact hmem l h

theorem erase_of_none {d : Dict κ α} {k : κ} (h : d.get? k = none) : d.erase k = d := by
  obtain ⟨l, hn⟩ := d
  have hk : k ∉ l.map Prod.fst := (get?_eq_none_iff _ k).mp h
  simp only [erase, mk.injEq, List.filter_eq_self]
  intro p hp
  have : p.1 ≠ k := fun he => hk (he ▸ List.mem_map.mpr ⟨p, hp, rfl⟩)
  simpa using this

/-- Writing what is there changes nothing. -/
@[simp] theorem put_get? (d : Dict κ α) (k : κ) : d.put k (d.get? k) = d := by
  cases h : d.get? k with
  | some v => exact set_get? h
  | none => exact erase_of_none h

theorem get?_foldl_set_mem {l : List (κ × α)} {d : Dict κ α} {k : κ} {v : α}
    (h : (l.foldl (fun d p => d.set p.1 p.2) d).get? k = some v) : d.get? k = some v ∨ (k, v) ∈ l := by
  induction l generalizing d with
  | nil => exact .inl h
  | cons p rest ih =>
    rcases ih h with h | h
    · rw [get?_set] at h
      split at h
      · rename_i hk
        right
        rw [hk, ← Option.some.inj h]
        exact List.mem_cons_self
      · exact .inl h
    · exact .inr (List.mem_cons_of_mem _ h)

theorem mem_of_get?_ofEntries {l : List (κ × α)} {k : κ} {v : α}
    (h : (ofEntries l).get? k = some v) : (k, v) ∈ l :=
  (get?_foldl_set_mem h).resolve_left (by simp)

theorem get?_ofEntries {l : List (κ × α)} (h : (l.map Prod.fst).Nodup) (k : κ) :
    (ofEntries l).get? k = l.lookup k := by
  have hloop : ∀ (l : List (κ × α)) (d : Dict κ α), (l.map Prod.fst).Nodup →
      (l.foldl (fun d p => d.set p.1 p.2) d).get? k = (l.lookup k).or (d.get? k) := by
    intro l
    induction l with
    | nil => exact fun d _ => rfl
    | cons p rest ih =>
      intro d hnodup
      obtain ⟨hp, hrest⟩ := List.nodup_cons.mp hnodup
      rw [List.foldl_cons, ih _ hrest, lookup_cons_ite, get?_set]
      by_cases hk : k = p.1
      · have hnone : rest.lookup k = none := by
          cases hl : rest.lookup k with
          | none => rfl
          | some v =>
            have hmem := (lookup_eq_some_iff_mem hrest k v).mp hl
            exact absurd (hk ▸ List.mem_map_of_mem hmem) hp
        rw [hnone, if_pos hk, if_pos hk, Option.none_or, Option.some_or]
      · rw [if_neg hk, if_neg hk]
  rw [ofEntries, hloop l empty h, get?_empty, Option.or_none]

/-- A dictionary is made of its own members. -/
theorem ofEntries_members (d : Dict κ α) : ofEntries d.members = d := by
  have hset : ∀ (l : List (κ × α)) (k : κ) (v : α), k ∉ l.map Prod.fst →
      setMembers l k v = l ++ [(k, v)] := by
    intro l k v hk
    induction l with
    | nil => rfl
    | cons p rest ih =>
      rw [List.map_cons, List.mem_cons, not_or] at hk
      rw [setMembers, if_neg (Ne.symm hk.1), ih hk.2]
      rfl
  have hloop : ∀ (l : List (κ × α)) (e : Dict κ α), ((e.members ++ l).map Prod.fst).Nodup →
      (l.foldl (fun d p => d.set p.1 p.2) e).members = e.members ++ l := by
    intro l
    induction l with
    | nil => exact fun e _ => (List.append_nil _).symm
    | cons p rest ih =>
      intro e hnodup
      have hp : p.1 ∉ e.members.map Prod.fst := by
        rw [List.map_append, List.nodup_append] at hnodup
        exact fun hmem => hnodup.2.2 _ hmem p.1 List.mem_cons_self rfl
      have hmembers : (e.set p.1 p.2).members = e.members ++ [p] := hset e.members p.1 p.2 hp
      rw [List.foldl_cons, ih, hmembers, List.append_assoc, List.singleton_append]
      rw [hmembers, List.append_assoc]
      exact hnodup
  have hmembers : (ofEntries d.members).members = d.members := hloop d.members empty d.nodup
  generalize ofEntries d.members = e at hmembers
  obtain ⟨members, hnodup⟩ := e
  obtain rfl : members = d.members := hmembers
  rfl

theorem updateM_cons (f : κ → β → Option α → Except ε (Option α)) (e : κ × β)
    (rest : List (κ × β)) (d : Dict κ α) :
    updateM f (e :: rest) d =
      f e.1 e.2 (d.get? e.1) >>= fun v => updateM f rest (d.put e.1 v) := by
  simp only [updateM, List.foldlM_cons, bind_assoc, pure_bind]

/-- A key that the loop leaves alone may be erased from what it runs over, unless it ends the loop. -/
theorem updateM_erase_or {f : κ → β → Option α → Except ε (Option α)} {s : ε} {e : Dict κ β} {k : κ}
    (h : ∀ v cur, f k v cur = .error s ∨ f k v cur = .ok cur) (d : Dict κ α) :
    updateM f e.members d = .error s ∨ updateM f (e.erase k).members d = updateM f e.members d := by
  have hlist : ∀ (l : List (κ × β)) (d : Dict κ α), updateM f l d = .error s ∨
      updateM f (l.filter (·.1 ≠ k)) d = updateM f l d := by
    intro l
    induction l with
    | nil => exact fun d => .inr rfl
    | cons p rest ih =>
      intro d
      by_cases hp : p.1 = k
      · rw [List.filter_cons_of_neg (by simp [hp]), updateM_cons, hp]
        rcases h p.2 (d.get? k) with hs | hok
        · exact .inl (by rw [hs]; rfl)
        · rw [hok]
          simpa [bind, Except.bind] using ih d
      · rw [List.filter_cons_of_pos (by simp [hp]), updateM_cons, updateM_cons]
        cases hstep : f p.1 p.2 (d.get? p.1) with
        | error e => exact .inr rfl
        | ok v => exact ih (d.put p.1 v)
  exact hlist e.members d

/-- So may values be changed that the loop takes for what they were. -/
theorem updateM_mapValues_or {f : κ → β → Option α → Except ε (Option α)} {s : ε} {g : β → β}
    {e : Dict κ β} (h : ∀ k v cur, f k v cur = .error s ∨ f k (g v) cur = f k v cur) (d : Dict κ α) :
    updateM f e.members d = .error s ∨
      updateM f (e.mapValues g).members d = updateM f e.members d := by
  have hlist : ∀ (l : List (κ × β)) (d : Dict κ α), updateM f l d = .error s ∨
      updateM f (l.map fun p => (p.1, g p.2)) d = updateM f l d := by
    intro l
    induction l with
    | nil => exact fun d => .inr rfl
    | cons p rest ih =>
      intro d
      rw [List.map_cons, updateM_cons, updateM_cons]
      rcases h p.1 p.2 (d.get? p.1) with hs | hsame
      · exact .inl (by rw [hs]; rfl)
      · rw [hsame]
        cases hstep : f p.1 p.2 (d.get? p.1) with
        | error e => exact .inr rfl
        | ok v => exact ih (d.put p.1 v)
  exact hlist e.members d

theorem updateM_singleton (f : κ → β → Option α → Except ε (Option α)) (k : κ) (v : β)
    (d : Dict κ α) {w : Option α} (h : f k v (d.get? k) = .ok w) :
    updateM f [(k, v)] d = .ok (d.put k w) := by
  simp [updateM, h, bind, Except.bind, pure, Except.pure]

/-- A loop whose entries all leave their values alone. -/
theorem updateM_fixed {f : κ → β → Option α → Except ε (Option α)} {entries : List (κ × β)}
    {d : Dict κ α} (h : ∀ e ∈ entries, f e.1 e.2 (d.get? e.1) = .ok (d.get? e.1)) :
    updateM f entries d = .ok d := by
  induction entries with
  | nil => rfl
  | cons e rest ih =>
    rw [updateM_cons, h e List.mem_cons_self]
    show updateM f rest (d.put e.1 (d.get? e.1)) = .ok d
    rw [put_get?]
    exact ih fun x hx => h x (List.mem_cons_of_mem _ hx)

/-- A loop that updates single keys has made each entry's own step, and left the other keys. -/
theorem updateM_get? {f : κ → β → Option α → Except ε (Option α)} {entries : List (κ × β)}
    (hn : (entries.map Prod.fst).Nodup) {d d' : Dict κ α} (h : updateM f entries d = .ok d') :
    (∀ e ∈ entries, f e.1 e.2 (d.get? e.1) = .ok (d'.get? e.1)) ∧
      ∀ k ∉ entries.map Prod.fst, d'.get? k = d.get? k := by
  induction entries generalizing d with
  | nil =>
    obtain rfl : d = d' := by simpa [updateM, pure, Except.pure] using h
    simp
  | cons e rest ih =>
    simp only [List.map_cons, List.nodup_cons] at hn
    simp only [updateM, List.foldlM_cons, bind_assoc, pure_bind] at h
    obtain ⟨v, hv, hrest⟩ := bind_eq_ok.mp h
    obtain ⟨hstep, hother⟩ := ih hn.2 hrest
    have hself : d'.get? e.1 = v := by rw [hother _ hn.1, get?_put_self]
    refine ⟨?_, ?_⟩
    · intro x hx
      rcases List.mem_cons.mp hx with rfl | hx
      · rw [hself]; exact hv
      · have hne : x.1 ≠ e.1 := fun he => hn.1 (he ▸ List.mem_map.mpr ⟨x, hx, rfl⟩)
        have := hstep x hx
        rwa [get?_put_ne _ _ hne] at this
    · intro k hk
      simp only [List.map_cons, List.mem_cons, not_or] at hk
      rw [hother k hk.2, get?_put_ne _ _ hk.1]

/-- The loop goes through when every entry's own step does. -/
theorem updateM_isOk {f : κ → β → Option α → Except ε (Option α)} {entries : List (κ × β)}
    (hn : (entries.map Prod.fst).Nodup) {d : Dict κ α}
    (h : ∀ e ∈ entries, ∃ v, f e.1 e.2 (d.get? e.1) = .ok v) :
    ∃ d', updateM f entries d = .ok d' := by
  induction entries generalizing d with
  | nil => exact ⟨d, rfl⟩
  | cons e rest ih =>
    simp only [List.map_cons, List.nodup_cons] at hn
    obtain ⟨v, hv⟩ := h e List.mem_cons_self
    have hrest : ∀ x ∈ rest, ∃ w, f x.1 x.2 ((d.put e.1 v).get? x.1) = .ok w := by
      intro x hx
      have hne : x.1 ≠ e.1 := fun he => hn.1 (he ▸ List.mem_map.mpr ⟨x, hx, rfl⟩)
      rw [get?_put_ne _ _ hne]
      exact h x (List.mem_cons_of_mem _ hx)
    obtain ⟨d', hd'⟩ := ih hn.2 hrest
    refine ⟨d', ?_⟩
    simp only [updateM, List.foldlM_cons, bind_assoc, pure_bind, hv]
    exact hd'

end Dict

end Js
