import OidFed.Js.Dict

/-!
# Trees of tasks in a dictionary

A task has the path from the root, innermost index first. A task forks by adding its children, and
joins when they have all come to an end.

* `fork`, `get?_fork_child`, `get?_fork_of_ne`: the children of a task.
* `total`: a weight, added over all tasks. `total_set`, `total_fork`: how it changes.
* `exists_deepest`: of the tasks with a property there is one without such children.
-/

namespace ForkJoin

open Js

/-- The index of a task among its siblings, then the path of its parent. -/
abbrev NodePath := List Nat

variable {α : Type}

/-! ## Forks -/

/-- The children of a task, from an index on. -/
def forkFrom (p : NodePath) : Nat → List α → Dict NodePath α → Dict NodePath α
  | _, [], tasks => tasks
  | n, child :: rest, tasks => forkFrom p (n + 1) rest (tasks.set (n :: p) child)

def fork (tasks : Dict NodePath α) (p : NodePath) (children : List α) : Dict NodePath α :=
  forkFrom p 0 children tasks

theorem get?_forkFrom_of_ne {p q : NodePath} (hq : ∀ i, q ≠ i :: p) (n : Nat) (children : List α)
    (tasks : Dict NodePath α) : (forkFrom p n children tasks).get? q = tasks.get? q := by
  induction children generalizing n tasks with
  | nil => rfl
  | cons child rest ih => rw [forkFrom, ih, Dict.get?_set_ne _ _ (hq n)]

theorem get?_forkFrom_child (p : NodePath) (n i : Nat) (children : List α) (tasks : Dict NodePath α) :
    (forkFrom p n children tasks).get? (i :: p) =
      if n ≤ i then children[i - n]?.or (tasks.get? (i :: p)) else tasks.get? (i :: p) := by
  induction children generalizing n tasks with
  | nil => simp [forkFrom]
  | cons child rest ih =>
    rw [forkFrom, ih]
    by_cases hlt : n + 1 ≤ i
    · obtain ⟨m, hm⟩ : ∃ m, i - n = m + 1 := ⟨i - n - 1, by omega⟩
      have hm' : i - (n + 1) = m := by omega
      rw [if_pos hlt, if_pos (by omega), hm, hm', List.getElem?_cons_succ,
        Dict.get?_set_ne _ _ (by intro h; have := (List.cons.inj h).1; omega)]
    · rw [if_neg hlt]
      by_cases heq : i = n
      · subst heq
        rw [if_pos (le_refl _), Nat.sub_self, List.getElem?_cons_zero, Option.some_or,
          Dict.get?_set_self]
      · rw [if_neg (by omega), Dict.get?_set_ne _ _ (by intro h; exact heq (List.cons.inj h).1)]

theorem get?_fork_of_ne {p q : NodePath} (hq : ∀ i, q ≠ i :: p) (children : List α)
    (tasks : Dict NodePath α) : (fork tasks p children).get? q = tasks.get? q :=
  get?_forkFrom_of_ne hq 0 children tasks

theorem get?_fork_child (tasks : Dict NodePath α) (p : NodePath) (children : List α) (i : Nat) :
    (fork tasks p children).get? (i :: p) = children[i]?.or (tasks.get? (i :: p)) := by
  rw [fork, get?_forkFrom_child, if_pos (Nat.zero_le i), Nat.sub_zero]

/-- What is at a path after a fork: a new child, or what was there. -/
theorem get?_fork_eq_some {tasks : Dict NodePath α} {p q : NodePath} {children : List α} {a : α}
    (h : (fork tasks p children).get? q = some a) :
    (∃ i, q = i :: p ∧ children[i]? = some a) ∨ tasks.get? q = some a := by
  by_cases hq : ∃ i, q = i :: p
  · obtain ⟨i, rfl⟩ := hq
    rw [get?_fork_child, Option.or_eq_some_iff] at h
    rcases h with h | h
    · exact .inl ⟨i, rfl, h⟩
    · exact .inr h.2
  · rw [get?_fork_of_ne (by simpa using hq)] at h
    exact .inr h

/-! ## Weights -/

section Total

variable (f : α → Nat)

/-- The weights of all tasks. -/
def total (tasks : Dict NodePath α) : Nat := (tasks.members.map fun e => f e.2).sum

theorem sum_setMembers_none {κ : Type} [DecidableEq κ] {l : List (κ × α)} {p : κ} (h : l.lookup p = none) (a : α) :
    ((setMembers l p a).map fun e => f e.2).sum = (l.map fun e => f e.2).sum + f a := by
  induction l with
  | nil => simp [setMembers]
  | cons e l ih =>
    rw [lookup_cons_ite] at h
    split at h
    · simp at h
    · rename_i hne
      rw [setMembers, if_neg fun he => hne he.symm, List.map_cons, List.map_cons, List.sum_cons,
        List.sum_cons, ih h]
      exact Nat.add_assoc _ _ _ |>.symm

theorem sum_setMembers_some {κ : Type} [DecidableEq κ] {l : List (κ × α)} {p : κ} {old : α}
    (h : l.lookup p = some old) (a : α) :
    ((setMembers l p a).map fun e => f e.2).sum + f old = (l.map fun e => f e.2).sum + f a := by
  induction l with
  | nil => simp at h
  | cons e l ih =>
    obtain ⟨q, b⟩ := e
    rw [lookup_cons_ite] at h
    split at h
    · rename_i heq
      obtain rfl := Option.some.inj h
      rw [setMembers, if_pos heq.symm, List.map_cons, List.map_cons, List.sum_cons, List.sum_cons]
      simp only
      omega
    · rename_i hne
      have hrest := ih h
      rw [setMembers, if_neg fun he => hne he.symm, List.map_cons, List.map_cons, List.sum_cons,
        List.sum_cons]
      omega

/-- A task is replaced. -/
theorem total_set {tasks : Dict NodePath α} {p : NodePath} {old : α} (h : tasks.get? p = some old) (a : α) :
    total f (tasks.set p a) + f old = total f tasks + f a :=
  sum_setMembers_some f h a

/-- Children are added. -/
theorem total_fork {tasks : Dict NodePath α} {p : NodePath} (h : ∀ i, tasks.get? (i :: p) = none)
    (children : List α) : total f (fork tasks p children) = total f tasks + (children.map f).sum := by
  have hfrom : ∀ (children : List α) (n : Nat) (tasks : Dict NodePath α),
      (∀ i, n ≤ i → tasks.get? (i :: p) = none) →
        total f (forkFrom p n children tasks) = total f tasks + (children.map f).sum := by
    intro children
    induction children with
    | nil => exact fun _ _ _ => rfl
    | cons child rest ih =>
      intro n tasks hfree
      have hset : total f (tasks.set (n :: p) child) = total f tasks + f child :=
        sum_setMembers_none f (hfree n (le_refl n)) child
      have hrest := ih (n + 1) (tasks.set (n :: p) child) fun i hi => by
        rw [Dict.get?_set_ne _ _ (by intro h; have := (List.cons.inj h).1; omega)]
        exact hfree i (by omega)
      rw [forkFrom, hrest, hset, List.map_cons, List.sum_cons]
      omega
  exact hfrom children 0 tasks fun i _ => h i

end Total

/-! ## The deepest tasks -/

theorem length_le_sum {l : List NodePath} {p : NodePath} (h : p ∈ l) :
    p.length ≤ (l.map List.length).sum := by
  induction l with
  | nil => simp at h
  | cons q l ih =>
    rw [List.map_cons, List.sum_cons]
    rcases List.mem_cons.mp h with rfl | h
    · omega
    · have := ih h
      omega

/-- Of the tasks with a property there is one without children that have it. -/
theorem exists_deepest {tasks : Dict NodePath α} {P : NodePath → α → Prop}
    (h : ∃ p a, tasks.get? p = some a ∧ P p a) :
    ∃ p a, tasks.get? p = some a ∧ P p a ∧ ∀ i b, tasks.get? (i :: p) = some b → ¬ P (i :: p) b := by
  by_contra hnone
  -- then there are tasks with the property of every depth
  have hdeep : ∀ n : Nat, ∃ p a, tasks.get? p = some a ∧ P p a ∧ n ≤ p.length := by
    intro n
    induction n with
    | zero =>
      obtain ⟨p, a, hget, hp⟩ := h
      exact ⟨p, a, hget, hp, Nat.zero_le _⟩
    | succ n ih =>
      obtain ⟨p, a, hget, hp, hlen⟩ := ih
      by_contra hstop
      refine hnone ⟨p, a, hget, hp, fun i b hchild hb => hstop ⟨i :: p, b, hchild, hb, ?_⟩⟩
      rw [List.length_cons]
      omega
  obtain ⟨p, a, hget, -, hlen⟩ := hdeep ((tasks.keys.map List.length).sum + 1)
  have hle := length_le_sum ((Dict.mem_keys_iff tasks p).mpr ⟨a, hget⟩)
  omega

end ForkJoin
