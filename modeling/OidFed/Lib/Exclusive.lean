import OidFed.Lib.System
import Mathlib.Data.List.Basic

/-!
# Operations on a shared state, one after the other

A component serializes its operations with a chain of promises: each operation waits for the
promise of the one before it, runs, and settles its own. A mutation runs on the shared state in one
go. A transaction runs on a draft, in sections between which other operations may be invoked and
the shared state read; the draft becomes the shared state only if it succeeds.

* `Script`: a computation in sections. `Script.run` runs it without a pause.
* `Operation.run`: an operation by itself.
* `exclusive`: the system of operations invoked at any time, whose sections interleave freely.
* `Serial`: the invariant. The shared state is the one after the first `k` operations, one after
  the other in the order of invocation; these have their results, the next may be on its way, and
  those behind it wait. `Reach.serial` gives it for every reachable state.
* `Serial.progress`: unless all have finished, some operation can go on.
-/

/-- A computation on a state, in sections. -/
inductive Script (σ α : Type) where
  | done (a : α)
  | step (update : σ → σ) (next : σ → Script σ α)

namespace Script

variable {σ α β ε : Type}

/-- The computation without a pause. -/
def run : Script σ α → σ → α × σ
  | done a, s => (a, s)
  | step update next, s => (next s).run (update s)

def bind : Script σ α → (α → Script σ β) → Script σ β
  | done a, f => f a
  | step update next, f => step update fun s => (next s).bind f

instance : Monad (Script σ) where
  pure := done
  bind := bind

/-- One section. -/
def act (f : σ → α × σ) : Script σ α := step (fun s => (f s).2) fun s => done (f s).1

@[simp] theorem run_pure (a : α) (s : σ) : run (pure a : Script σ α) s = (a, s) := rfl

@[simp] theorem run_act (f : σ → α × σ) (s : σ) : run (act f) s = f s := rfl

@[simp] theorem run_bind (x : Script σ α) (f : α → Script σ β) (s : σ) :
    run (x >>= f) s = run (f (run x s).1) (run x s).2 := by
  change run (bind x f) s = _
  induction x generalizing s with
  | done a => rfl
  | step update next ih => exact ih s (update s)

@[simp] theorem run_map (f : α → β) (x : Script σ α) (s : σ) :
    run (f <$> x) s = (f (run x s).1, (run x s).2) :=
  run_bind x (fun a => pure (f a)) s

/-- A computation that may throw, without a pause. -/
def runExcept (x : ExceptT ε (Script σ) α) (s : σ) : Except ε α × σ := run x.run s

@[simp] theorem runExcept_pure (a : α) (s : σ) :
    runExcept (pure a : ExceptT ε (Script σ) α) s = (.ok a, s) := rfl

@[simp] theorem runExcept_throw (e : ε) (s : σ) :
    runExcept (throw e : ExceptT ε (Script σ) α) s = (.error e, s) := rfl

theorem runExcept_bind (x : ExceptT ε (Script σ) α) (f : α → ExceptT ε (Script σ) β) (s : σ) :
    runExcept (x >>= f) s =
      match runExcept x s with
      | (.ok a, s') => runExcept (f a) s'
      | (.error e, s') => (.error e, s') := by
  change run (x.run >>= ExceptT.bindCont f) s = _
  rw [run_bind]
  unfold runExcept
  cases hx : run x.run s with
  | mk r s' => cases r <;> rfl

end Script

namespace Exclusive

variable {σ ε α : Type}

inductive Operation (σ ε α : Type) where
  | mutation (f : σ → Except ε α × σ)
  | transaction (script : Script σ (Except ε α))

/-- An operation by itself. -/
def Operation.run : Operation σ ε α → σ → Except ε α × σ
  | mutation f, s => f s
  | transaction script, s =>
    match script.run s with
    | (.ok a, draft) => (.ok a, draft)
    | (.error e, _) => (.error e, s)

/-- Where an operation is. -/
inductive Stage (σ ε α : Type) where
  | waiting
  | running (draft : σ) (rest : Script σ (Except ε α))
  | finishing (result : Except ε α)
  | finished (result : Except ε α)

/-- The result of an operation that has run. -/
def Stage.result? : Stage σ ε α → Option (Except ε α)
  | finishing r | finished r => some r
  | waiting | running _ _ => none

/-- An invoked operation: the promise it waits for, the one it settles, and where it is. -/
structure Call (σ ε α : Type) where
  operation : Operation σ ε α
  previous : Nat
  own : Nat
  stage : Stage σ ε α

/-- The shared state, the promise that the next operation will wait for, the settled promises, and
the operations in the order in which they were invoked. -/
structure State (σ ε α : Type) where
  shared : σ
  tail : Nat := 0
  settled : List Nat := [0]
  calls : List (Call σ ε α) := []

def State.operations (S : State σ ε α) : List (Operation σ ε α) := S.calls.map Call.operation

/-- Invoke an operation: it queues behind the last one. -/
def invoke (S : State σ ε α) (operation : Operation σ ε α) : State σ ε α :=
  let own := S.calls.length + 1
  { S with
    tail := own
    calls := S.calls ++ [{ operation, previous := S.tail, own, stage := .waiting }] }

/-- The next section of an operation, where it can go on. -/
def advance (S : State σ ε α) (i : Nat) : Option (State σ ε α) := do
  let call ← S.calls[i]?
  let goTo (stage : Stage σ ε α) := S.calls.set i { call with stage }
  match call.stage with
  | .waiting =>
    if call.previous ∈ S.settled then
      match call.operation with
      | .mutation f =>
        return { S with shared := (f S.shared).2, calls := goTo (.finishing (f S.shared).1) }
      | .transaction script => return { S with calls := goTo (.running S.shared script) }
    else none
  | .running draft (.step update next) =>
    return { S with calls := goTo (.running (update draft) (next draft)) }
  | .running draft (.done (.ok a)) =>
    return { S with shared := draft, calls := goTo (.finishing (.ok a)) }
  | .running _ (.done (.error e)) => return { S with calls := goTo (.finishing (.error e)) }
  | .finishing r =>
    return { S with settled := call.own :: S.settled, calls := goTo (.finished r) }
  | .finished _ => none

/-- Operations of a kind may be invoked at any time, and their sections interleave. -/
inductive Step (kind : Operation σ ε α → Prop) : State σ ε α → State σ ε α → Prop
  | invoke (S : State σ ε α) {operation : Operation σ ε α} :
      kind operation → Step kind S (invoke S operation)
  | advance {S S' : State σ ε α} (i : Nat) : advance S i = some S' → Step kind S S'

/-- A choice of the next step. -/
inductive Move (σ ε α : Type) where
  | invoke (operation : Operation σ ε α)
  | advance (i : Nat)

/-- The steps of a schedule. -/
def play (S : State σ ε α) : List (Move σ ε α) → Option (State σ ε α)
  | [] => some S
  | .invoke operation :: moves => play (invoke S operation) moves
  | .advance i :: moves => (advance S i).bind fun S => play S moves

/-- The system of operations of a kind, from a shared state on. -/
def exclusive (kind : Operation σ ε α → Prop) (s₀ : σ) : System where
  St := State σ ε α
  init S := S = { shared := s₀ }
  step := Step kind

/-! ## The serial execution -/

/-- The state after operations, one after the other. -/
def stateAfter (s₀ : σ) (operations : List (Operation σ ε α)) : σ :=
  operations.foldl (fun s operation => (operation.run s).2) s₀

/-- The result of an operation after those before it. -/
def resultAfter (s₀ : σ) (before : List (Operation σ ε α)) (operation : Operation σ ε α) :
    Except ε α :=
  (operation.run (stateAfter s₀ before)).1

/-- A failure leaves the state as it was. -/
def Operation.Clean (operation : Operation σ ε α) : Prop :=
  ∀ s e s', operation.run s = (.error e, s') → s' = s

theorem Operation.clean_transaction (script : Script σ (Except ε α)) :
    (Operation.transaction script).Clean := by
  intro s e s' h
  simp only [Operation.run] at h
  cases hr : script.run s with
  | mk r draft =>
    rw [hr] at h
    cases r with
    | ok a => simp at h
    | error e' => exact (Prod.mk.inj h).2.symm

theorem stateAfter_concat (s₀ : σ) (before : List (Operation σ ε α)) (op : Operation σ ε α) :
    stateAfter s₀ (before ++ [op]) = (op.run (stateAfter s₀ before)).2 := by
  simp [stateAfter]

/-- The first `k` operations have run one after the other, the next may be on its way, and those
behind it wait. -/
structure SerialUpTo (s₀ : σ) (S : State σ ε α) (k : Nat) : Prop where
  le : k ≤ S.calls.length
  tail : S.tail = S.calls.length
  linked : ∀ i call, S.calls[i]? = some call → call.previous = i ∧ call.own = i + 1
  shared : S.shared = stateAfter s₀ (S.operations.take k)
  ended : ∀ i call, S.calls[i]? = some call → i < k →
    call.stage.result? = some (resultAfter s₀ (S.operations.take i) call.operation)
  current : ∀ call, S.calls[k]? = some call → call.stage = .waiting ∨ ∃ draft rest script,
    call.stage = .running draft rest ∧ call.operation = .transaction script ∧
      rest.run draft = script.run S.shared
  behind : ∀ i call, S.calls[i]? = some call → k < i → call.stage = .waiting
  /-- A promise is settled exactly when its operation has finished. -/
  settled : ∀ p, p ∈ S.settled ↔ p = 0 ∨ ∃ i call r, S.calls[i]? = some call ∧
    call.stage = .finished r ∧ p = i + 1

def Serial (s₀ : σ) (S : State σ ε α) : Prop := ∃ k, SerialUpTo s₀ S k

section Step

variable {kind : Operation σ ε α → Prop} {s₀ : σ} {S S' : State σ ε α} {k : Nat}

theorem SerialUpTo.invoke (h : SerialUpTo s₀ S k) (op : Operation σ ε α) :
    SerialUpTo s₀ (invoke S op) k := by
  -- the calls are those that there were, and the new one, which waits
  have hnew : ∀ i call, (Exclusive.invoke S op).calls[i]? = some call →
      S.calls[i]? = some call ∨ i = S.calls.length ∧
        call = { operation := op, previous := S.tail, own := S.calls.length + 1,
                 stage := .waiting } := by
    intro i call hi
    simp only [Exclusive.invoke] at hi
    rcases Nat.lt_trichotomy i S.calls.length with hlt | heq | hgt
    · rw [List.getElem?_append_left hlt] at hi
      exact .inl hi
    · subst heq
      rw [List.getElem?_append_right (Nat.le_refl _)] at hi
      simp only [Nat.sub_self, List.getElem?_cons_zero, Option.some.injEq] at hi
      exact .inr ⟨rfl, hi.symm⟩
    · rw [List.getElem?_eq_none (by simp; omega)] at hi
      simp at hi
  have hops : (Exclusive.invoke S op).operations = S.operations ++ [op] := by
    simp [State.operations, Exclusive.invoke]
  have hlen : S.operations.length = S.calls.length := by simp [State.operations]
  -- so the operations that have run are the same
  have htake : ∀ n, n ≤ S.calls.length →
      (Exclusive.invoke S op).operations.take n = S.operations.take n := by
    intro n hn
    rw [hops, List.take_append_of_le_length (by omega)]
  refine ⟨?_, ?_, ?_, ?_, ?_, ?_, ?_, ?_⟩
  · have := h.le
    simp [Exclusive.invoke]
    omega
  · simp [Exclusive.invoke]
  · intro i call hi
    rcases hnew i call hi with hold | ⟨rfl, rfl⟩
    · exact h.linked i call hold
    · exact ⟨h.tail, rfl⟩
  · rw [htake k h.le]
    exact h.shared
  · intro i call hi hik
    rcases hnew i call hi with hold | ⟨rfl, rfl⟩
    · rw [htake i (Nat.le_trans (Nat.le_of_lt hik) h.le)]
      exact h.ended i call hold hik
    · exact absurd hik (Nat.not_lt.mpr h.le)
  · intro call hi
    rcases hnew k call hi with hold | ⟨-, rfl⟩
    · exact h.current call hold
    · exact .inl rfl
  · intro i call hi hik
    rcases hnew i call hi with hold | ⟨-, rfl⟩
    · exact h.behind i call hold hik
    · rfl
  · intro p
    rw [show (Exclusive.invoke S op).settled = S.settled from rfl, h.settled p]
    refine or_congr_right ⟨?_, ?_⟩
    · rintro ⟨i, call, r, hi, hr, rfl⟩
      have hlt := (List.getElem?_eq_some_iff.mp hi).1
      refine ⟨i, call, r, ?_, hr, rfl⟩
      simp only [Exclusive.invoke]
      rw [List.getElem?_append_left hlt]
      exact hi
    · rintro ⟨i, call, r, hi, hr, rfl⟩
      rcases hnew i call hi with hold | ⟨-, rfl⟩
      · exact ⟨i, call, r, hold, hr, rfl⟩
      · simp at hr

/-- What a section of an operation can do. -/
theorem advance_cases {i : Nat} (h : advance S i = some S') : ∃ call, S.calls[i]? = some call ∧
    ((call.stage = .waiting ∧ call.previous ∈ S.settled ∧ ∃ f, call.operation = .mutation f ∧
        S' = { S with shared := (f S.shared).2
                      calls := S.calls.set i { call with stage := .finishing (f S.shared).1 } }) ∨
      (call.stage = .waiting ∧ call.previous ∈ S.settled ∧ ∃ script,
        call.operation = .transaction script ∧
          S' = { S with calls := S.calls.set i { call with stage := .running S.shared script } }) ∨
      (∃ draft update next, call.stage = .running draft (.step update next) ∧
        S' = { S with
          calls := S.calls.set i { call with stage := .running (update draft) (next draft) } }) ∨
      (∃ draft a, call.stage = .running draft (.done (.ok a)) ∧
        S' = { S with shared := draft
                      calls := S.calls.set i { call with stage := .finishing (.ok a) } }) ∨
      (∃ draft e, call.stage = .running draft (.done (.error e)) ∧
        S' = { S with calls := S.calls.set i { call with stage := .finishing (.error e) } }) ∨
      (∃ r, call.stage = .finishing r ∧
        S' = { S with settled := call.own :: S.settled
                      calls := S.calls.set i { call with stage := .finished r } })) := by
  unfold advance at h
  obtain ⟨call, hcall, h⟩ := Option.bind_eq_some_iff.mp h
  refine ⟨call, hcall, ?_⟩
  simp only at h
  split at h
  · rename_i hstage
    split at h
    · rename_i hsettled
      split at h
      · rename_i f hop
        exact .inl ⟨hstage, hsettled, f, hop, (Option.some.inj h).symm⟩
      · rename_i script hop
        exact .inr (.inl ⟨hstage, hsettled, script, hop, (Option.some.inj h).symm⟩)
    · simp at h
  · rename_i draft update next hstage
    exact .inr (.inr (.inl ⟨draft, update, next, hstage, (Option.some.inj h).symm⟩))
  · rename_i draft a hstage
    exact .inr (.inr (.inr (.inl ⟨draft, a, hstage, (Option.some.inj h).symm⟩)))
  · rename_i draft e hstage
    exact .inr (.inr (.inr (.inr (.inl ⟨draft, e, hstage, (Option.some.inj h).symm⟩))))
  · rename_i r hstage
    exact .inr (.inr (.inr (.inr (.inr ⟨r, hstage, (Option.some.inj h).symm⟩))))
  · simp at h

/-- The operations behind a change of one of them: this one, or another that has not changed. -/
theorem getElem?_goTo {calls : List (Call σ ε α)} {i j : Nat} {call call' c : Call σ ε α}
    (hcall : calls[i]? = some call) (hj : (calls.set i call')[j]? = some c) :
    (j = i ∧ c = call') ∨ (j ≠ i ∧ calls[j]? = some c) := by
  by_cases hji : j = i
  · subst hji
    rw [List.getElem?_set_self (List.getElem?_eq_some_iff.mp hcall).1] at hj
    exact .inl ⟨rfl, (Option.some.inj hj).symm⟩
  · rw [List.getElem?_set_ne (Ne.symm hji)] at hj
    exact .inr ⟨hji, hj⟩

theorem operations_goTo {calls : List (Call σ ε α)} {i : Nat} {call : Call σ ε α}
    (hcall : calls[i]? = some call) (stage : Stage σ ε α) :
    (calls.set i { call with stage }).map Call.operation = calls.map Call.operation := by
  obtain ⟨hi, rfl⟩ := List.getElem?_eq_some_iff.mp hcall
  rw [List.map_set]
  refine List.ext_getElem (by simp) fun j hj hj' => ?_
  rw [List.getElem_set]
  split
  · rename_i h
    subst h
    simp
  · rfl

/-- An operation that goes from one unfinished stage to another leaves the promises as they are. -/
theorem SerialUpTo.settled_goTo (h : SerialUpTo s₀ S k) {i : Nat} {call : Call σ ε α}
    (hcall : S.calls[i]? = some call) (hold : ∀ r, call.stage ≠ .finished r)
    {stage : Stage σ ε α} (hnew : ∀ r, stage ≠ .finished r) (p : Nat) :
    p ∈ S.settled ↔ p = 0 ∨ ∃ j c r, (S.calls.set i { call with stage })[j]? = some c ∧
      c.stage = .finished r ∧ p = j + 1 := by
  rw [h.settled p]
  refine or_congr_right ⟨?_, ?_⟩
  · rintro ⟨j, c, r, hj, hr, rfl⟩
    have hji : j ≠ i := by
      rintro rfl
      rw [hcall] at hj
      obtain rfl := Option.some.inj hj
      exact hold r hr
    exact ⟨j, c, r, by rw [List.getElem?_set_ne (Ne.symm hji)]; exact hj, hr, rfl⟩
  · rintro ⟨j, c, r, hj, hr, rfl⟩
    rcases getElem?_goTo hcall hj with ⟨-, rfl⟩ | ⟨-, hj⟩
    · exact absurd hr (hnew r)
    · exact ⟨j, c, r, hj, hr, rfl⟩

theorem SerialUpTo.linked_goTo (h : SerialUpTo s₀ S k) {i : Nat} {call : Call σ ε α}
    (hcall : S.calls[i]? = some call) {stage : Stage σ ε α} (j : Nat) (c : Call σ ε α)
    (hj : (S.calls.set i { call with stage })[j]? = some c) : c.previous = j ∧ c.own = j + 1 := by
  rcases getElem?_goTo hcall hj with ⟨rfl, rfl⟩ | ⟨-, hj⟩
  · exact h.linked j call hcall
  · exact h.linked j c hj

/-- The current operation has run: the serial execution has one operation more. -/
theorem SerialUpTo.ran (h : SerialUpTo s₀ S k) {call : Call σ ε α}
    (hcall : S.calls[k]? = some call) (hstage : call.stage.result? = none) {r : Except ε α} {s' : σ}
    (hrun : call.operation.run S.shared = (r, s')) :
    SerialUpTo s₀ { S with shared := s', calls := S.calls.set k { call with stage := .finishing r } }
      (k + 1) := by
  have hk := (List.getElem?_eq_some_iff.mp hcall).1
  have hold : ∀ r, call.stage ≠ .finished r := by
    intro r hr
    simp [hr, Stage.result?] at hstage
  have hops := operations_goTo hcall (.finishing r)
  have hop : S.operations[k]? = some call.operation := by
    simp [State.operations, hcall]
  constructor
  · simp only [List.length_set]
    omega
  · simpa using h.tail
  · exact h.linked_goTo hcall
  · simp only [State.operations, hops]
    rw [show S.calls.map Call.operation = S.operations from rfl, List.take_add_one, hop]
    simp only [Option.toList_some, stateAfter_concat, ← h.shared, hrun]
  · intro i c hi hik
    simp only [State.operations, hops]
    rcases getElem?_goTo hcall hi with ⟨rfl, rfl⟩ | ⟨hne, hi⟩
    · simp only [Stage.result?, resultAfter]
      rw [show S.calls.map Call.operation = S.operations from rfl, ← h.shared, hrun]
    · exact h.ended i c hi (by omega)
  · intro c hc
    rcases getElem?_goTo hcall hc with ⟨heq, -⟩ | ⟨-, hc⟩
    · omega
    · exact .inl (h.behind _ c hc (by omega))
  · intro i c hi hik
    rcases getElem?_goTo hcall hi with ⟨heq, -⟩ | ⟨-, hi⟩
    · omega
    · exact h.behind i c hi (by omega)
  · exact h.settled_goTo hcall hold (by simp)

/-- The current operation goes on with its draft. -/
theorem SerialUpTo.onTheWay (h : SerialUpTo s₀ S k) {call : Call σ ε α}
    (hcall : S.calls[k]? = some call) (hstage : call.stage.result? = none) {draft : σ}
    {rest script : Script σ (Except ε α)} (hop : call.operation = .transaction script)
    (hrun : rest.run draft = script.run S.shared) :
    SerialUpTo s₀ { S with calls := S.calls.set k { call with stage := .running draft rest } } k := by
  have hold : ∀ r, call.stage ≠ .finished r := by
    intro r hr
    simp [hr, Stage.result?] at hstage
  have hops := operations_goTo hcall (.running draft rest)
  constructor
  · simpa using h.le
  · simpa using h.tail
  · exact h.linked_goTo hcall
  · simp only [State.operations, hops]
    exact h.shared
  · intro i c hi hik
    simp only [State.operations, hops]
    rcases getElem?_goTo hcall hi with ⟨heq, -⟩ | ⟨-, hi⟩
    · omega
    · exact h.ended i c hi hik
  · intro c hc
    rcases getElem?_goTo hcall hc with ⟨-, rfl⟩ | ⟨hne, -⟩
    · exact .inr ⟨draft, rest, script, rfl, hop, hrun⟩
    · exact absurd rfl hne
  · intro i c hi hik
    rcases getElem?_goTo hcall hi with ⟨heq, -⟩ | ⟨-, hi⟩
    · omega
    · exact h.behind i c hi hik
  · exact h.settled_goTo hcall hold (by simp)

/-- An operation that has run settles its promise. -/
theorem SerialUpTo.released (h : SerialUpTo s₀ S k) {i : Nat} {call : Call σ ε α}
    (hcall : S.calls[i]? = some call) (hi : i < k) {r : Except ε α}
    (hstage : call.stage = .finishing r) :
    SerialUpTo s₀ { S with settled := call.own :: S.settled
                           calls := S.calls.set i { call with stage := .finished r } } k := by
  have hops := operations_goTo hcall (.finished r)
  constructor
  · simpa using h.le
  · simpa using h.tail
  · exact h.linked_goTo hcall
  · simp only [State.operations, hops]
    exact h.shared
  · intro j c hj hjk
    simp only [State.operations, hops]
    rcases getElem?_goTo hcall hj with ⟨rfl, rfl⟩ | ⟨-, hj⟩
    · have := h.ended j call hcall hjk
      rw [hstage] at this
      exact this
    · exact h.ended j c hj hjk
  · intro c hc
    rcases getElem?_goTo hcall hc with ⟨heq, -⟩ | ⟨-, hc⟩
    · omega
    · exact h.current c hc
  · intro j c hj hjk
    rcases getElem?_goTo hcall hj with ⟨heq, -⟩ | ⟨-, hj⟩
    · omega
    · exact h.behind j c hj hjk
  · intro p
    -- the promise that is settled is that of the call at `i`
    have hown := (h.linked i call hcall).2
    simp only [List.mem_cons, h.settled p]
    constructor
    · rintro (rfl | rfl | ⟨j, c, r', hj, hr, rfl⟩)
      · refine .inr ⟨i, _, r, List.getElem?_set_self (List.getElem?_eq_some_iff.mp hcall).1, rfl, hown⟩
      · exact .inl rfl
      · have hji : j ≠ i := by
          rintro rfl
          rw [hcall] at hj
          obtain rfl := Option.some.inj hj
          rw [hstage] at hr
          simp at hr
        exact .inr ⟨j, c, r', by rw [List.getElem?_set_ne (Ne.symm hji)]; exact hj, hr, rfl⟩
    · rintro (rfl | ⟨j, c, r', hj, hr, rfl⟩)
      · exact .inr (.inl rfl)
      · rcases getElem?_goTo hcall hj with ⟨rfl, rfl⟩ | ⟨-, hj⟩
        · exact .inl hown.symm
        · exact .inr (.inr ⟨j, c, r', hj, hr, rfl⟩)

/-- The operation whose turn it is, is the only one that can start. -/
theorem SerialUpTo.turn (h : SerialUpTo s₀ S k) {i : Nat} {call : Call σ ε α}
    (hcall : S.calls[i]? = some call) (hstage : call.stage = .waiting)
    (hsettled : call.previous ∈ S.settled) : i = k := by
  have hprev := (h.linked i call hcall).1
  rcases Nat.lt_trichotomy i k with hlt | heq | hgt
  · have := h.ended i call hcall hlt
    simp [hstage, Stage.result?] at this
  · exact heq
  · exfalso
    rw [hprev] at hsettled
    rcases (h.settled i).mp hsettled with rfl | ⟨j, c, r, hj, hr, rfl⟩
    · omega
    · -- the operation before it has not finished either
      rcases Nat.lt_or_ge k j with hkj | hkj
      · simp [h.behind j c hj hkj] at hr
      · obtain rfl : j = k := by omega
        rcases h.current c hj with hw | ⟨_, _, _, hw, -⟩ <;> simp [hw] at hr

/-- An operation with a draft is the one whose turn it is. -/
theorem SerialUpTo.running (h : SerialUpTo s₀ S k) {i : Nat} {call : Call σ ε α}
    (hcall : S.calls[i]? = some call) {draft : σ} {rest : Script σ (Except ε α)}
    (hstage : call.stage = .running draft rest) : i = k ∧ ∃ script,
      call.operation = .transaction script ∧ rest.run draft = script.run S.shared := by
  rcases Nat.lt_trichotomy i k with hlt | heq | hgt
  · have := h.ended i call hcall hlt
    simp [hstage, Stage.result?] at this
  · subst heq
    rcases h.current call hcall with hw | ⟨d, t, script, hw, hop, hrun⟩
    · simp [hstage] at hw
    · rw [hstage] at hw
      obtain ⟨rfl, rfl⟩ := Stage.running.inj hw
      exact ⟨rfl, script, hop, hrun⟩
  · simp [h.behind i call hcall hgt] at hstage

theorem SerialUpTo.finishing (h : SerialUpTo s₀ S k) {i : Nat} {call : Call σ ε α}
    (hcall : S.calls[i]? = some call) {r : Except ε α} (hstage : call.stage = .finishing r) :
    i < k := by
  rcases Nat.lt_trichotomy i k with hlt | heq | hgt
  · exact hlt
  · subst heq
    rcases h.current call hcall with hw | ⟨_, _, _, hw, -⟩ <;> simp [hw] at hstage
  · simp [h.behind i call hcall hgt] at hstage

theorem SerialUpTo.finished (h : SerialUpTo s₀ S k) {i : Nat} {call : Call σ ε α}
    (hcall : S.calls[i]? = some call) {r : Except ε α} (hstage : call.stage = .finished r) :
    i < k := by
  rcases Nat.lt_trichotomy i k with hlt | heq | hgt
  · exact hlt
  · subst heq
    rcases h.current call hcall with hw | ⟨_, _, _, hw, -⟩ <;> simp [hw] at hstage
  · simp [h.behind i call hcall hgt] at hstage

/-- Every step keeps the serial execution. -/
theorem Serial.step (h : Serial s₀ S) (hs : Step kind S S') : Serial s₀ S' := by
  obtain ⟨k, h⟩ := h
  cases hs with
  | @invoke op _ => exact ⟨k, h.invoke op⟩
  | advance i ha =>
    obtain ⟨call, hcall, hcases⟩ := advance_cases ha
    rcases hcases with ⟨hw, hp, f, hop, rfl⟩ | ⟨hw, hp, script, hop, rfl⟩ |
      ⟨draft, update, next, hr, rfl⟩ | ⟨draft, a, hr, rfl⟩ | ⟨draft, e, hr, rfl⟩ | ⟨r, hf, rfl⟩
    · obtain rfl := h.turn hcall hw hp
      exact ⟨i + 1, h.ran hcall (by rw [hw]; rfl) (by rw [hop]; rfl)⟩
    · obtain rfl := h.turn hcall hw hp
      exact ⟨i, h.onTheWay hcall (by rw [hw]; rfl) hop rfl⟩
    · obtain ⟨rfl, script, hop, hrun⟩ := h.running hcall hr
      exact ⟨i, h.onTheWay hcall (by rw [hr]; rfl) hop hrun⟩
    · obtain ⟨rfl, script, hop, hrun⟩ := h.running hcall hr
      refine ⟨i + 1, h.ran hcall (by rw [hr]; rfl) ?_⟩
      rw [hop, Operation.run, ← hrun]
      rfl
    · obtain ⟨rfl, script, hop, hrun⟩ := h.running hcall hr
      have hfailed : call.operation.run S.shared = (.error e, S.shared) := by
        rw [hop, Operation.run, ← hrun]
        rfl
      exact ⟨i + 1, h.ran hcall (by rw [hr]; rfl) hfailed⟩
    · exact ⟨k, h.released hcall (h.finishing hcall hf) hf⟩

/-- The state before anything is invoked. -/
theorem Serial.init (s₀ : σ) : Serial s₀ ({ shared := s₀ } : State σ ε α) := by
  refine ⟨0, by simp, rfl, by simp, rfl, by simp, by simp, by simp, by simp⟩

theorem reach_play (moves : List (Move σ ε α)) (h : (exclusive kind s₀).Reach S)
    (hkind : ∀ op, .invoke op ∈ moves → kind op) (hplay : play S moves = some S') :
    (exclusive kind s₀).Reach S' := by
  induction moves generalizing S with
  | nil =>
    obtain rfl := Option.some.inj hplay
    exact h
  | cons move moves ih =>
    have hrest : ∀ op, .invoke op ∈ moves → kind op :=
      fun op hop => hkind op (List.mem_cons_of_mem _ hop)
    cases move with
    | invoke op => exact ih (h.step (.invoke S (hkind op List.mem_cons_self))) hrest hplay
    | advance i =>
      obtain ⟨S₁, ha, hplay⟩ := Option.bind_eq_some_iff.mp hplay
      exact ih (h.step (.advance i ha)) hrest hplay

/-- Every reachable state is that of a serial execution. -/
theorem serial_of_reach (h : (exclusive kind s₀).Reach S) : Serial s₀ S := by
  refine h.invariant (I := Serial s₀) ?_ ?_
  · rintro s rfl
    exact .init s₀
  · exact fun s s' hI hs => hI.step hs

theorem operations_advance {i : Nat} (h : Exclusive.advance S i = some S') :
    S'.operations = S.operations := by
  obtain ⟨call, hcall, hcases⟩ := advance_cases h
  rcases hcases with ⟨-, -, f, -, rfl⟩ | ⟨-, -, script, -, rfl⟩ | ⟨draft, update, next, -, rfl⟩ |
    ⟨draft, a, -, rfl⟩ | ⟨draft, e, -, rfl⟩ | ⟨r, -, rfl⟩ <;> exact operations_goTo hcall _

/-- Only operations of the kind have been invoked. -/
theorem kind_of_reach (h : (exclusive kind s₀).Reach S) : ∀ op ∈ S.operations, kind op := by
  refine h.invariant (I := fun S : State σ ε α => ∀ op ∈ S.operations, kind op) ?_ ?_
  · rintro s rfl
    simp [State.operations]
  · intro s s' hI hs
    cases hs with
    | @invoke op hop =>
      intro o ho
      simp only [State.operations, Exclusive.invoke, List.map_append, List.map_cons, List.map_nil,
        List.mem_append, List.mem_singleton] at ho
      rcases ho with ho | rfl
      · exact hI o ho
      · exact hop
    | advance i ha =>
      rw [operations_advance ha]
      exact hI

/-- What every operation of the kind keeps, holds after any of them. -/
theorem stateAfter_invariant {I : σ → Prop} (h₀ : I s₀) {ops : List (Operation σ ε α)}
    (hstep : ∀ op ∈ ops, ∀ s, I s → I (op.run s).2) : I (stateAfter s₀ ops) := by
  induction ops generalizing s₀ with
  | nil => exact h₀
  | cons op ops ih =>
    exact ih (hstep op List.mem_cons_self s₀ h₀) fun o ho => hstep o (List.mem_cons_of_mem _ ho)

/-- The shared state changes only in the step in which an operation succeeds. -/
theorem shared_changed (hclean : ∀ op ∈ S.operations, op.Clean)
    (hs : Step kind S S') (hne : S'.shared ≠ S.shared) : ∃ (i : Nat) (call call' : Call σ ε α) (a : α),
      S.calls[i]? = some call ∧ call.stage.result? = none ∧ S'.calls[i]? = some call' ∧
        call'.stage = .finishing (.ok a) := by
  cases hs with
  | invoke op => exact absurd rfl hne
  | advance i ha =>
    obtain ⟨call, hcall, hcases⟩ := advance_cases ha
    have hi := (List.getElem?_eq_some_iff.mp hcall).1
    rcases hcases with ⟨hw, -, f, hop, rfl⟩ | ⟨-, -, script, -, rfl⟩ |
      ⟨draft, update, next, -, rfl⟩ | ⟨draft, a, hr, rfl⟩ | ⟨draft, e, -, rfl⟩ | ⟨r, -, rfl⟩
    · cases hf : f S.shared with
      | mk r s' =>
        cases r with
        | error e =>
          -- a mutation that fails leaves the state as it was
          have hmem : call.operation ∈ S.operations :=
            List.mem_map_of_mem (List.mem_of_getElem? hcall)
          have := hclean _ hmem S.shared e s' (by rw [hop]; exact hf)
          exact absurd (by simp [hf, this]) hne
        | ok a => exact ⟨i, call, _, a, hcall, by rw [hw]; rfl, List.getElem?_set_self hi, by simp⟩
    · exact absurd rfl hne
    · exact absurd rfl hne
    · exact ⟨i, call, _, a, hcall, by rw [hr]; rfl, List.getElem?_set_self hi, rfl⟩
    · exact absurd rfl hne
    · exact absurd rfl hne

/-- An operation whose turn it is can go on. -/
theorem advance_isSome {i : Nat} {call : Call σ ε α} (hcall : S.calls[i]? = some call)
    (hstage : (call.stage = .waiting ∧ call.previous ∈ S.settled) ∨
      (∃ draft rest, call.stage = .running draft rest) ∨ ∃ r, call.stage = .finishing r) :
    ∃ S', advance S i = some S' := by
  unfold advance
  rw [hcall]
  rcases hstage with ⟨hw, hp⟩ | ⟨draft, rest, hr⟩ | ⟨r, hf⟩
  · cases hop : call.operation <;> simp [hw, hp, hop]
  · cases rest with
    | done r => cases r <;> simp [hr]
    | step update next => simp [hr]
  · simp [hf]

/-- Unless all operations have finished, one of them can go on. -/
theorem Serial.progress (h : Serial s₀ S) {i : Nat} {call : Call σ ε α}
    (hcall : S.calls[i]? = some call) (hunfinished : ∀ r, call.stage ≠ .finished r) :
    ∃ j S', Exclusive.advance S j = some S' := by
  obtain ⟨k, h⟩ := h
  have hi := (List.getElem?_eq_some_iff.mp hcall).1
  by_cases hik : i < k
  · -- it has run, and only its promise is left
    have hended := h.ended i call hcall hik
    refine ⟨i, advance_isSome hcall (.inr (.inr ?_))⟩
    cases hstage : call.stage with
    | finishing r => exact ⟨r, rfl⟩
    | finished r => exact absurd hstage (hunfinished r)
    | waiting => simp [hstage, Stage.result?] at hended
    | running _ _ => simp [hstage, Stage.result?] at hended
  · have hk : k < S.calls.length := by omega
    have hcur := List.getElem?_eq_getElem hk
    rcases h.current _ hcur with hw | ⟨draft, rest, _, hr, -⟩
    · have hprev := (h.linked k _ hcur).1
      by_cases hpk : k ∈ S.settled
      · exact ⟨k, advance_isSome hcur (.inl ⟨hw, by rw [hprev]; exact hpk⟩)⟩
      · -- the operation before it has run, but not settled its promise
        have hpos : k ≠ 0 := by
          rintro rfl
          exact hpk ((h.settled 0).mpr (.inl rfl))
        have hlt : k - 1 < S.calls.length := by omega
        have hbefore := List.getElem?_eq_getElem hlt
        have hended := h.ended (k - 1) _ hbefore (by omega)
        refine ⟨k - 1, advance_isSome hbefore (.inr (.inr ?_))⟩
        cases hstage : (S.calls[k - 1]).stage with
        | finishing r => exact ⟨r, rfl⟩
        | finished r =>
          refine absurd ((h.settled k).mpr (.inr ⟨k - 1, _, r, hbefore, hstage, ?_⟩)) hpk
          omega
        | waiting => simp [hstage, Stage.result?] at hended
        | running _ _ => simp [hstage, Stage.result?] at hended
    · exact ⟨k, advance_isSome hcur (.inr (.inl ⟨draft, rest, hr⟩))⟩

end Step

end Exclusive
