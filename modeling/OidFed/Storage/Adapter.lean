import OidFed.Lib.Exclusive
import OidFed.Storage.State

/-!
# The in-memory storage adapter (`authority/src/storage/memory.ts`)

`MemoryStorageAdapter` queues its mutations and transactions behind each other with `runExclusive`,
which is the system of `OidFed.Lib.Exclusive` on `MemoryState`: `tail` is the adapter's `tail`, an
operation's `previous` the promise that it awaits, and settling `own` its `release`. A transaction
runs its callback on a copy of the state, with mutations that do not queue. The callback touches
only its `tx`; the answers it gets from elsewhere, and the readings of the clock, are part of it.

A call whose arguments are refused (`Mutation.check`) fails before it queues.

`memoryStorage_serializable`: for every interleaving, the state and the results are those of the
operations one after the other, in the order in which they were called.
-/

namespace OidFed

open Js Exclusive

/-- The result of an adapter operation; the mutations return no value. -/
abbrev StorageResult (α : Type) := Except StorageError (Option α)

abbrev StorageOperation (α : Type) := Operation MemoryState StorageError (Option α)

/-- What runs with a transaction's `tx`: a computation on the draft, which may throw. -/
abbrev Transaction (α : Type) := ExceptT StorageError (Script MemoryState) α

variable {α : Type}

/-- A mutation that waits for its turn. -/
def mutationOperation (m : Mutation) (now : Rat) : StorageOperation α :=
  .mutation fun state => ((m.apply now state).1.map fun _ => none, (m.apply now state).2)

/-- `transaction(operation)`. -/
def transactionOperation (callback : Transaction α) : StorageOperation α :=
  .transaction ((fun r => r.map some) <$> callback.run)

/-- A read through `tx`. -/
def txRead {β : Type} (f : MemoryState → Except StorageError β) : Transaction β :=
  ExceptT.mk (Script.act fun draft => (f draft, draft))

/-- A mutation through `tx`. -/
def txMutate (m : Mutation) (now : Rat) : Transaction Unit :=
  ExceptT.mk (Script.act fun draft => match m.check with
    | .error e => (.error e, draft)
    | .ok () => m.apply now draft)

@[simp] theorem runExcept_txRead {β : Type} (f : MemoryState → Except StorageError β)
    (draft : MemoryState) : Script.runExcept (txRead f) draft = (f draft, draft) := rfl

theorem runExcept_txMutate {m : Mutation} (now : Rat) (hm : m.check = .ok ())
    (draft : MemoryState) : Script.runExcept (txMutate m now) draft = m.apply now draft := by
  simp [Script.runExcept, txMutate, hm, ExceptT.run, ExceptT.mk]

/-- A transaction by itself. -/
theorem transactionOperation_run (callback : Transaction α) (state : MemoryState) :
    (transactionOperation callback).run state =
      match Script.runExcept callback state with
      | (.ok a, draft) => (.ok (some a), draft)
      | (.error e, _) => (.error e, state) := by
  simp only [transactionOperation, Operation.run, Script.run_map, Script.runExcept]
  cases hr : callback.run.run state with
  | mk r draft => cases r <;> rfl

/-- The operations of the adapter that reach its queue. -/
inductive AdapterOperation : StorageOperation α → Prop
  | mutation {m : Mutation} (now : Rat) : m.check = .ok () → AdapterOperation (mutationOperation m now)
  | transaction (callback : Transaction α) : AdapterOperation (transactionOperation callback)

/-- A memory storage adapter that starts with a state. -/
def memoryStorageAdapter (α : Type) (initial : MemoryState) : System :=
  exclusive (AdapterOperation (α := α)) initial

theorem AdapterOperation.clean {operation : StorageOperation α} (h : AdapterOperation operation) :
    operation.Clean := by
  cases h with
  | @mutation m now hcheck =>
    intro s e s' hrun
    simp only [mutationOperation, Operation.run] at hrun
    cases happly : m.apply now s with
    | mk r s'' =>
      rw [happly] at hrun
      cases r with
      | ok _ => simp [Except.map] at hrun
      | error e' =>
        obtain rfl : s'' = s' := (Prod.mk.inj hrun).2
        exact Mutation.failed happly
  | transaction callback => exact Operation.clean_transaction _

/-- What holds of an adapter at every moment, against the operations one after the other. -/
structure Serializable (initial : MemoryState) (S : State MemoryState StorageError (Option α)) :
    Prop where
  /-- A read sees the state after the operations called first, and no draft. -/
  committed : ∃ k ≤ S.calls.length, S.shared = stateAfter initial (S.operations.take k) ∧
    ∀ i call r, S.calls[i]? = some call → call.stage.result? = some r → i < k
  /-- The results. -/
  results : ∀ i call r, S.calls[i]? = some call → call.stage.result? = some r →
    r = resultAfter initial (S.operations.take i) call.operation
  /-- When all have finished, the state is the one after all of them. -/
  final : (∀ call ∈ S.calls, ∃ r, call.stage = .finished r) →
    S.shared = stateAfter initial S.operations
  /-- An operation that fails leaves the state as it was before it. -/
  failed : ∀ i call e, S.calls[i]? = some call → call.stage.result? = some (.error e) →
    stateAfter initial (S.operations.take (i + 1)) = stateAfter initial (S.operations.take i)

/-- The adapter is serializable at every moment of every run, its state changes only when an
operation succeeds, and as long as one has not finished, some can go on. -/
theorem memoryStorage_serializable {initial : MemoryState}
    {S : State MemoryState StorageError (Option α)}
    (h : (memoryStorageAdapter α initial).Reach S) :
    Serializable initial S ∧
      (∀ S', (memoryStorageAdapter α initial).step S S' → S'.shared ≠ S.shared →
        ∃ (i : Nat) (call call' : Call MemoryState StorageError (Option α)) (a : Option α),
          S.calls[i]? = some call ∧ call.stage.result? = none ∧ S'.calls[i]? = some call' ∧
            call'.stage = .finishing (.ok a)) ∧
      ((∃ call ∈ S.calls, ∀ r, call.stage ≠ .finished r) →
        ∃ (i : Nat) (S' : State MemoryState StorageError (Option α)), advance S i = some S') := by
  have hclean : ∀ op ∈ S.operations, op.Clean := fun op hop => (kind_of_reach h op hop).clean
  obtain ⟨k, hk⟩ := serial_of_reach h
  have hended : ∀ i call r, S.calls[i]? = some call → call.stage.result? = some r →
      i < k ∧ r = resultAfter initial (S.operations.take i) call.operation := by
    intro i call r hi hr
    have hlt : i < k := by
      cases hstage : call.stage with
      | waiting => simp [hstage, Stage.result?] at hr
      | running _ _ => simp [hstage, Stage.result?] at hr
      | finishing _ => exact hk.finishing hi hstage
      | finished r' => exact hk.finished hi hstage
    have := hk.ended i call hi hlt
    rw [hr] at this
    exact ⟨hlt, Option.some.inj this⟩
  refine ⟨⟨?_, ?_, ?_, ?_⟩, ?_, ?_⟩
  · exact ⟨k, hk.le, hk.shared, fun i call r hi hr => (hended i call r hi hr).1⟩
  · exact fun i call r hi hr => (hended i call r hi hr).2
  · intro hall
    have hlen : S.operations.length ≤ k := by
      rw [State.operations, List.length_map]
      by_contra hlt
      have hcur := List.getElem?_eq_getElem (Nat.lt_of_not_le hlt)
      obtain ⟨r, hr⟩ := hall _ (List.getElem_mem (Nat.lt_of_not_le hlt))
      have := (hended k _ r hcur (by rw [hr]; rfl)).1
      omega
    rw [hk.shared, List.take_of_length_le hlen]
  · intro i call e hi hr
    have hop : S.operations[i]? = some call.operation := by simp [State.operations, hi]
    rw [List.take_add_one, hop, Option.toList_some, stateAfter_concat]
    have hresult := (hended i call _ hi hr).2
    refine hclean call.operation (List.mem_of_getElem? hop) _ e _ ?_
    rw [resultAfter] at hresult
    rw [hresult]
  · exact fun S' hs hne => shared_changed hclean hs hne
  · rintro ⟨call, hmem, hunfinished⟩
    obtain ⟨i, hi⟩ := List.mem_iff_getElem?.mp hmem
    exact Serial.progress ⟨k, hk⟩ hi hunfinished

/-- An adapter without event history, with no records. -/
def emptyStorage : MemoryState := ⟨.empty, some .empty, none⟩

def subordinateRecord (entityId : String) : SubordinateRecord where
  entityId := entityId
  jwks := .obj [("keys", .arr [])]
  createdAt := 1000
  updatedAt := 1000

/-- Two additions of one record are called before the first one runs. -/
def racingAdds : List (Move MemoryState StorageError (Option Unit)) :=
  let add := mutationOperation (.add (subordinateRecord "https://rp.example")) 1000
  [.invoke add, .invoke add, .advance 0, .advance 0, .advance 1, .advance 1]

theorem racingAdds_serializable : ∃ S, play { shared := emptyStorage } racingAdds = some S ∧
    S.shared.subordinates.keys = ["https://rp.example"] ∧
      (∃ call e, S.calls[1]? = some call ∧ call.stage = .finished (.error e)) ∧
        Serializable emptyStorage S := by
  refine ⟨_, rfl, by decide +kernel, ⟨_, _, rfl, rfl⟩, ?_⟩
  refine (memoryStorage_serializable (reach_play racingAdds (.init rfl) ?_ rfl)).1
  intro op hop
  simp only [racingAdds, List.mem_cons, Move.invoke.injEq, reduceCtorEq, or_false,
    List.not_mem_nil, or_self] at hop
  subst hop
  exact .mutation 1000 rfl

end OidFed
