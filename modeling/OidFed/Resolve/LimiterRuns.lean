import OidFed.Lib.System
import OidFed.Resolve.Limiter

/-!
# A limiter, its calls and an abort (`createConcurrencyLimiter` of `core/src/trust-chain/resolve.ts`)

The calls of a limiter come, resume, settle and are rejected in any order; an abort comes at any
moment, or never. `LimiterState` is the state of a limiter with its signal, and every call by where
it is. A call that gets a slot resumes later, whether it had to wait for the slot or not.

* `LimiterState.call`, `resume`, `settle`, `abort`: the code between two awaits. The listener that
  rejects the queue is there only while somebody waits.
* `Orderly`: the invariant. Every call is in one place; what has been rejected has not run.
* `limiter_orderly`: what holds in every reachable state.
-/

namespace OidFed

variable {ι : Type}

structure LimiterState (ι : Type) where
  limiter : Limiter ι := {}
  /-- `signal?.aborted`. -/
  aborted : Bool := false
  /-- `onAbort` listens. -/
  listening : Bool := false
  calls : List ι := []
  /-- The calls whose function has been called. -/
  started : List ι := []
  /-- The calls whose function has settled, and whether it was fulfilled. -/
  settled : List (ι × Bool) := []
  rejected : List ι := []

namespace LimiterState

/-- The limiter is called. -/
def call (maxConcurrent : ℕ+) (S : LimiterState ι) (id : ι) : LimiterState ι :=
  if S.aborted then { S with calls := S.calls ++ [id], rejected := S.rejected ++ [id] }
  else
    { S with
      limiter := S.limiter.acquire maxConcurrent id
      calls := S.calls ++ [id]
      listening :=
        -- the first that waits adds the listener
        if S.limiter.active < maxConcurrent then S.listening
        else S.listening || S.limiter.queue.isEmpty }

/-- The listener is taken off when nobody waits after a slot has been released. -/
def releaseListens (S : LimiterState ι) : Bool := S.listening && !S.limiter.queue.tail.isEmpty

/-- A call with a slot goes on: it calls its function, or throws after an abort. -/
def resume [DecidableEq ι] (S : LimiterState ι) (id : ι) : LimiterState ι :=
  if S.aborted then
    { S with
      limiter := S.limiter.refuse id
      listening := S.releaseListens
      rejected := S.rejected ++ [id] }
  else
    { S with
      limiter := S.limiter.resume id
      started := S.started ++ [id] }

/-- The function of a call has settled. -/
def settle [DecidableEq ι] (S : LimiterState ι) (id : ι) (fulfilled : Bool) : LimiterState ι :=
  { S with
    limiter := S.limiter.finish id
    listening := S.releaseListens
    settled := S.settled ++ [(id, fulfilled)] }

/-- The signal aborts, and calls the listener. -/
def abort (S : LimiterState ι) : LimiterState ι :=
  if S.listening then
    { S with
      aborted := true
      limiter := S.limiter.abort
      listening := false
      rejected := S.rejected ++ S.limiter.queue }
  else { S with aborted := true }

end LimiterState

/-- One step of a limiter and its calls. -/
inductive LimiterStep [DecidableEq ι] (maxConcurrent : ℕ+) (S : LimiterState ι) :
    LimiterState ι → Prop
  | call (id : ι) : id ∉ S.calls → LimiterStep maxConcurrent S (S.call maxConcurrent id)
  | resume (id : ι) : id ∈ S.limiter.granted → LimiterStep maxConcurrent S (S.resume id)
  | settle (id : ι) (fulfilled : Bool) : id ∈ S.limiter.running →
      LimiterStep maxConcurrent S (S.settle id fulfilled)
  | abort : S.aborted = false → LimiterStep maxConcurrent S S.abort

/-- A limiter that has been created, with a signal that may be aborted already. -/
def concurrencyLimiter (ι : Type) [DecidableEq ι] (maxConcurrent : ℕ+) : System where
  St := LimiterState ι
  init S := ∃ aborted, S = { aborted }
  step := LimiterStep maxConcurrent

namespace LimiterState

/-- The calls that have not ended. -/
def unfinished (S : LimiterState ι) : List ι :=
  S.limiter.queue ++ (S.limiter.granted ++ S.limiter.running)

/-- The calls that have ended. -/
def ended (S : LimiterState ι) : List ι := S.settled.map Prod.fst ++ S.rejected

end LimiterState

/-- No slot is lost or given twice, and every call is in one place. -/
structure Orderly (maxConcurrent : ℕ+) (S : LimiterState ι) : Prop where
  sound : S.limiter.Sound maxConcurrent
  listens : S.limiter.queue ≠ [] → S.listening = true
  quiet : S.aborted = true → S.limiter.queue = []
  placed : (S.unfinished ++ S.ended).Perm S.calls
  nodup : S.calls.Nodup
  started : ∀ id, id ∈ S.started ↔ id ∈ S.limiter.running ∨ id ∈ S.settled.map Prod.fst

/-! ## Where the calls are -/

section Places

variable [DecidableEq ι] {maxConcurrent : ℕ+} {l : Limiter ι} {id : ι}

/-- A slot that is handed on moves a call from the queue. -/
theorem count_release (x : ι) :
    l.release.queue.count x + (l.release.granted.count x + l.release.running.count x) =
      l.queue.count x + (l.granted.count x + l.running.count x) := by
  unfold Limiter.release
  split
  · rename_i next rest hqueue
    rw [hqueue]
    simp only [List.count_append, List.count_cons, List.count_nil]
    omega
  · rfl

theorem count_acquire (x : ι) :
    (l.acquire maxConcurrent id).queue.count x + ((l.acquire maxConcurrent id).granted.count x +
      (l.acquire maxConcurrent id).running.count x) =
      l.queue.count x + (l.granted.count x + l.running.count x) + [id].count x := by
  unfold Limiter.acquire
  split <;> simp only [List.count_append] <;> omega

theorem count_erase_add (x : ι) {m : List ι} (h : id ∈ m) :
    (m.erase id).count x + [id].count x = m.count x := by
  have hperm := (List.perm_cons_erase h).count_eq x
  rw [hperm]
  simp only [List.count_cons, List.count_nil]
  omega

theorem count_refuse (x : ι) (h : id ∈ l.granted) :
    (l.refuse id).queue.count x + ((l.refuse id).granted.count x +
      (l.refuse id).running.count x) + [id].count x =
      l.queue.count x + (l.granted.count x + l.running.count x) := by
  have hrelease := count_release (l := { l with granted := l.granted.erase id }) x
  have herase := count_erase_add x h
  simp only at hrelease
  simp only [Limiter.refuse]
  omega

theorem count_finish (x : ι) (h : id ∈ l.running) :
    (l.finish id).queue.count x + ((l.finish id).granted.count x +
      (l.finish id).running.count x) + [id].count x =
      l.queue.count x + (l.granted.count x + l.running.count x) := by
  have hrelease := count_release (l := { l with running := l.running.erase id }) x
  have herase := count_erase_add x h
  simp only at hrelease
  simp only [Limiter.finish]
  omega

/-- What a released slot leaves of the queue. -/
theorem queue_release {α : Type} (l : Limiter α) : l.release.queue = l.queue.tail := by
  unfold Limiter.release
  split
  · rename_i next rest hqueue
    rw [hqueue, List.tail_cons]
  · rename_i hqueue
    rw [hqueue, List.tail_nil]

end Places

section Steps

variable {maxConcurrent : ℕ+} {S : LimiterState ι} {id : ι}

theorem orderly_init (aborted : Bool) :
    Orderly maxConcurrent ({ aborted } : LimiterState ι) :=
  ⟨Limiter.sound_init, fun h => absurd rfl h, fun _ => rfl, .refl _, .nil, by simp⟩

theorem Orderly.mem_calls (h : Orderly maxConcurrent S)
    (hid : id ∈ S.limiter.queue ++ (S.limiter.granted ++ S.limiter.running)) : id ∈ S.calls :=
  h.placed.subset (List.mem_append_left _ hid)

theorem releaseListens_of (h : Orderly maxConcurrent S) (hqueue : S.limiter.queue.tail ≠ []) :
    S.releaseListens = true := by
  have hne : S.limiter.queue ≠ [] := by
    intro hnil
    simp [hnil] at hqueue
  simp [LimiterState.releaseListens, h.listens hne, hqueue]

variable [DecidableEq ι]

/-- A place of each call, counted. -/
theorem Orderly.count (h : Orderly maxConcurrent S) (x : ι) :
    S.limiter.queue.count x + (S.limiter.granted.count x + S.limiter.running.count x) +
      ((S.settled.map Prod.fst).count x + S.rejected.count x) = S.calls.count x := by
  have hcount := h.placed.count_eq x
  simpa only [LimiterState.unfinished, LimiterState.ended, List.count_append] using hcount

theorem Orderly.call (h : Orderly maxConcurrent S) (hid : id ∉ S.calls) :
    Orderly maxConcurrent (S.call maxConcurrent id) := by
  have hnodup : (S.calls ++ [id]).Nodup :=
    List.nodup_append.mpr ⟨h.nodup, List.nodup_singleton id, by
      intro a ha b hb
      obtain rfl := List.mem_singleton.mp hb
      rintro rfl
      exact hid ha⟩
  unfold LimiterState.call
  split
  · refine ⟨h.sound, h.listens, h.quiet, List.perm_iff_count.mpr fun x => ?_, hnodup, h.started⟩
    have hcount := h.count x
    simp only [LimiterState.unfinished, LimiterState.ended, List.count_append]
    omega
  · rename_i haborted
    refine ⟨h.sound.acquire fun hmem => hid (h.mem_calls hmem), fun hqueue => ?_, fun hab => ?_,
      List.perm_iff_count.mpr fun x => ?_, hnodup, fun x => ?_⟩
    · -- a queue that was empty gets its listener with the first call
      by_cases hactive : S.limiter.active < maxConcurrent
      · have hsame : S.limiter.queue ≠ [] := by
          simpa only [Limiter.acquire, if_pos hactive] using hqueue
        simp only [if_pos hactive]
        exact h.listens hsame
      · simp only [if_neg hactive, Bool.or_eq_true, List.isEmpty_iff]
        by_cases hempty : S.limiter.queue = []
        · exact .inr hempty
        · exact .inl (h.listens hempty)
    · exact absurd hab haborted
    · have hcount := h.count x
      have hacquire : (S.limiter.acquire maxConcurrent id).queue.count x +
          ((S.limiter.acquire maxConcurrent id).granted.count x +
            (S.limiter.acquire maxConcurrent id).running.count x) =
          S.limiter.queue.count x + (S.limiter.granted.count x + S.limiter.running.count x) +
            [id].count x := count_acquire x
      simp only [LimiterState.unfinished, LimiterState.ended, List.count_append]
      omega
    · simp only [Limiter.running_acquire]
      exact h.started x

theorem Orderly.resume (h : Orderly maxConcurrent S) (hid : id ∈ S.limiter.granted) :
    Orderly maxConcurrent (S.resume id) := by
  unfold LimiterState.resume
  split
  · rename_i haborted
    refine ⟨h.sound.refuse hid, fun hqueue => ?_, fun _ => ?_, List.perm_iff_count.mpr fun x => ?_,
      h.nodup, fun x => ?_⟩
    · rw [Limiter.refuse, queue_release] at hqueue
      exact releaseListens_of h hqueue
    · simp only [Limiter.refuse, queue_release, h.quiet haborted, List.tail_nil]
    · have hcount := h.count x
      have hrefuse := count_refuse x hid
      simp only [LimiterState.unfinished, LimiterState.ended, List.count_append]
      omega
    · simp only [Limiter.refuse, Limiter.running_release]
      exact h.started x
  · refine ⟨h.sound.resume hid, h.listens, h.quiet, List.perm_iff_count.mpr fun x => ?_, h.nodup,
      fun x => ?_⟩
    · have hcount := h.count x
      have herase := count_erase_add x hid
      simp only [LimiterState.unfinished, LimiterState.ended, List.count_append, Limiter.resume]
      omega
    · simp only [Limiter.resume, List.mem_append, List.mem_singleton, h.started x]
      tauto

theorem Orderly.settle (h : Orderly maxConcurrent S) (hid : id ∈ S.limiter.running)
    (fulfilled : Bool) : Orderly maxConcurrent (S.settle id fulfilled) := by
  refine ⟨h.sound.finish hid, fun hqueue => ?_, fun haborted => ?_,
    List.perm_iff_count.mpr fun x => ?_, h.nodup, fun x => ?_⟩
  · rw [LimiterState.settle, Limiter.finish, queue_release] at hqueue
    exact releaseListens_of h hqueue
  · simp only [LimiterState.settle, Limiter.finish, queue_release, h.quiet haborted, List.tail_nil]
  · have hcount := h.count x
    have hfinish := count_finish x hid
    simp only [LimiterState.unfinished, LimiterState.ended, LimiterState.settle, List.count_append,
      List.map_append, List.map_cons, List.map_nil]
    omega
  · -- each call runs once: what has settled does not run any more
    have hnodup : S.limiter.running.Nodup := by
      have := h.sound.nodup
      exact (List.nodup_append.mp (List.nodup_append.mp this).2.1).2.1
    simp only [LimiterState.settle, Limiter.finish, Limiter.running_release, hnodup.mem_erase_iff,
      List.map_append, List.map_cons, List.map_nil, List.mem_append, List.mem_singleton, h.started x]
    by_cases hx : x = id
    · subst hx
      simp [hid]
    · simp [hx]

theorem Orderly.abort (h : Orderly maxConcurrent S) : Orderly maxConcurrent S.abort := by
  unfold LimiterState.abort
  split
  · refine ⟨h.sound.abort, fun hqueue => absurd rfl hqueue, fun _ => rfl,
      List.perm_iff_count.mpr fun x => ?_, h.nodup, h.started⟩
    have hcount := h.count x
    simp only [LimiterState.unfinished, LimiterState.ended, Limiter.abort, List.count_append,
      List.count_nil]
    omega
  · rename_i hlistening
    have hqueue : S.limiter.queue = [] := by
      by_contra hne
      exact hlistening (h.listens hne)
    exact ⟨h.sound, h.listens, fun _ => hqueue, h.placed, h.nodup, h.started⟩

theorem Orderly.step {S' : LimiterState ι} (h : Orderly maxConcurrent S)
    (hstep : LimiterStep maxConcurrent S S') : Orderly maxConcurrent S' := by
  cases hstep with
  | call id hid => exact h.call hid
  | resume id hid => exact h.resume hid
  | settle id fulfilled hid => exact h.settle hid fulfilled
  | abort => exact h.abort

end Steps

/-! ## Runs -/

theorem abort_aborted (S : LimiterState ι) : S.abort.aborted = true := by
  unfold LimiterState.abort
  split <;> rfl

theorem abort_started (S : LimiterState ι) : S.abort.started = S.started := by
  unfold LimiterState.abort
  split <;> rfl

section Runs

variable [DecidableEq ι] {maxConcurrent : ℕ+} {S S' : LimiterState ι}

theorem orderly_of_reach (h : (concurrencyLimiter ι maxConcurrent).Reach S) :
    Orderly maxConcurrent S :=
  System.Reach.invariant (S := concurrencyLimiter ι maxConcurrent) (I := Orderly maxConcurrent)
    (fun _ ⟨aborted, hinit⟩ => hinit ▸ orderly_init aborted) (fun _ _ hI hstep => hI.step hstep) h

/-- Who has been rejected stays so. -/
theorem rejected_step (h : LimiterStep maxConcurrent S S') {id : ι} (hid : id ∈ S.rejected) :
    id ∈ S'.rejected := by
  cases h with
  | call x _ =>
    unfold LimiterState.call
    split
    · exact List.mem_append_left _ hid
    · exact hid
  | resume x _ =>
    unfold LimiterState.resume
    split
    · exact List.mem_append_left _ hid
    · exact hid
  | settle x fulfilled _ => exact hid
  | abort _ =>
    unfold LimiterState.abort
    split
    · exact List.mem_append_left _ hid
    · exact hid

/-- After an abort no function is called any more. -/
theorem started_step (h : LimiterStep maxConcurrent S S') (haborted : S.aborted = true) :
    S'.aborted = true ∧ S'.started = S.started := by
  cases h with
  | call x _ => simp only [LimiterState.call, haborted, if_true, and_self]
  | resume x _ => simp only [LimiterState.resume, haborted, if_true, and_self]
  | settle x fulfilled _ => exact ⟨haborted, rfl⟩
  | abort hnot => simp [haborted] at hnot

/-- After an abort, whatever happens: those that waited are rejected, and nothing has started
since. -/
theorem after_abort (h : Orderly maxConcurrent S)
    (hlater : (concurrencyLimiter ι maxConcurrent).Later S.abort S') :
    S'.started = S.started ∧ ∀ id ∈ S.limiter.queue, id ∈ S'.rejected := by
  have hrejected : ∀ id ∈ S.limiter.queue, id ∈ S.abort.rejected := by
    intro id hid
    have hlistening : S.listening = true := h.listens (List.ne_nil_of_mem hid)
    simp only [LimiterState.abort, hlistening, if_true]
    exact List.mem_append_right _ hid
  have hkeeps := System.Later.keeps (S := concurrencyLimiter ι maxConcurrent)
    (I := fun T : LimiterState ι => T.aborted = true ∧ T.started = S.started ∧
      ∀ id ∈ S.limiter.queue, id ∈ T.rejected)
    (fun T T' hT hstep => by
      obtain ⟨haborted, hstarted⟩ := started_step hstep hT.1
      exact ⟨haborted, hstarted.trans hT.2.1, fun id hid =>
        rejected_step hstep (hT.2.2 id hid)⟩)
    ⟨abort_aborted S, abort_started S, hrejected⟩ hlater
  exact hkeeps.2

/-- In every reachable state at most `maxConcurrent` functions run; the slots that are counted are
those of functions that run and those given to calls that have not resumed; somebody waits only
while all slots are taken; every call is in exactly one place; and after an abort nobody waits,
and whoever waited is rejected without its function being called. -/
theorem limiter_orderly (h : (concurrencyLimiter ι maxConcurrent).Reach S) :
    S.limiter.running.length ≤ maxConcurrent ∧
      S.limiter.active = S.limiter.running.length + S.limiter.granted.length ∧
      (S.limiter.queue ≠ [] → S.limiter.active = maxConcurrent) ∧
      ((S.unfinished ++ S.ended).Nodup ∧ ∀ id, id ∈ S.unfinished ++ S.ended ↔ id ∈ S.calls) ∧
      (S.aborted = true → S.limiter.queue = []) ∧
      ∀ S', (concurrencyLimiter ι maxConcurrent).Later S.abort S' →
        S'.started = S.started ∧
          ∀ id ∈ S.limiter.queue, id ∈ S'.rejected ∧ id ∉ S'.started := by
  have horderly := orderly_of_reach h
  have hactive := horderly.sound.active_eq
  have hle := horderly.sound.le
  refine ⟨by omega, by omega, horderly.sound.full,
    ⟨(horderly.placed.nodup_iff).mpr horderly.nodup, fun id => horderly.placed.mem_iff⟩,
    horderly.quiet, fun S' hlater => ?_⟩
  obtain ⟨hstarted, hrejected⟩ := after_abort horderly hlater
  refine ⟨hstarted, fun id hid => ⟨hrejected id hid, ?_⟩⟩
  rw [hstarted, horderly.started id]
  have hnodup := horderly.sound.nodup
  obtain ⟨-, hrest, hdisjoint⟩ := List.nodup_append.mp hnodup
  rintro (hrunning | hsettled)
  · exact hdisjoint id hid id (List.mem_append_right _ hrunning) rfl
  · have hall := (horderly.placed.nodup_iff).mpr horderly.nodup
    obtain ⟨-, -, hapart⟩ := List.nodup_append.mp hall
    exact hapart id (List.mem_append_left _ hid) id (List.mem_append_left _ hsettled) rfl

end Runs

/-- One slot, and a second call that waits for it. -/
def waitingLimiter (maxConcurrent : ℕ+ := 1) : LimiterState Nat :=
  ((({} : LimiterState Nat).call maxConcurrent 0).resume 0).call maxConcurrent 1

theorem waitingLimiter_reach : (concurrencyLimiter Nat 1).Reach waitingLimiter := by
  have hinit : (concurrencyLimiter Nat 1).Reach ({} : LimiterState Nat) := .init ⟨false, rfl⟩
  have hcall : LimiterStep 1 ({} : LimiterState Nat) (({} : LimiterState Nat).call 1 0) :=
    .call 0 (by decide)
  have hfirst := hinit.step hcall
  have hresumed := hfirst.step (LimiterStep.resume 0 (by decide))
  exact hresumed.step (LimiterStep.call 1 (by decide))

/-- The call that waits is rejected by an abort. -/
theorem waitingLimiter_orderly :
    waitingLimiter.limiter.queue = [1] ∧ ∀ S', (concurrencyLimiter Nat 1).Later
      waitingLimiter.abort S' → 1 ∈ S'.rejected ∧ 1 ∉ S'.started := by
  obtain ⟨-, -, -, -, -, habort⟩ := limiter_orderly waitingLimiter_reach
  exact ⟨by decide, fun S' hlater => (habort S' hlater).2 1 (by decide)⟩

end OidFed
