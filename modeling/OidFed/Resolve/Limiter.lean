import Mathlib.Data.List.Nodup
import Mathlib.Data.PNat.Basic

/-!
# The concurrency limiter (`createConcurrencyLimiter` of `core/src/trust-chain/resolve.ts`)

A call takes a slot or waits in the queue. When a call ends, its slot goes to the first waiter at
once; the waiter resumes later. An abort rejects all that wait.

The source has `active` and `queue`. `granted` are the calls that have a slot and have not resumed,
`running` those whose function runs; they only say where a call is.

* `Sound`: no slot is lost or given twice, and nobody waits while a slot is free. Every operation
  keeps it.
* `Sound.progress`: while somebody waits, somebody has a slot.
-/

namespace OidFed

variable {ι : Type}

structure Limiter (ι : Type) where
  active : Nat := 0
  queue : List ι := []
  granted : List ι := []
  running : List ι := []

namespace Limiter

/-- `acquire()`, when there has been no abort. -/
def acquire (maxConcurrent : ℕ+) (l : Limiter ι) (id : ι) : Limiter ι :=
  if l.active < maxConcurrent then { l with active := l.active + 1, granted := l.granted ++ [id] }
  else { l with queue := l.queue ++ [id] }

/-- A call with a slot goes on with its function. -/
def resume [DecidableEq ι] (l : Limiter ι) (id : ι) : Limiter ι :=
  { l with granted := l.granted.erase id, running := l.running ++ [id] }

/-- The slot goes to the first waiter, or is free. -/
def release (l : Limiter ι) : Limiter ι :=
  match l.queue with
  | next :: rest => { l with queue := rest, granted := l.granted ++ [next] }
  | [] => { l with active := l.active - 1 }

/-- The function of a call has settled. -/
def finish [DecidableEq ι] (l : Limiter ι) (id : ι) : Limiter ι :=
  release { l with running := l.running.erase id }

/-- A call with a slot resumes after an abort. -/
def refuse [DecidableEq ι] (l : Limiter ι) (id : ι) : Limiter ι :=
  release { l with granted := l.granted.erase id }

/-- All waiters are rejected. -/
def abort (l : Limiter ι) : Limiter ι := { l with queue := [] }

/-! ## Slots -/

structure Sound (maxConcurrent : ℕ+) (l : Limiter ι) : Prop where
  active_eq : l.active = l.granted.length + l.running.length
  le : l.active ≤ maxConcurrent
  full : l.queue ≠ [] → l.active = maxConcurrent
  nodup : (l.queue ++ (l.granted ++ l.running)).Nodup

variable {maxConcurrent : ℕ+} {l : Limiter ι} {id : ι}

theorem sound_init : Sound maxConcurrent ({} : Limiter ι) :=
  ⟨rfl, Nat.zero_le _, fun h => absurd rfl h, .nil⟩

/-- While somebody waits, somebody has a slot. -/
theorem Sound.progress (h : l.Sound maxConcurrent) (hq : l.queue ≠ []) :
    l.granted ≠ [] ∨ l.running ≠ [] := by
  by_contra hnone
  simp only [not_or, not_not] at hnone
  have hactive := h.active_eq
  rw [hnone.1, hnone.2, h.full hq, List.length_nil] at hactive
  have hpos := maxConcurrent.pos
  omega

/-- A released slot, of a call that is not counted any more. -/
theorem sound_release (hactive : l.active = l.granted.length + l.running.length + 1)
    (hle : l.active ≤ maxConcurrent) (hfull : l.queue ≠ [] → l.active = maxConcurrent)
    (hnodup : (l.queue ++ (l.granted ++ l.running)).Nodup) : l.release.Sound maxConcurrent := by
  unfold release
  split
  · rename_i next rest hqueue
    rw [hqueue] at hfull hnodup
    refine ⟨?_, hle, fun _ => hfull (by simp), ?_⟩
    · simp only [List.length_append, List.length_singleton]
      omega
    · refine (List.Perm.nodup_iff ?_).mp hnodup
      rw [List.cons_append]
      refine List.perm_middle.symm.trans (List.Perm.append_left rest ?_)
      rw [List.append_assoc]
      exact List.perm_middle.symm
  · rename_i hqueue
    refine ⟨?_, ?_, fun h => absurd hqueue h, hnodup⟩
    · simp only
      omega
    · simp only
      omega

theorem Sound.acquire (h : l.Sound maxConcurrent)
    (hnew : id ∉ l.queue ++ (l.granted ++ l.running)) :
    (l.acquire maxConcurrent id).Sound maxConcurrent := by
  have hcons : (id :: (l.queue ++ (l.granted ++ l.running))).Nodup :=
    List.nodup_cons.mpr ⟨hnew, h.nodup⟩
  unfold Limiter.acquire
  split
  · rename_i hlt
    refine ⟨?_, hlt, fun hq => ?_, ?_⟩
    · simp only [List.length_append, List.length_singleton]
      have := h.active_eq
      omega
    · have := h.full hq
      omega
    · refine (List.Perm.nodup_iff ?_).mp hcons
      refine List.perm_middle.symm.trans (List.Perm.append_left l.queue ?_)
      rw [List.append_assoc]
      exact List.perm_middle.symm
  · rename_i hge
    refine ⟨h.active_eq, h.le, fun _ => ?_, ?_⟩
    · have := h.le
      simp only
      omega
    · refine (List.Perm.nodup_iff ?_).mp hcons
      simp only
      rw [List.append_assoc]
      exact List.perm_middle.symm

theorem Sound.resume [DecidableEq ι] (h : l.Sound maxConcurrent) (hid : id ∈ l.granted) :
    (l.resume id).Sound maxConcurrent := by
  refine ⟨?_, h.le, h.full, ?_⟩
  · simp only [Limiter.resume, List.length_append, List.length_singleton,
      List.length_erase_of_mem hid]
    have hpos := List.length_pos_of_mem hid
    have := h.active_eq
    omega
  · refine (List.Perm.nodup_iff (List.Perm.append_left l.queue ?_)).mp h.nodup
    simp only [Limiter.resume]
    rw [← List.append_assoc]
    refine ((List.perm_cons_erase hid).append_right l.running).trans ?_
    rw [List.cons_append]
    exact (List.perm_append_singleton id _).symm

theorem Sound.finish [DecidableEq ι] (h : l.Sound maxConcurrent) (hid : id ∈ l.running) :
    (l.finish id).Sound maxConcurrent := by
  refine sound_release ?_ h.le h.full ?_
  · simp only [List.length_erase_of_mem hid]
    have hpos := List.length_pos_of_mem hid
    have := h.active_eq
    omega
  · refine h.nodup.sublist (List.Sublist.append_left (List.Sublist.append_left ?_ _) _)
    exact List.erase_sublist

theorem Sound.refuse [DecidableEq ι] (h : l.Sound maxConcurrent) (hid : id ∈ l.granted) :
    (l.refuse id).Sound maxConcurrent := by
  refine sound_release ?_ h.le h.full ?_
  · simp only [List.length_erase_of_mem hid]
    have hpos := List.length_pos_of_mem hid
    have := h.active_eq
    omega
  · refine h.nodup.sublist (List.Sublist.append_left (List.Sublist.append_right ?_ _) _)
    exact List.erase_sublist

theorem Sound.abort (h : l.Sound maxConcurrent) : l.abort.Sound maxConcurrent :=
  ⟨h.active_eq, h.le, fun hq => absurd rfl hq, (List.nodup_append.mp h.nodup).2.1⟩

/-! ## Where a call is -/

/-- A call waits, or has a slot and has not resumed. -/
def Pending (l : Limiter ι) (id : ι) : Prop := id ∈ l.queue ∨ id ∈ l.granted

theorem pending_release {x : ι} : l.release.Pending x ↔ l.Pending x := by
  unfold release Pending
  split
  · rename_i next rest hqueue
    simp only [hqueue, List.mem_append, List.mem_cons]
    tauto
  · simp

theorem running_release : l.release.running = l.running := by
  unfold release
  split <;> rfl

theorem pending_acquire {x : ι} :
    (l.acquire maxConcurrent id).Pending x ↔ l.Pending x ∨ x = id := by
  unfold acquire Pending
  split
  · simp only [List.mem_append, List.mem_singleton, or_assoc]
  · simp only [List.mem_append, List.mem_singleton]
    tauto

theorem running_acquire : (l.acquire maxConcurrent id).running = l.running := by
  unfold acquire
  split <;> rfl

section Places

variable [DecidableEq ι]

/-- A call resumes once. -/
theorem Sound.pending_erase (h : l.Sound maxConcurrent) (hid : id ∈ l.granted) {x : ι} :
    x ∈ l.queue ∨ x ∈ l.granted.erase id ↔ l.Pending x ∧ x ≠ id := by
  obtain ⟨-, hrest, hdisjoint⟩ := List.nodup_append.mp h.nodup
  have hgranted : l.granted.Nodup := (List.nodup_append.mp hrest).1
  have hqueue : x ∈ l.queue → x ≠ id := by
    rintro hx rfl
    exact hdisjoint _ hx _ (List.mem_append_left _ hid) rfl
  rw [hgranted.mem_erase_iff, Pending]
  tauto

theorem Sound.pending_resume (h : l.Sound maxConcurrent) (hid : id ∈ l.granted) {x : ι} :
    (l.resume id).Pending x ↔ l.Pending x ∧ x ≠ id := h.pending_erase hid

theorem Sound.pending_refuse (h : l.Sound maxConcurrent) (hid : id ∈ l.granted) {x : ι} :
    (l.refuse id).Pending x ↔ l.Pending x ∧ x ≠ id := by
  rw [Limiter.refuse, pending_release]
  exact h.pending_erase hid

theorem mem_running_resume {x : ι} : x ∈ (l.resume id).running ↔ x ∈ l.running ∨ x = id := by
  simp [Limiter.resume]

theorem running_refuse : (l.refuse id).running = l.running := running_release

theorem pending_finish {x : ι} : (l.finish id).Pending x ↔ l.Pending x := by
  rw [Limiter.finish, pending_release]
  rfl

theorem Sound.mem_running_finish (h : l.Sound maxConcurrent) {x : ι} :
    x ∈ (l.finish id).running ↔ x ∈ l.running ∧ x ≠ id := by
  have hrunning : l.running.Nodup :=
    (List.nodup_append.mp (List.nodup_append.mp h.nodup).2.1).2.1
  rw [Limiter.finish, running_release, hrunning.mem_erase_iff]
  tauto

end Places

end Limiter

end OidFed
