import WspaceScout.DataPath.LockRefinement

/-!
# The locks are released

A section that has the queue lock may wait for an element lock, but a section that has an element
lock waits for nothing, so the threads that have locks can always go on. `LockState.work` bounds
how long: each of their steps decreases it, and as long as the queue lock is taken no other thread
adds to it.

## Main definitions

- `LockState.work` — the steps that are left to the threads that have a lock

## Main results

- `lockMachine_progress` — no deadlock, bounded critical sections, no lost wakeup
-/

namespace WspaceScout

open Foundation

/-- The steps of a section until it releases the queue lock; one more where it hands over to a
section under an element lock. -/
def QueueSection.passes : QueueSection → Nat
  | .acquireTailLock _ _ _ | .acquireCurrLock => 2
  | .bulkRelease ack index headPtFinal =>
    (headPtFinal - index) + (uint32Sub ack.endSeq 1 + 1 - headPtFinal) + 2
  | .ackLoop ack _ index _ => (uint32Sub ack.endSeq 1 + 1 - index) + 1
  | .timeOutLoop _ _ n _ => n + 1

theorem QueueSection.passes_pos (q : QueueSection) : 0 < q.passes := by
  cases q <;> simp [passes]

/-- The steps left to the threads that have a lock. -/
def LockState.work (s : LockState) : Nat := s.qlock.elim 0 QueueSection.passes + taken s.lockArr

/-- A step of a thread that has a lock. -/
def LockInput.isHolder : LockInput → Bool
  | .queueStep _ | .elementStep _ _ => true
  | _ => false

section Work

variable {ap : WspaceAP} {R : Nat} {s s' : LockState} {now : TIME} {k : Fin BUF_SIZE}

namespace LockState

theorem work_eq_zero : s.work = 0 ↔ s.qlock = none ∧ ∀ k, s.lockArr k = none := by
  unfold work
  rw [Nat.add_eq_zero_iff, taken_eq_zero]
  cases s.qlock with
  | none => simp
  | some q => simp [q.passes_pos.ne']

/-- The queue lock is released and an element lock is taken. -/
theorem work_handOver {q : QueueSection} {sec : ElementSection} (hq : s.qlock = some q)
    (hpasses : 1 < q.passes) (hk : s.lockArr k = none) (hq' : s'.qlock = none)
    (hlock : s'.lockArr = Function.update s.lockArr k (some sec)) : s'.work < s.work := by
  unfold work
  rw [hq, hq', hlock, taken_update_some hk]
  simp only [Option.elim_none, Option.elim_some]
  omega

/-- A section goes on under the queue lock. -/
theorem work_goesOn {q q' : QueueSection} (hq : s.qlock = some q) (hq' : s'.qlock = some q')
    (hlock : s'.lockArr = s.lockArr) (hlt : q'.passes < q.passes) : s'.work < s.work := by
  unfold work
  rw [hq, hq', hlock]
  exact Nat.add_lt_add_right hlt _

/-- The queue lock is released. -/
theorem work_released {q : QueueSection} (hq : s.qlock = some q) (hq' : s'.qlock = none)
    (hlock : s'.lockArr = s.lockArr) : s'.work < s.work := by
  unfold work
  rw [hq, hq', hlock]
  exact Nat.add_lt_add_right q.passes_pos _

/-- A step under the queue lock is one step less to go. -/
theorem runQueue_work {q : QueueSection} (hq : s.qlock = some q)
    (hfree : ∀ k ∈ q.next s.buf, s.lockArr k = none) (hrun : s.runQueue ap now q = .ok s') :
    s'.work < s.work := by
  cases q with
  | acquireTailLock p seqNum pkt =>
    cases hfull : s.buf.isFull with
    | true =>
      cases (runQueue_full hfull).symm.trans hrun
      exact work_released hq rfl rfl
    | false =>
      cases (runQueue_tail hfull).symm.trans hrun
      exact work_handOver hq (Nat.lt_succ_self 1)
        (hfree _ (by simp [QueueSection.next, hfull])) rfl rfl
  | acquireCurrLock =>
    cases hempty : s.buf.isEmpty with
    | true =>
      have hwait : s.runQueue ap now .acquireCurrLock =
        .ok { s.setQueue none with sender := .waiting false } := if_pos hempty
      cases hwait.symm.trans hrun
      exact work_released hq rfl rfl
    | false =>
      have hlock : s.runQueue ap now .acquireCurrLock = .ok s.lockCurr :=
        if_neg (by simp [hempty])
      cases hlock.symm.trans hrun
      exact work_handOver hq (Nat.lt_succ_self 1)
        (hfree _ (by simp [QueueSection.next, hempty])) rfl rfl
  | bulkRelease ack index headPtFinal =>
    by_cases hlt : index < headPtFinal
    · cases (if_pos hlt).symm.trans hrun
      refine work_goesOn hq rfl rfl ?_
      simp only [QueueSection.passes]
      omega
    · by_cases hnone : ack.nackArr = []
      · cases ((if_neg hlt).trans (if_pos hnone)).symm.trans hrun
        exact work_released hq rfl rfl
      · cases ((if_neg hlt).trans (if_neg hnone)).symm.trans hrun
        refine work_goesOn hq rfl rfl ?_
        simp only [QueueSection.passes]
        omega
  | ackLoop ack now' index l =>
    by_cases hle : index ≤ uint32Sub ack.endSeq 1
    · cases (if_pos hle).symm.trans hrun
      refine work_goesOn hq rfl rfl ?_
      simp only [QueueSection.passes]
      omega
    · cases (if_neg hle).symm.trans hrun
      exact work_released hq rfl rfl
  | timeOutLoop now' index n l =>
    cases n with
    | zero =>
      cases hrun
      exact work_released hq rfl rfl
    | succ n =>
      cases hvisit : TimeOutLoop.visit ap now' (l.on s.buf.bookKeepArr) index with
      | error e =>
        rw [runQueue_timeOut, hvisit] at hrun
        cases hrun
      | ok r =>
        rw [runQueue_timeOut, hvisit] at hrun
        cases hrun
        refine work_goesOn hq rfl rfl ?_
        simp only [QueueSection.passes]
        split <;> omega

/-- A section under an element lock takes one step. -/
theorem runElement_work {sec : ElementSection} (hsec : s.lockArr k = some sec)
    (hrun : s.runElement k now sec = .ok s') : s'.work < s.work := by
  have htaken : taken (Function.update s.lockArr k none) + 1 = taken s.lockArr :=
    taken_update_none (by simp [hsec])
  have hrest : s'.qlock = s.qlock ∧ s'.lockArr = Function.update s.lockArr k none := by
    cases sec with
    | storePkt p index seqNum pkt =>
      simp only [runElement] at hrun
      split at hrun
      · cases hrun
      · cases hrun
        exact ⟨rfl, rfl⟩
    | handOut index =>
      simp only [runElement] at hrun
      split at hrun
      · cases hrun
      · cases hrun
        exact ⟨rfl, rfl⟩
  unfold work
  rw [hrest.1, hrest.2]
  omega

/-- Every step of a thread that has a lock is one step less to go. -/
theorem work_lt {input : LockInput} (hen : enabledLock s input) (hholder : input.isHolder = true)
    (hexec : execLock ap s input = .ok s') : s'.work < s.work := by
  cases input with
  | queueStep now =>
    obtain ⟨q, hq, hfree⟩ := hen
    exact runQueue_work hq hfree ((execLock_queueStep hq).symm.trans hexec)
  | elementStep k now =>
    obtain ⟨sec, hsec⟩ := hen
    exact runElement_work hsec ((execLock_elementStep hsec).symm.trans hexec)
  | enqueuePkt | lockTail | lockCurr | wake | dataAck | timeOut => cases hholder

/-- While the queue lock is taken, the other threads leave the locks alone. -/
theorem work_eq {input : LockInput} {q : QueueSection} (hq : s.qlock = some q)
    (hen : enabledLock s input) (hother : input.isHolder = false)
    (hexec : execLock ap s input = .ok s') : s'.work = s.work := by
  cases input with
  | enqueuePkt p pkt =>
    cases hexec
    rfl
  | dataAck ack =>
    obtain ⟨-, hfree | ⟨hign, -⟩⟩ := hen
    · rw [hq] at hfree
      cases hfree
    · have hacc : s.client.accepts ack = false := by
        simp only [ClientContext.ignores, decide_eq_true_eq] at hign
        simp only [ClientContext.accepts, decide_eq_false_iff_not]
        omega
      simp only [execLock, hacc, Bool.false_eq_true, if_false, Except.ok.injEq] at hexec
      subst hexec
      rfl
  | lockTail | lockCurr | wake =>
    have hfree := hen.1
    rw [hq] at hfree
    cases hfree
  | timeOut now =>
    have hfree : s.qlock = none := hen
    rw [hq] at hfree
    cases hfree
  | queueStep | elementStep => cases hother

/-- Some thread that has a lock can go on. -/
theorem exists_holder (h : s.work ≠ 0) :
    ∃ input : LockInput, input.isHolder = true ∧ enabledLock s input := by
  by_cases hfree : ∀ k, s.lockArr k = none
  · cases hq : s.qlock with
    | none => exact absurd (work_eq_zero.mpr ⟨hq, hfree⟩) h
    | some q => exact ⟨.queueStep ⟨0, 0⟩, rfl, q, hq, fun k _ => hfree k⟩
  · obtain ⟨k, hk⟩ := not_forall.mp hfree
    obtain ⟨sec, hsec⟩ := Option.ne_none_iff_exists'.mp hk
    exact ⟨.elementStep k ⟨0, 0⟩, rfl, sec, hsec⟩

theorem inTurn_holder {input : LockInput} (h : input.isHolder = true) : s.InTurn input := by
  cases input with
  | lockTail p => cases h
  | enqueuePkt | lockCurr | wake | dataAck | timeOut | queueStep | elementStep => trivial

end LockState

/-- The threads that have a lock, from `s` on. -/
theorem holders_reachable {n : Nat}
    (hs : ((lockMachine ap R).restrict LockState.InTurn).Reachable s)
    (h : ((lockMachine ap R).restrict fun _ input => input.isHolder = true).Steps n s s') :
    ((lockMachine ap R).restrict LockState.InTurn).Reachable s' := by
  induction h with
  | refl => exact hs
  | step _ hen hexec ih => exact .step (ih hs) ⟨hen.1, LockState.inTurn_holder hen.2⟩ hexec

/-- As long as packets fit a slot, acks are well-formed and no call of `EnqueuePkt` is overtaken, from
every state reached, in whatever order the threads go on that have a lock, they take at most
`s.work` steps, until then one of them can go on without a fault, and after that no lock is taken.
While the queue lock is taken the other threads add nothing to `s.work`; and if `TxSendAth` waits
without a signal, there is nothing for it to dequeue. -/
theorem lockMachine_progress (ap : WspaceAP) (R : Nat) {s : LockState}
    (h : ((lockMachine ap R).restrict LockState.InTurn).Reachable s) :
    (∀ n s', ((lockMachine ap R).restrict fun _ input => input.isHolder = true).Steps n s s' →
      n + s'.work ≤ s.work ∧
      ((s'.qlock = none ∧ ∀ k, s'.lockArr k = none) ∨ ∃ input s'', input.isHolder = true ∧
        enabledLock s' input ∧ execLock ap s' input = .ok s'')) ∧
      (∀ input s' q, s.qlock = some q → enabledLock s input → input.isHolder = false →
        execLock ap s input = .ok s' → s'.work = s.work) ∧
      (s.sender = .waiting false → s.buf.isEmpty = true) := by
  refine ⟨fun n s' hsteps => ⟨?_, ?_⟩, fun input s' q hq hen hother hexec =>
    LockState.work_eq hq hen hother hexec, (lockInv_of_reachable h).waiting⟩
  · exact hsteps.bounded fun t input u hen hexec => LockState.work_lt hen.1 hen.2 hexec
  · by_cases hwork : s'.work = 0
    · exact .inl (LockState.work_eq_zero.mp hwork)
    · obtain ⟨input, hholder, hen⟩ := LockState.exists_holder hwork
      have hinv := lockInv_of_reachable (holders_reachable h hsteps)
      obtain ⟨s'', hexec, -⟩ := hinv.step hen (LockState.inTurn_holder hholder)
      exact .inr ⟨input, s'', hholder, hen, hexec⟩

/-- `TxSendAth` waits for a slot whose packet is not stored yet, but not for ever. -/
theorem lockMachine_progress_storing : ∃ s : LockState, s.qlock = some .acquireCurrLock ∧
    s.lockArr 0 = some (.storePkt .txRcvCell 0 1 [7]) ∧
    ∀ n s', ((lockMachine ⟨2, 20, 5⟩ 2).restrict fun _ input => input.isHolder = true).Steps n s s' →
      n + s'.work ≤ s.work := by
  obtain ⟨s, hs, -, hlock, hq⟩ := lock_storing
  exact ⟨s, hq, hlock, fun n s' hsteps => ((lockMachine_progress _ _ hs).1 n s' hsteps).1⟩

end Work

end WspaceScout
