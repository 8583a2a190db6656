import WspaceScout.DataPath.LockSettled

/-!
# The locks make the operations atomic

Every interleaving of the lock sections of `EnqueuePkt`, `DequeuePkt`, `HandleDataAck` and
`HandleTimeOut` amounts to a run of the atomic operations: the enqueuing and the dequeuing threads
take effect when they move their cursor, the handlers when they write theirs back. In between, what
a handler has yet to do to the settled slots is what the whole handler does to the atomic state.

## Main definitions

- `LockState.Stands` — the simulation between the lock sections and the atomic operations
- `LockInv` — the invariant

## Main results

- `LockInv.step` — the step lemma
- `lockMachine_refines` — runs of the lock sections are runs of the atomic operations
-/

namespace WspaceScout

open Foundation

/-! ### What is left of a handler -/

/-- Overwrite the slots of a client. -/
def ClientContext.setArr (c : ClientContext) (arr : CellRing BUF_SIZE BookKeeping) :
    ClientContext :=
  { c with dataPktBuf := { c.dataPktBuf with bookKeepArr := arr } }

/-- The client after a handler. -/
def ClientContext.commit (c : ClientContext) (arr : CellRing BUF_SIZE BookKeeping)
    (headPtFinal currPtFinal : Nat) : ClientContext :=
  { c with dataPktBuf := moveCursors c.dataPktBuf arr headPtFinal currPtFinal }

/-- The client after the main loop of `HandleDataAck`. -/
def AckLoop.commit (s : AckLoop) (c : ClientContext) : ClientContext :=
  c.commit s.bookKeepArr s.headPtFinal s.currPtFinal

/-- `HandleDataAck` from pass `index` of its main loop on. -/
def finishAck (ap : WspaceAP) (now : TIME) (c : ClientContext) (ack : DataAck) (index : Nat)
    (l : AckLocals) : ClientContext :=
  ((List.range' index (uint32Sub ack.endSeq 1 + 1 - index)).foldl (AckLoop.visit ap now)
    (l.on c.dataPktBuf.bookKeepArr)).commit c

/-- `HandleDataAck` from pass `index` of the bulk release on. -/
def finishBulk (ap : WspaceAP) (now : TIME) (c : ClientContext) (ack : DataAck)
    (index headPtFinal : Nat) : ClientContext :=
  let b := c.dataPktBuf
  let arr := bulkRelease b.bookKeepArr index headPtFinal
  if ack.nackArr = [] then c.commit arr headPtFinal b.currPt
  else
    finishAck ap now (c.setArr arr) ack headPtFinal
      ⟨headPtFinal, b.currPt, true, skipStale b.headPt ack.nackArr⟩

/-- The counter of `HandleTimeOut`. -/
def countTimeOut (ap : WspaceAP) (c : ClientContext) (incrementTimeOut : Bool) : ClientContext :=
  let cnt :=
    if incrementTimeOut then wrapInt32 (c.contiguousTimeOut + 1)
    else if c.contiguousTimeOut < ap.maxContiguousTimeOut then 0
    else c.contiguousTimeOut
  { c with contiguousTimeOut := if cnt ≥ ap.maxContiguousTimeOut then 0 else cnt }

/-- `HandleTimeOut` with `n` passes of its loop left. -/
def finishTimeOut (ap : WspaceAP) (now : TIME) (c : ClientContext) (index n : Nat)
    (l : TimeOutLocals) : Except Fault ClientContext :=
  (countUp (TimeOutLoop.visit ap now) index n (l.on c.dataPktBuf.bookKeepArr)).map fun r =>
    countTimeOut ap (c.commit r.bookKeepArr r.headPtFinal r.currPtFinal) r.incrementTimeOut

section Finish

variable {ap : WspaceAP} {now : TIME} {c : ClientContext} {ack : DataAck} {index : Nat}

/-- The slots are written back together with the cursors. -/
theorem AckLoop.commit_setArr (s : AckLoop) (c : ClientContext)
    (arr : CellRing BUF_SIZE BookKeeping) : s.commit (c.setArr arr) = s.commit c := rfl

theorem AckLoop.locals_on (s : AckLoop) : s.locals.on s.bookKeepArr = s := rfl

theorem ClientContext.setArr_bookKeepArr (c : ClientContext)
    (arr : CellRing BUF_SIZE BookKeeping) : (c.setArr arr).dataPktBuf.bookKeepArr = arr := rfl

theorem finishAck_done (l : AckLocals) (h : ¬index ≤ uint32Sub ack.endSeq 1) :
    finishAck ap now c ack index l =
      c.commit c.dataPktBuf.bookKeepArr l.headPtFinal l.currPtFinal := by
  unfold finishAck
  rw [show uint32Sub ack.endSeq 1 + 1 - index = 0 by omega]
  rfl

theorem finishAck_pass (l : AckLocals) (h : index ≤ uint32Sub ack.endSeq 1) :
    finishAck ap now c ack index l =
      finishAck ap now
        (c.setArr (AckLoop.visit ap now (l.on c.dataPktBuf.bookKeepArr) index).bookKeepArr) ack
        (index + 1) (AckLoop.visit ap now (l.on c.dataPktBuf.bookKeepArr) index).locals := by
  have hpasses : List.range' index (uint32Sub ack.endSeq 1 + 1 - index) =
      index :: List.range' (index + 1) (uint32Sub ack.endSeq 1 + 1 - (index + 1)) := by
    rw [← List.range'_succ, show uint32Sub ack.endSeq 1 + 1 - index =
      uint32Sub ack.endSeq 1 + 1 - (index + 1) + 1 by omega]
  unfold finishAck
  rw [hpasses, List.foldl_cons, AckLoop.commit_setArr, ClientContext.setArr_bookKeepArr,
    AckLoop.locals_on]

theorem finishBulk_done {headPtFinal : Nat} (h : ¬index < headPtFinal) :
    finishBulk ap now c ack index headPtFinal =
      if ack.nackArr = [] then
        c.commit c.dataPktBuf.bookKeepArr headPtFinal c.dataPktBuf.currPt
      else finishAck ap now c ack headPtFinal ⟨headPtFinal, c.dataPktBuf.currPt, true,
        skipStale c.dataPktBuf.headPt ack.nackArr⟩ := by
  have hnone : bulkRelease c.dataPktBuf.bookKeepArr index headPtFinal =
      c.dataPktBuf.bookKeepArr := by
    unfold bulkRelease
    rw [Nat.sub_eq_zero_of_le (Nat.le_of_not_lt h)]
    rfl
  unfold finishBulk
  simp only [hnone]
  rfl

theorem finishBulk_pass {headPtFinal : Nat} (h : index < headPtFinal) :
    finishBulk ap now c ack index headPtFinal =
      finishBulk ap now (c.setArr (c.dataPktBuf.bookKeepArr.set index
        (c.dataPktBuf.bookKeepArr.get index).free)) ack (index + 1) headPtFinal := by
  have hcons : bulkRelease c.dataPktBuf.bookKeepArr index headPtFinal =
      bulkRelease (c.dataPktBuf.bookKeepArr.set index
        (c.dataPktBuf.bookKeepArr.get index).free) (index + 1) headPtFinal := by
    unfold bulkRelease
    rw [show headPtFinal - index = headPtFinal - (index + 1) + 1 by omega, List.range'_succ,
      List.foldl_cons]
  unfold finishBulk
  simp only [hcons]
  rfl

theorem finishTimeOut_pass {n : Nat} (l : TimeOutLocals) :
    finishTimeOut ap now c index (n + 1) l =
      match TimeOutLoop.visit ap now (l.on c.dataPktBuf.bookKeepArr) index with
      | .error e => .error e
      | .ok (r, leave) => finishTimeOut ap now (c.setArr r.bookKeepArr) (index + 1)
          (if leave then 0 else n) r.locals := by
  unfold finishTimeOut
  simp only [countUp]
  cases TimeOutLoop.visit ap now (l.on c.dataPktBuf.bookKeepArr) index with
  | error e => rfl
  | ok r =>
    obtain ⟨r, leave⟩ := r
    cases leave with
    | true => rfl
    | false => rfl

theorem finishBulk_start (c : ClientContext) :
    finishBulk ap now c ack c.dataPktBuf.headPt (bulkHead c.dataPktBuf.headPt ack) =
      { c with dataPktBuf := applyDataAck ap now c.dataPktBuf ack } := by
  unfold finishBulk applyDataAck
  by_cases hnone : ack.nackArr = []
  · simp only [if_pos hnone]
    rfl
  · simp only [if_neg hnone]
    rfl

/-- An accepted ack, from the start. -/
theorem handleDataAck_eq_finishBulk (h : c.accepts ack = true) :
    (handleDataAck ap now c ack).2 = finishBulk ap now { c with
      expectDataAckSeq := uint32 (ack.ackSeq + 1)
      dupDataAckCnt := 0
      contiguousTimeOut := 0 } ack c.dataPktBuf.headPt (bulkHead c.dataPktBuf.headPt ack) := by
  rw [handleDataAck_accepted h]
  exact (finishBulk_start { c with
    expectDataAckSeq := uint32 (ack.ackSeq + 1)
    dupDataAckCnt := 0
    contiguousTimeOut := 0 }).symm

theorem handleTimeOut_eq_countTimeOut (c : ClientContext) : (handleTimeOut ap now c).map Prod.snd =
    (applyTimeOut ap now c.dataPktBuf).map fun r =>
      countTimeOut ap { c with dataPktBuf := r.2 } r.1 := by
  unfold handleTimeOut countTimeOut
  cases applyTimeOut ap now c.dataPktBuf with
  | error e => rfl
  | ok r =>
    simp only [bind, Except.bind, Except.map]
    generalize (if r.1 = true then wrapInt32 (c.contiguousTimeOut + 1)
      else if c.contiguousTimeOut < ap.maxContiguousTimeOut then 0
      else c.contiguousTimeOut) = cnt
    split_ifs <;> rfl

/-- A timeout, from the start. -/
theorem handleTimeOut_eq_finishTimeOut (c : ClientContext) :
    (handleTimeOut ap now c).map Prod.snd =
      finishTimeOut ap now c c.dataPktBuf.headPt (c.dataPktBuf.tailPt - c.dataPktBuf.headPt)
        ⟨c.dataPktBuf.headPt, c.dataPktBuf.currPt, true, false⟩ := by
  rw [handleTimeOut_eq_countTimeOut]
  unfold applyTimeOut finishTimeOut TimeOutLocals.on
  cases countUp (TimeOutLoop.visit ap now) c.dataPktBuf.headPt
      (c.dataPktBuf.tailPt - c.dataPktBuf.headPt)
      ⟨c.dataPktBuf.bookKeepArr, c.dataPktBuf.headPt, c.dataPktBuf.currPt, true, false⟩ with
  | error e => rfl
  | ok r => rfl

end Finish

/-! ### The simulation -/

/-- The atomic state `t` stands for a section under the queue lock, given the settled client `c`:
before a cursor has moved it is the same, and what a handler has left to do to `c` is what the
whole handler does to it. -/
def QueueSection.Matches (ap : WspaceAP) (c : ClientContext) (t : TxState) : QueueSection → Prop
  | .acquireTailLock _ _ _ | .acquireCurrLock => t.client = c
  | .bulkRelease ack index headPtFinal =>
    (t.client.accepts ack = true ∧ ack.WellFormed t.history.highest) ∧
      ∀ now, (handleDataAck ap now t.client ack).2 = finishBulk ap now c ack index headPtFinal
  | .ackLoop ack now index l =>
    (t.client.accepts ack = true ∧ ack.WellFormed t.history.highest) ∧
      (handleDataAck ap now t.client ack).2 = finishAck ap now c ack index l
  | .timeOutLoop now index n l =>
    (handleTimeOut ap now t.client).map Prod.snd = finishTimeOut ap now c index n l

/-- The atomic state for `s` while no handler is at work. -/
def LockState.view (s : LockState) (clock : Fin BUF_SIZE → TIME) : TxState :=
  ⟨s.settled clock, s.history⟩

@[simp]
theorem LockState.view_headPt (s : LockState) (clock : Fin BUF_SIZE → TIME) :
    (s.view clock).buf.headPt = s.buf.headPt := rfl

@[simp]
theorem LockState.view_currPt (s : LockState) (clock : Fin BUF_SIZE → TIME) :
    (s.view clock).buf.currPt = s.buf.currPt := rfl

@[simp]
theorem LockState.view_tailPt (s : LockState) (clock : Fin BUF_SIZE → TIME) :
    (s.view clock).buf.tailPt = s.buf.tailPt := rfl

/-- The atomic state `t` stands for `s`, if `TxSendAth` is going to read `clock`. -/
structure LockState.Stands (ap : WspaceAP) (s : LockState) (clock : Fin BUF_SIZE → TIME)
    (t : TxState) : Prop where
  history : t.history = s.history
  client : s.qlock.elim (t.client = s.settled clock) (QueueSection.Matches ap (s.settled clock) t)

/-- The invariant of the runs. -/
structure LockInv (ap : WspaceAP) (R : Nat) (s : LockState) : Prop where
  atomic : ∀ clock, ∃ t, (txMachine ap R).Reachable t ∧ s.Stands ap clock t
  element : ∀ k sec, s.lockArr k = some sec → sec.Ready k (s.buf.bookKeepArr k)
  reading : ∀ p seqNum pkt, s.producer p = .read seqNum pkt →
    0 < pkt.length ∧ pkt.length ≤ PKT_SIZE
  tail : ∀ p seqNum pkt, s.qlock = some (.acquireTailLock p seqNum pkt) →
    (0 < pkt.length ∧ pkt.length ≤ PKT_SIZE) ∧
      (s.buf.isFull = false → s.history.enqueued.length + 1 < 4294967295 ∧
        seqNum = uint32 (s.buf.tailPt + 1))
  waiting : s.sender = .waiting false → s.buf.isEmpty = true

section Steps

variable {ap : WspaceAP} {R : Nat} {s s' : LockState} {clock : Fin BUF_SIZE → TIME} {t : TxState}
  {now : TIME} {k : Fin BUF_SIZE} {sec : ElementSection}

/-- Without a section under the queue lock the atomic client is the settled one. -/
theorem LockState.Stands.of_free (h : s.Stands ap clock t) (hq : s.qlock = none) :
    t.client = s.settled clock := by
  have hclient := h.client
  rwa [hq] at hclient

theorem LockState.Stands.of_section (h : s.Stands ap clock t) {q : QueueSection}
    (hq : s.qlock = some q) : q.Matches ap (s.settled clock) t := by
  have hclient := h.client
  rwa [hq] at hclient

theorem LockState.runQueue_tail {p : Producer} {seqNum : Nat} {pkt : List UInt8}
    (hroom : s.buf.isFull = false) :
    s.runQueue ap now (.acquireTailLock p seqNum pkt) =
      .ok (s.lockTail p seqNum pkt { s.buf with tailPt := uint32 (s.buf.tailPt + 1) }) := by
  unfold LockState.runQueue
  rw [TxDataBuf.acquireTailLock_room hroom]

theorem LockState.runQueue_full {p : Producer} {seqNum : Nat} {pkt : List UInt8}
    (hfull : s.buf.isFull = true) :
    s.runQueue ap now (.acquireTailLock p seqNum pkt) =
      .ok ((s.setQueue none).setProducer p .idle) := by
  have hnone : s.buf.acquireTailLock = none := if_pos hfull
  unfold LockState.runQueue
  rw [hnone]

theorem LockState.runQueue_timeOut {now' : TIME} {index n : Nat} {l : TimeOutLocals} :
    s.runQueue ap now' (.timeOutLoop now index (n + 1) l) =
      match TimeOutLoop.visit ap now (l.on s.buf.bookKeepArr) index with
      | .error e => .error e
      | .ok (r, leave) =>
        .ok ((s.setArr r.bookKeepArr).setQueue
          (some (.timeOutLoop now (index + 1) (if leave then 0 else n) r.locals))) := rfl

theorem execLock_queueStep {q : QueueSection} (hq : s.qlock = some q) :
    execLock ap s (.queueStep now) = s.runQueue ap now q := by
  simp only [execLock, hq]

theorem execLock_elementStep (hsec : s.lockArr k = some sec) :
    execLock ap s (.elementStep k now) = s.runElement k now sec := by
  simp only [execLock, hsec]

namespace LockInv

/-- The invariant does not depend on where the threads are that have no lock. -/
theorem setProducer (hs : LockInv ap R s) (p : Producer) {pc : ProducerPc}
    (hpc : ∀ seqNum pkt, pc = .read seqNum pkt → 0 < pkt.length ∧ pkt.length ≤ PKT_SIZE) :
    LockInv ap R (s.setProducer p pc) where
  atomic clock := by
    obtain ⟨t, ht, hst⟩ := hs.atomic clock
    exact ⟨t, ht, hst.history, hst.client⟩
  element := hs.element
  reading q seqNum pkt hq := by
    have hupd : Function.update s.producer p pc q = .read seqNum pkt := hq
    by_cases heq : q = p
    · rw [heq, Function.update_self] at hupd
      exact hpc _ _ hupd
    · rw [Function.update_of_ne heq] at hupd
      exact hs.reading _ _ _ hupd
  tail := hs.tail
  waiting := hs.waiting

theorem setSender (hs : LockInv ap R s) {pc : SenderPc}
    (hpc : pc = .waiting false → s.buf.isEmpty = true) :
    LockInv ap R { s with sender := pc } where
  atomic clock := by
    obtain ⟨t, ht, hst⟩ := hs.atomic clock
    exact ⟨t, ht, hst.history, hst.client⟩
  element := hs.element
  reading := hs.reading
  tail := hs.tail
  waiting := hpc

/-- The queue lock is taken or given back by a section that has not moved a cursor. -/
theorem setQueue (hs : LockInv ap R s) {q : Option QueueSection}
    (hclient : ∀ clock t, s.Stands ap clock t →
      q.elim (t.client = s.settled clock) (QueueSection.Matches ap (s.settled clock) t))
    (htail : ∀ p seqNum pkt, q = some (.acquireTailLock p seqNum pkt) →
      (0 < pkt.length ∧ pkt.length ≤ PKT_SIZE) ∧
        (s.buf.isFull = false → s.history.enqueued.length + 1 < 4294967295 ∧
          seqNum = uint32 (s.buf.tailPt + 1))) :
    LockInv ap R (s.setQueue q) where
  atomic clock := by
    obtain ⟨t, ht, hst⟩ := hs.atomic clock
    exact ⟨t, ht, hst.history, hclient clock t hst⟩
  element := hs.element
  reading := hs.reading
  tail := htail
  waiting := hs.waiting

/-! ### Sections under an element lock -/

/-- A section under an element lock runs: nothing happens to the atomic state. -/
theorem released (hs : LockInv ap R s) (hsec : s.lockArr k = some sec) (now : TIME) :
    LockInv ap R ((s.setBuf (sec.after k now s.buf)).setElement k none) where
  atomic clock := by
    obtain ⟨t, ht, hst⟩ := hs.atomic (Function.update clock k now)
    refine ⟨t, ht, hst.history, ?_⟩
    rw [LockState.settled_after hsec (hs.element k sec hsec) now]
    exact hst.client
  element j sec' hj := by
    have hupd : Function.update s.lockArr k none j = some sec' := hj
    by_cases heq : j = k
    · rw [heq, Function.update_self] at hupd
      cases hupd
    · rw [Function.update_of_ne heq] at hupd
      have hcell : (sec.after k now s.buf).bookKeepArr j = s.buf.bookKeepArr j :=
        Function.update_of_ne heq _ _
      have hready := hs.element j sec' hupd
      rw [← hcell] at hready
      exact hready
  reading := hs.reading
  tail := hs.tail
  waiting := hs.waiting

/-- The section under a locked element runs without a fault. -/
theorem elementStep (hs : LockInv ap R s) (hsec : s.lockArr k = some sec) (now : TIME) :
    ∃ s', s.runElement k now sec = .ok s' ∧ LockInv ap R s' ∧ s'.qlock = s.qlock ∧
      s'.lockArr = Function.update s.lockArr k none := by
  have hready := hs.element k sec hsec
  have hinv := hs.released hsec now
  cases sec with
  | storePkt p index seqNum pkt =>
    have hidle := hinv.setProducer p fun _ _ h => nomatch (h : ProducerPc.idle = _)
    refine ⟨_, ?_, hidle, rfl, rfl⟩
    simp only [LockState.runElement, TxDataBuf.storePkt_ready now hready]
  | handOut index =>
    obtain ⟨out, hout⟩ := TxDataBuf.handOut_ready now hready
    have hidle := hinv.setSender fun h => nomatch (h : SenderPc.idle = _)
    refine ⟨_, ?_, hidle, rfl, rfl⟩
    simp only [LockState.runElement, hout]

/-! ### The sections that move a cursor and take an element lock -/

/-- The atomic state, if no handler is at work. -/
theorem view_reachable (hs : LockInv ap R s) (clock : Fin BUF_SIZE → TIME)
    (hq : ∀ q, s.qlock = some q → q.isHandler = false) :
    (txMachine ap R).Reachable (s.view clock) := by
  obtain ⟨t, ht, hst⟩ := hs.atomic clock
  have hclient : t.client = s.settled clock := by
    cases hlock : s.qlock with
    | none => exact hst.of_free hlock
    | some q =>
      have hsec := hst.of_section hlock
      have hkind := hq q hlock
      cases q with
      | acquireTailLock p seqNum pkt => exact hsec
      | acquireCurrLock => exact hsec
      | bulkRelease | ackLoop | timeOutLoop => cases hkind
  have hview : s.view clock = t := by
    unfold LockState.view
    rw [← hclient, ← hst.history]
  rwa [hview]

/-- A section takes an element lock and releases the queue lock. -/
theorem lockElement (hs : LockInv ap R s) (hq : s'.qlock = none)
    (hlock : s'.lockArr = Function.update s.lockArr k (some sec))
    (harr : s'.buf.bookKeepArr = s.buf.bookKeepArr) (hprod : s'.producer = s.producer)
    (hwait : s'.sender = .waiting false → s'.buf.isEmpty = true)
    (hready : sec.Ready k (s.buf.bookKeepArr k))
    (hview : ∀ clock, (txMachine ap R).Reachable (s'.view clock)) : LockInv ap R s' where
  atomic clock := by
    refine ⟨_, hview clock, rfl, ?_⟩
    rw [hq]
    rfl
  element j sec' hj := by
    rw [hlock] at hj
    rw [harr]
    by_cases heq : j = k
    · subst heq
      rw [Function.update_self] at hj
      cases hj
      exact hready
    · rw [Function.update_of_ne heq] at hj
      exact hs.element j sec' hj
  reading := by
    rw [hprod]
    exact hs.reading
  tail p seqNum pkt h := by
    rw [hq] at h
    cases h
  waiting := hwait

theorem signalFill_ne (pc : SenderPc) : pc.signalFill ≠ .waiting false := by
  cases pc <;> simp [SenderPc.signalFill]

/-- `EnqueuePkt` gets its slot. -/
theorem tail_room (hs : LockInv ap R s) (now : TIME) {p : Producer} {seqNum : Nat}
    {pkt : List UInt8} (hq : s.qlock = some (.acquireTailLock p seqNum pkt))
    (hroom : s.buf.isFull = false) (hfree : s.lockArr (Fin.ofNat BUF_SIZE s.buf.tailPt) = none) :
    ∃ s', s.runQueue ap now (.acquireTailLock p seqNum pkt) = .ok s' ∧ LockInv ap R s' ∧
      s'.qlock = none := by
  obtain ⟨hpkt, hturn⟩ := hs.tail p seqNum pkt hq
  obtain ⟨hcnt, hseq⟩ := hturn hroom
  have hkind : ∀ q, s.qlock = some q → q.isHandler = false := by
    intro q hq'
    rw [hq] at hq'
    cases hq'
    rfl
  have hinv : ∀ clock, (s.view clock).WindowInv := fun clock =>
    windowInv_of_reachable (hs.view_reachable clock hkind)
  have hlt : s.buf.tailPt < s.buf.headPt + BUF_SIZE := by
    have hle : s.buf.tailPt ≤ s.buf.headPt + BUF_SIZE := (hinv fun _ => ⟨0, 0⟩).tail_le
    have hne : s.buf.tailPt ≠ s.buf.headPt + BUF_SIZE := fun heq => by
      have hfull : s.buf.isFull = true := (hinv fun _ => ⟨0, 0⟩).isFull_iff.mpr heq
      rw [hroom] at hfull
      cases hfull
    omega
  have hnext : uint32 (s.buf.tailPt + 1) = s.buf.tailPt + 1 := by
    have htail : s.buf.tailPt < 4294967295 := (hinv fun _ => ⟨0, 0⟩).tail_lt
    exact uint32_of_lt (by omega)
  have hempty : (s.buf.bookKeepArr (Fin.ofNat BUF_SIZE s.buf.tailPt)).status = .empty := by
    have hunused : ((s.settledArr fun _ => ⟨0, 0⟩).get s.buf.tailPt).status = .empty :=
      (hinv fun _ => ⟨0, 0⟩).unused s.buf.tailPt (Nat.le_refl _) hlt
    rwa [LockState.settledArr_get hfree] at hunused
  refine ⟨_, LockState.runQueue_tail hroom, ?_, rfl⟩
  refine hs.lockElement rfl rfl rfl rfl (fun h => absurd h (signalFill_ne _))
    ⟨rfl, hempty, hpkt.2⟩ fun clock => ?_
  have hen : (txMachine ap R).enabled (s.view clock) (.enqueue pkt) :=
    ⟨hpkt.1, hpkt.2, fun _ => hcnt⟩
  have hexec : (txMachine ap R).exec (s.view clock) (.enqueue pkt) =
      .ok ((s.view clock).stored pkt) := by
    rw [txMachine_exec]
    apply (hinv clock).exec_stored
    rw [LockState.view_tailPt, LockState.view_headPt]
    exact hlt
  have hstored := (hs.view_reachable clock hkind).step hen hexec
  have hsettled := @LockState.settled_setElement
    ((s.setBuf { s.buf with tailPt := s.buf.tailPt + 1 }).setQueue none) clock
    (Fin.ofNat BUF_SIZE s.buf.tailPt) (.storePkt p s.buf.tailPt seqNum pkt) hfree
    (fun bs hbs => by cases hbs; exact hpkt.2)
  rw [hseq, hnext] at hsettled
  rw [hseq, hnext]
  have hview : (s.lockTail p (s.buf.tailPt + 1) pkt
      { s.buf with tailPt := s.buf.tailPt + 1 }).view clock = (s.view clock).stored pkt :=
    congrArg (fun c => TxState.mk c
      { s.history with enqueued := s.history.enqueued ++ [(s.buf.tailPt + 1, pkt)] }) hsettled
  rw [hview]
  exact hstored

/-- `DequeuePkt` gets the slot at its cursor. -/
theorem curr_room (hs : LockInv ap R s) (hq : s.qlock = some .acquireCurrLock)
    (hne : s.buf.isEmpty = false) (hfree : s.lockArr (Fin.ofNat BUF_SIZE s.buf.currPt) = none) :
    LockInv ap R s.lockCurr := by
  have hkind : ∀ q, s.qlock = some q → q.isHandler = false := by
    intro q hq'
    rw [hq] at hq'
    cases hq'
    rfl
  have hinv : ∀ clock, (s.view clock).WindowInv := fun clock =>
    windowInv_of_reachable (hs.view_reachable clock hkind)
  have hslot : ∀ clock, (s.view clock).buf.slot (s.view clock).buf.currPt =
      s.buf.slot s.buf.currPt := fun clock => LockState.settledArr_get hfree
  have hlt : s.buf.currPt < s.buf.tailPt :=
    @TxState.WindowInv.curr_lt _ (hinv fun _ => ⟨0, 0⟩) ⟨0, 0⟩ hne
  have hnext : uint32 (s.buf.currPt + 1) = s.buf.currPt + 1 := by
    have htail : s.buf.tailPt < 4294967295 := (hinv fun _ => ⟨0, 0⟩).tail_lt
    exact uint32_of_lt (by omega)
  have hok := (hinv fun _ => ⟨0, 0⟩).slot _ (hinv fun _ => ⟨0, 0⟩).head_le_curr hlt
  rw [hslot] at hok
  have hused : (s.buf.slot s.buf.currPt).status.isPkt = true →
      (s.buf.slot s.buf.currPt).seqNum = s.buf.currPt + 1 ∧ 0 < (s.buf.slot s.buf.currPt).len ∧
        (s.buf.slot s.buf.currPt).len ≤ PKT_SIZE := fun hpkt =>
    hok.used fun hempty => by simp [Status.isPkt, hempty] at hpkt
  have hready : (ElementSection.handOut s.buf.currPt).Ready (Fin.ofNat BUF_SIZE s.buf.currPt)
      (s.buf.bookKeepArr (Fin.ofNat BUF_SIZE s.buf.currPt)) := by
    refine ⟨rfl, fun hpkt => ?_⟩
    obtain ⟨hseq, hlen⟩ := hused hpkt
    have hpos : 0 < (s.buf.slot s.buf.currPt).seqNum := by
      rw [hseq]
      exact Nat.succ_pos _
    exact ⟨hlen, hpos, fun hst => (hok.retrans hst).2⟩
  refine hs.lockElement rfl rfl rfl rfl (fun h => absurd (hs.waiting h) (by simp [hne])) hready
    fun clock => ?_
  -- the settled client is the one after `DequeuePkt`
  have hacq : s.buf.acquireCurrLock.2 = { s.buf with currPt := s.buf.currPt + 1 } := by
    unfold TxDataBuf.acquireCurrLock
    rw [hnext]
  have hsettled := @LockState.settled_setElement
    ((s.setBuf { s.buf with currPt := s.buf.currPt + 1 }).setQueue none) clock
    (Fin.ofNat BUF_SIZE s.buf.currPt) (.handOut s.buf.currPt) hfree
    (fun bs hbs => by cases hbs)
  rw [← hacq] at hsettled
  let b : TxDataBuf := { (s.view clock).buf with currPt := s.buf.currPt + 1 }
  have hb : b.slot s.buf.currPt = s.buf.slot s.buf.currPt := hslot clock
  have hclient : s.lockCurr.settled clock = { s.settled clock with
      dataPktBuf := (ElementSection.handOut s.buf.currPt).after
        (Fin.ofNat BUF_SIZE s.buf.currPt) (clock (Fin.ofNat BUF_SIZE s.buf.currPt)) b } := by
    refine hsettled.trans ?_
    rw [hacq]
    rfl
  have hstep := hs.view_reachable clock hkind
  have hen : ∀ now, (txMachine ap R).enabled (s.view clock) (.dequeue now) := fun now => hne
  cases hpkt : (s.buf.slot s.buf.currPt).status.isPkt with
  | false =>
    have hexec : (txMachine ap R).exec (s.view clock) (.dequeue ⟨0, 0⟩) =
        .ok (s.view clock).skipped := by
      rw [txMachine_exec]
      apply (hinv clock).exec_skipped
      · exact hlt
      · rw [hslot]
        exact hpkt
    rw [← hb] at hpkt
    rw [ElementSection.handOut_after_skip hpkt] at hclient
    have hview : s.lockCurr.view clock = (s.view clock).skipped := by
      unfold LockState.view
      rw [hclient]
      rw [hb] at hpkt
      simp only [LockState.lockCurr, hpkt, Bool.false_eq_true, if_false, List.append_nil]
      rfl
    rw [hview]
    exact hstep.step (hen _) hexec
  | true =>
    have hexec : (txMachine ap R).exec (s.view clock)
        (.dequeue (clock (Fin.ofNat BUF_SIZE s.buf.currPt))) =
          .ok ((s.view clock).sent (clock (Fin.ofNat BUF_SIZE s.buf.currPt))) := by
      rw [txMachine_exec]
      apply (hinv clock).exec_sent
      · exact hlt
      · rw [hslot]
        exact hpkt
    rw [ElementSection.handOut_after_sent (by rw [hb]; exact hpkt)] at hclient
    have hview : s.lockCurr.view clock =
        (s.view clock).sent (clock (Fin.ofNat BUF_SIZE s.buf.currPt)) := by
      change TxState.mk (s.lockCurr.settled clock) s.lockCurr.history = _
      rw [hclient, hb]
      simp only [LockState.lockCurr, hpkt, if_true, (hused hpkt).1, TxState.sent, hslot clock]
      rfl
    rw [hview]
    exact hstep.step (hen _) hexec

/-! ### The handlers -/

/-- A handler works on a slot that nobody has locked and goes on. -/
theorem passed (hs : LockInv ap R s) {i : Nat} {arr : CellRing BUF_SIZE BookKeeping}
    {q : QueueSection} (hfree : s.lockArr (Fin.ofNat BUF_SIZE i) = none)
    (harr : ∀ j, j ≠ Fin.ofNat BUF_SIZE i → arr j = s.buf.bookKeepArr j)
    (hq : q.isHandler = true) (hclient : ∀ clock t, s.Stands ap clock t →
      q.Matches ap ((s.setArr arr).settled clock) t) :
    LockInv ap R ((s.setArr arr).setQueue (some q)) where
  atomic clock := by
    obtain ⟨t, ht, hst⟩ := hs.atomic clock
    exact ⟨t, ht, hst.history, hclient clock t hst⟩
  element j sec hj := by
    have hne : j ≠ Fin.ofNat BUF_SIZE i := fun heq => by
      have hlock : s.lockArr j = some sec := hj
      rw [heq, hfree] at hlock
      cases hlock
    have hready := hs.element j sec hj
    rw [← harr j hne] at hready
    exact hready
  reading := hs.reading
  tail p seqNum pkt h := by
    cases h
    cases hq
  waiting := hs.waiting

/-- The end of a handler, whatever it does to the counters `c` and to the history. -/
theorem committed (hs : LockInv ap R s) {headPtFinal currPtFinal : Nat} {c : ClientContext}
    {h : History} (hbuf : c.dataPktBuf = (s.commit headPtFinal currPtFinal).buf)
    (hatomic : ∀ clock, (txMachine ap R).Reachable
      (LockState.view { s.commit headPtFinal currPtFinal with client := c, history := h } clock)) :
    LockInv ap R { s.commit headPtFinal currPtFinal with client := c, history := h } where
  atomic clock := ⟨_, hatomic clock, rfl, rfl⟩
  element k sec hk := by
    have hready := hs.element k sec hk
    have hsame : c.dataPktBuf.bookKeepArr = s.buf.bookKeepArr := by
      rw [hbuf]
      rfl
    rw [← hsame] at hready
    exact hready
  reading := hs.reading
  tail p seqNum pkt h := nomatch h
  waiting hwait := by
    have hempty : (s.commit headPtFinal currPtFinal).buf.isEmpty = true := by
      have hsender : (if (s.commit headPtFinal currPtFinal).buf.currPt ≠ s.buf.currPt then
        s.sender.signalFill else s.sender) = .waiting false := hwait
      by_cases hcurr : (s.commit headPtFinal currPtFinal).buf.currPt = s.buf.currPt
      · rw [if_neg (not_not.mpr hcurr)] at hsender
        have hsame := hs.waiting hsender
        unfold TxDataBuf.isEmpty at hsame ⊢
        rw [hcurr]
        exact hsame
      · rw [if_pos hcurr] at hsender
        exact absurd hsender (signalFill_ne _)
    have hc : c.dataPktBuf.isEmpty = true := by
      rw [hbuf]
      exact hempty
    exact hc

theorem execTx_accepted {ack : DataAck} (h : t.client.accepts ack = true) :
    execTx ap t (.dataAck now ack) = .ok ⟨(handleDataAck ap now t.client ack).2,
      { t.history with acked := t.history.acked ++ [ack] }⟩ := by
  unfold execTx
  simp only [h, if_true]

theorem execTx_refused {ack : DataAck} (h : t.client.accepts ack = false) :
    execTx ap t (.dataAck now ack) = .ok ⟨(handleDataAck ap now t.client ack).2, t.history⟩ := by
  unfold execTx
  simp only [h, Bool.false_eq_true, if_false, List.append_nil]

/-- An accepted ack has been handled. -/
theorem ackDone (hs : LockInv ap R s) (now : TIME) {ack : DataAck}
    {headPtFinal currPtFinal : Nat}
    (hclient : ∀ clock t, s.Stands ap clock t →
      (t.client.accepts ack = true ∧ ack.WellFormed t.history.highest) ∧
        (handleDataAck ap now t.client ack).2 = (s.settled clock).commit
          (s.settledArr clock) headPtFinal currPtFinal) :
    LockInv ap R (s.commitAck ack headPtFinal currPtFinal) := by
  refine hs.committed rfl fun clock => ?_
  obtain ⟨t, ht, hst⟩ := hs.atomic clock
  obtain ⟨⟨hacc, hwf⟩, hrun⟩ := hclient clock t hst
  have hen : (txMachine ap R).enabled t (.dataAck now ack) := hwf
  have hexec : (txMachine ap R).exec t (.dataAck now ack) = .ok
      ⟨(handleDataAck ap now t.client ack).2,
        { t.history with acked := t.history.acked ++ [ack] }⟩ := by
    rw [txMachine_exec]
    exact execTx_accepted hacc
  have hstep := ht.step hen hexec
  rw [hrun, hst.history] at hstep
  exact hstep

/-- A step of `HandleDataAck` under the queue lock. -/
theorem bulkStep (hs : LockInv ap R s) {ack : DataAck} {index headPtFinal : Nat}
    (hq : s.qlock = some (.bulkRelease ack index headPtFinal))
    (hfree : ∀ k ∈ (QueueSection.bulkRelease ack index headPtFinal).next s.buf,
      s.lockArr k = none) :
    ∃ s', s.runQueue ap now (.bulkRelease ack index headPtFinal) = .ok s' ∧ LockInv ap R s' := by
  by_cases hlt : index < headPtFinal
  · have hslot : s.lockArr (Fin.ofNat BUF_SIZE index) = none :=
      hfree _ (by simp [QueueSection.next, hlt])
    refine ⟨_, if_pos hlt, hs.passed hslot (fun j hj => Function.update_of_ne hj _ _) rfl
      fun clock t hst => ?_⟩
    obtain ⟨hacc, hrun⟩ := hst.of_section hq
    refine ⟨hacc, fun now => (hrun now).trans ?_⟩
    rw [finishBulk_pass hlt]
    have hget : (s.settled clock).dataPktBuf.bookKeepArr.get index =
        s.buf.bookKeepArr.get index := LockState.settledArr_get hslot
    have harr := @LockState.settledArr_setArr s clock index hslot
      (s.buf.bookKeepArr.get index).free
    rw [hget]
    exact congrArg (fun arr => finishBulk ap now ((s.settled clock).setArr arr) ack (index + 1)
      headPtFinal) harr.symm
  · by_cases hnone : ack.nackArr = []
    · refine ⟨_, (if_neg hlt).trans (if_pos hnone), hs.ackDone now fun clock t hst => ?_⟩
      obtain ⟨hacc, hrun⟩ := hst.of_section hq
      refine ⟨hacc, (hrun now).trans ?_⟩
      rw [finishBulk_done hlt, if_pos hnone]
      rfl
    · refine ⟨_, (if_neg hlt).trans (if_neg hnone), hs.setQueue (fun clock t hst => ?_)
        (fun p seqNum pkt h => nomatch h)⟩
      obtain ⟨hacc, hrun⟩ := hst.of_section hq
      refine ⟨hacc, (hrun now).trans ?_⟩
      rw [finishBulk_done hlt, if_neg hnone]
      rfl

/-- The slots in flight, seen by a pass at a slot that nobody has locked. -/
theorem visit_settled {index : Nat} (hfree : s.lockArr (Fin.ofNat BUF_SIZE index) = none)
    (clock : Fin BUF_SIZE → TIME) (l : AckLocals) :
    AckLoop.visit ap now (l.on (s.settledArr clock)) index =
      (AckLoop.visit ap now (l.on s.buf.bookKeepArr) index).through fun arr =>
        Foundation.settled arr (s.updates clock) :=
  @AckLoop.visit_through ap now index (fun arr => Foundation.settled arr (s.updates clock))
    (fun _ => settled_free (LockState.updates_free hfree))
    (fun _ bk => settled_set (LockState.updates_free hfree) bk) (l.on s.buf.bookKeepArr)

theorem timeOut_visit_settled {index : Nat}
    (hfree : s.lockArr (Fin.ofNat BUF_SIZE index) = none) (clock : Fin BUF_SIZE → TIME)
    (l : TimeOutLocals) :
    TimeOutLoop.visit ap now (l.on (s.settledArr clock)) index =
      (TimeOutLoop.visit ap now (l.on s.buf.bookKeepArr) index).map fun r =>
        (r.1.through (fun arr => Foundation.settled arr (s.updates clock)), r.2) :=
  @TimeOutLoop.visit_through ap now index (fun arr => Foundation.settled arr (s.updates clock))
    (fun _ => settled_free (LockState.updates_free hfree))
    (fun _ bk => settled_set (LockState.updates_free hfree) bk) (l.on s.buf.bookKeepArr)

/-- A pass of the main loop of `HandleDataAck`, or its end. -/
theorem ackStep (hs : LockInv ap R s) {ack : DataAck} {index : Nat} {l : AckLocals}
    {now' : TIME} (hq : s.qlock = some (.ackLoop ack now index l))
    (hfree : ∀ k ∈ (QueueSection.ackLoop ack now index l).next s.buf, s.lockArr k = none) :
    ∃ s', s.runQueue ap now' (.ackLoop ack now index l) = .ok s' ∧ LockInv ap R s' := by
  by_cases hle : index ≤ uint32Sub ack.endSeq 1
  · have hslot : s.lockArr (Fin.ofNat BUF_SIZE index) = none :=
      hfree _ (by simp [QueueSection.next, hle])
    refine ⟨_, if_pos hle, hs.passed hslot (fun j hj => AckLoop.visit_other _ hj) rfl
      fun clock t hst => ?_⟩
    obtain ⟨hacc, hrun⟩ := hst.of_section hq
    refine ⟨hacc, hrun.trans ?_⟩
    have harr : (s.settled clock).dataPktBuf.bookKeepArr = s.settledArr clock := rfl
    rw [finishAck_pass l hle, harr, visit_settled hslot]
    rfl
  · refine ⟨_, if_neg hle, hs.ackDone now fun clock t hst => ?_⟩
    obtain ⟨hacc, hrun⟩ := hst.of_section hq
    refine ⟨hacc, hrun.trans ?_⟩
    rw [finishAck_done l hle]
    rfl

/-- The atomic timeout does not fail an assertion. -/
theorem handleTimeOut_ok (ht : (txMachine ap R).Reachable t) (now : TIME) :
    ∃ c, (handleTimeOut ap now t.client).map Prod.snd = .ok c ∧
      (txMachine ap R).Reachable ⟨c, t.history⟩ := by
  obtain ⟨t', hexec, -⟩ := @TxState.WindowInv.exec_timeOut ap t (windowInv_of_reachable ht) now
  have hrun := hexec
  unfold execTx at hrun
  simp only [] at hrun
  cases hres : handleTimeOut ap now t.client with
  | error e =>
    rw [hres] at hrun
    cases hrun
  | ok r =>
    rw [hres] at hrun
    obtain ⟨loss, c⟩ := r
    cases hrun
    exact ⟨c, rfl, ht.step (M := txMachine ap R) (i := .timeOut now) trivial hexec⟩

/-- A pass of the loop of `HandleTimeOut`, or its end. -/
theorem timeOutStep (hs : LockInv ap R s) {index n : Nat} {l : TimeOutLocals} {now' : TIME}
    (hq : s.qlock = some (.timeOutLoop now index n l))
    (hfree : ∀ k ∈ (QueueSection.timeOutLoop now index n l).next s.buf, s.lockArr k = none) :
    ∃ s', s.runQueue ap now' (.timeOutLoop now index n l) = .ok s' ∧ LockInv ap R s' := by
  cases n with
  | zero =>
    refine ⟨_, rfl, hs.committed (c := (s.commitTimeOut ap l).client) rfl fun clock => ?_⟩
    obtain ⟨t, ht, hst⟩ := hs.atomic clock
    obtain ⟨c, hc, hreach⟩ := handleTimeOut_ok ht now
    have hrun := hst.of_section hq
    have heq := Except.ok.inj (hc.symm.trans hrun)
    rw [heq, hst.history] at hreach
    exact hreach
  | succ n =>
    have hslot : s.lockArr (Fin.ofNat BUF_SIZE index) = none :=
      hfree _ (by simp [QueueSection.next])
    cases hvisit : TimeOutLoop.visit ap now (l.on s.buf.bookKeepArr) index with
    | error e =>
      -- the atomic timeout would fail too
      obtain ⟨t, ht, hst⟩ := hs.atomic fun _ => ⟨0, 0⟩
      obtain ⟨c, hc, -⟩ := handleTimeOut_ok ht now
      have hrun := hc.symm.trans (hst.of_section hq)
      rw [finishTimeOut_pass] at hrun
      have harr : (s.settled fun _ => ⟨0, 0⟩).dataPktBuf.bookKeepArr =
        s.settledArr fun _ => ⟨0, 0⟩ := rfl
      rw [harr, timeOut_visit_settled hslot, hvisit] at hrun
      cases hrun
    | ok r =>
      obtain ⟨r, leave⟩ := r
      have hstep : s.runQueue ap now' (.timeOutLoop now index (n + 1) l) =
          .ok ((s.setArr r.bookKeepArr).setQueue
            (some (.timeOutLoop now (index + 1) (if leave then 0 else n) r.locals))) := by
        rw [LockState.runQueue_timeOut, hvisit]
      refine ⟨_, hstep, hs.passed hslot (fun j hj => TimeOutLoop.visit_other hvisit hj) rfl
        fun clock t hst => ?_⟩
      have hrun := hst.of_section hq
      refine Eq.trans hrun ?_
      have harr : (s.settled clock).dataPktBuf.bookKeepArr = s.settledArr clock := rfl
      rw [finishTimeOut_pass, harr, timeOut_visit_settled hslot, hvisit]
      rfl

/-- A section under the queue lock that does not wait for an element lock goes on. -/
theorem queueStep (hs : LockInv ap R s) {q : QueueSection} (hq : s.qlock = some q)
    (hfree : ∀ k ∈ q.next s.buf, s.lockArr k = none) (now : TIME) :
    ∃ s', s.runQueue ap now q = .ok s' ∧ LockInv ap R s' := by
  cases q with
  | acquireTailLock p seqNum pkt =>
    cases hfull : s.buf.isFull with
    | true =>
      have hidle := (hs.setQueue (q := none) (fun clock t hst => hst.of_section hq)
        (fun p seqNum pkt h => nomatch h)).setProducer p
          fun _ _ h => nomatch (h : ProducerPc.idle = _)
      exact ⟨_, LockState.runQueue_full hfull, hidle⟩
    | false =>
      obtain ⟨s', hrun, hinv, -⟩ := hs.tail_room now hq hfull
        (hfree _ (by simp [QueueSection.next, hfull]))
      exact ⟨s', hrun, hinv⟩
  | acquireCurrLock =>
    cases hempty : s.buf.isEmpty with
    | true =>
      have hnone := hs.setQueue (q := none) (fun clock t hst => hst.of_section hq)
        (fun p seqNum pkt h => nomatch h)
      exact ⟨_, if_pos hempty, hnone.setSender fun _ => hempty⟩
    | false =>
      refine ⟨_, if_neg (by simp [hempty]), hs.curr_room hq hempty
        (hfree _ (by simp [QueueSection.next, hempty]))⟩
  | bulkRelease ack index headPtFinal => exact hs.bulkStep hq hfree
  | ackLoop ack now' index l => exact hs.ackStep hq hfree
  | timeOutLoop now' index n l => exact hs.timeOutStep hq hfree

/-! ### The threads that have no lock -/

/-- While no handler is at work, the view is what stands for the state. -/
theorem stands_view (s : LockState) (clock : Fin BUF_SIZE → TIME)
    (hq : ∀ q, s.qlock = some q → q.isHandler = false) : s.Stands ap clock (s.view clock) := by
  refine ⟨rfl, ?_⟩
  cases hlock : s.qlock with
  | none => rfl
  | some q =>
    have hkind := hq q hlock
    cases q with
    | acquireTailLock p seqNum pkt => rfl
    | acquireCurrLock => rfl
    | bulkRelease | ackLoop | timeOutLoop => cases hkind

/-- The settled client with other counters. -/
theorem settled_client (clock : Fin BUF_SIZE → TIME) {c : ClientContext}
    (h : c.dataPktBuf = s.buf) : LockState.settled { s with client := c } clock =
      { c with dataPktBuf := (s.settled clock).dataPktBuf } := by
  obtain ⟨b, expectDataAckSeq, dupDataAckCnt, contiguousTimeOut⟩ := c
  subst h
  rfl

/-- An ack that is not accepted is counted by the head of the buffer alone. -/
theorem handleDataAck_counted {c : ClientContext} {ack : DataAck} {b : TxDataBuf} (now' : TIME)
    (h : c.accepts ack = false) (hhead : b.headPt = c.dataPktBuf.headPt) :
    (handleDataAck ap now { c with dataPktBuf := b } ack).2 =
      { (handleDataAck ap now' c ack).2 with dataPktBuf := b } := by
  simp only [ClientContext.accepts, decide_eq_false_iff_not] at h
  unfold handleDataAck
  by_cases hold : ack.ackSeq < c.expectDataAckSeq
  · simp only [if_pos hold]
  · by_cases hzero : ack.endSeq = 0
    · simp only [if_neg hold, if_pos hzero]
    · have hdup : uint32Sub ack.endSeq 1 < c.dataPktBuf.headPt := by
        by_contra hn
        exact h ⟨hold, hzero, hn⟩
      simp only [if_neg hold, if_neg hzero, hhead, if_pos hdup]
      split_ifs <;> rfl

/-- The counters of the client change before a section runs. -/
theorem setClient (hs : LockInv ap R s) {c : ClientContext} {q : Option QueueSection}
    (hbuf : c.dataPktBuf = s.buf) (hatomic : ∀ clock, ∃ t, (txMachine ap R).Reachable t ∧
      LockState.Stands ap { s with client := c, qlock := q } clock t)
    (htail : ∀ p seqNum pkt, q = some (.acquireTailLock p seqNum pkt) → q = s.qlock) :
    LockInv ap R { s with client := c, qlock := q } := by
  obtain ⟨b, expectDataAckSeq, dupDataAckCnt, contiguousTimeOut⟩ := c
  subst hbuf
  exact ⟨hatomic, hs.element, hs.reading,
    fun p seqNum pkt h => hs.tail p seqNum pkt ((htail p seqNum pkt h).symm.trans h), hs.waiting⟩

/-- An ack that is old, empty or a duplicate. -/
theorem refuseAck (hs : LockInv ap R s) {ack : DataAck} (hacc : s.client.accepts ack = false)
    (hwf : ack.WellFormed s.history.highest)
    (hq : ∀ q, s.qlock = some q → q.isHandler = false) :
    LockInv ap R { s with client := (handleDataAck ap ⟨0, 0⟩ s.client ack).2 } := by
  have hbuf := @handleDataAck_refused ap ⟨0, 0⟩ s.client ack hacc
  refine hs.setClient (q := s.qlock) hbuf (fun clock => ⟨_, ?_, stands_view _ clock hq⟩)
    fun _ _ _ _ => rfl
  have hno : (s.view clock).client.accepts ack = false := hacc
  have hen : (txMachine ap R).enabled (s.view clock) (.dataAck ⟨0, 0⟩ ack) := hwf
  have hexec : (txMachine ap R).exec (s.view clock) (.dataAck ⟨0, 0⟩ ack) = .ok
      ⟨(handleDataAck ap ⟨0, 0⟩ (s.view clock).client ack).2, (s.view clock).history⟩ := by
    rw [txMachine_exec]
    exact execTx_refused hno
  have hcounted := @handleDataAck_counted ap ⟨0, 0⟩ s.client ack (s.settled clock).dataPktBuf
    ⟨0, 0⟩ hacc rfl
  have hclient := (settled_client clock hbuf).trans hcounted.symm
  have hstep := (hs.view_reachable clock hq).step hen hexec
  have hview : LockState.view { s with client := (handleDataAck ap ⟨0, 0⟩ s.client ack).2 }
      clock = ⟨(handleDataAck ap ⟨0, 0⟩ (s.view clock).client ack).2, (s.view clock).history⟩ :=
    congrArg (TxState.mk · s.history) hclient
  rw [← hview] at hstep
  exact hstep

/-- `HandleDataAck` takes the queue lock for an ack that it accepts. -/
theorem acceptAck (hs : LockInv ap R s) {ack : DataAck} (hq : s.qlock = none)
    (hacc : s.client.accepts ack = true) (hwf : ack.WellFormed s.history.highest) :
    LockInv ap R { s with
      qlock := some (.bulkRelease ack s.buf.headPt (bulkHead s.buf.headPt ack))
      client := { s.client with
        expectDataAckSeq := uint32 (ack.ackSeq + 1)
        dupDataAckCnt := 0
        contiguousTimeOut := 0 } } := by
  refine hs.setClient rfl (fun clock => ?_) (fun _ _ _ h => nomatch h)
  have hkind : ∀ q, s.qlock = some q → q.isHandler = false := fun q h => by
    rw [hq] at h
    cases h
  have hacc' : (s.view clock).client.accepts ack = true := hacc
  exact ⟨s.view clock, hs.view_reachable clock hkind, rfl, ⟨hacc', hwf⟩, fun now =>
    handleDataAck_eq_finishBulk hacc'⟩

/-- `HandleTimeOut` takes the queue lock. -/
theorem lockTimeOut (hs : LockInv ap R s) (hq : s.qlock = none) (now : TIME) :
    LockInv ap R (s.setQueue (some (.timeOutLoop now s.buf.headPt
      (s.buf.tailPt - s.buf.headPt) ⟨s.buf.headPt, s.buf.currPt, true, false⟩))) := by
  refine hs.setQueue (fun clock t hst => ?_) (fun _ _ _ h => nomatch h)
  have hclient := hst.of_free hq
  have hrun := @handleTimeOut_eq_finishTimeOut ap now t.client
  rw [hclient] at hrun
  exact (congrArg (fun c => (handleTimeOut ap now c).map Prod.snd) hclient).trans hrun

/-- The step lemma: a step that a thread can take does not fault and keeps the invariant. -/
theorem step (hs : LockInv ap R s) {input : LockInput} (hen : enabledLock s input)
    (hturn : s.InTurn input) : ∃ s', execLock ap s input = .ok s' ∧ LockInv ap R s' := by
  cases input with
  | enqueuePkt p pkt =>
    obtain ⟨-, hlen⟩ := hen
    refine ⟨_, rfl, hs.setProducer p fun seqNum pkt' h => ?_⟩
    cases h
    exact hlen
  | lockTail p =>
    obtain ⟨hq, seqNum, pkt, hread⟩ := hen
    have hlen := hs.reading p seqNum pkt hread
    have hlock := hs.setQueue (q := some (.acquireTailLock p seqNum pkt))
      (fun clock t hst => hst.of_free hq) fun p' seqNum' pkt' h => by
        cases h
        exact ⟨hlen, fun hroom => ⟨(hturn hroom).1, (hturn hroom).2 seqNum pkt hread⟩⟩
    refine ⟨_, ?_, hlock.setProducer p fun _ _ h => nomatch (h : ProducerPc.locked = _)⟩
    simp only [execLock, hread]
  | lockCurr =>
    have hlock := hs.setQueue (q := some .acquireCurrLock)
      (fun clock t hst => hst.of_free hen.1) fun _ _ _ h => nomatch h
    exact ⟨_, rfl, hlock.setSender fun h => nomatch (h : SenderPc.locked = _)⟩
  | wake timedOut =>
    cases timedOut with
    | true => exact ⟨_, rfl, hs.setSender fun h => nomatch (h : SenderPc.idle = _)⟩
    | false =>
      have hlock := hs.setQueue (q := some .acquireCurrLock)
        (fun clock t hst => hst.of_free hen.1) fun _ _ _ h => nomatch h
      exact ⟨_, rfl, hlock.setSender fun h => nomatch (h : SenderPc.locked = _)⟩
  | dataAck ack =>
    obtain ⟨hwf, hlock⟩ := hen
    cases hacc : s.client.accepts ack with
    | true =>
      have hq : s.qlock = none := by
        obtain hq | ⟨hign, -⟩ := hlock
        · exact hq
        · simp only [ClientContext.accepts, ClientContext.ignores, decide_eq_true_eq] at hacc hign
          omega
      refine ⟨_, ?_, hs.acceptAck hq hacc hwf⟩
      simp only [execLock, hacc, if_true]
      rfl
    | false =>
      have hkind : ∀ q, s.qlock = some q → q.isHandler = false := by
        intro q hq
        obtain hfree | ⟨-, hkind⟩ := hlock
        · rw [hfree] at hq
          cases hq
        · exact hkind q hq
      refine ⟨_, ?_, hs.refuseAck hacc hwf hkind⟩
      simp only [execLock, hacc, Bool.false_eq_true, if_false]
  | timeOut now => exact ⟨_, rfl, hs.lockTimeOut hen now⟩
  | queueStep now =>
    obtain ⟨q, hq, hfree⟩ := hen
    obtain ⟨s', hrun, hinv⟩ := hs.queueStep hq hfree now
    exact ⟨s', (execLock_queueStep hq).trans hrun, hinv⟩
  | elementStep k now =>
    obtain ⟨sec, hsec⟩ := hen
    obtain ⟨s', hrun, hinv, -⟩ := hs.elementStep hsec now
    exact ⟨s', (execLock_elementStep hsec).trans hrun, hinv⟩

/-- In the beginning nothing is in flight. -/
theorem init (ap : WspaceAP) (boot : Fin BUF_SIZE → TIME) (R : Nat) :
    LockInv ap R (.init boot R) where
  atomic clock := by
    have hmem : settledBytes PKT_SIZE (TxDataBuf.init boot R).pktBuf
        (LockState.init boot R).writes = (TxDataBuf.init boot R).pktBuf := by
      funext x
      unfold settledBytes
      split <;> rfl
    have hview : (LockState.init boot R).view clock = TxState.init boot R := by
      unfold LockState.view LockState.settled
      change (⟨⟨⟨0, 0, 0, _, settledBytes PKT_SIZE (TxDataBuf.init boot R).pktBuf
        (LockState.init boot R).writes, R⟩, 1, 0, 0⟩, ⟨[], [], []⟩⟩ : TxState) = _
      rw [hmem]
      rfl
    refine ⟨(LockState.init boot R).view clock, ?_, rfl, rfl⟩
    rw [hview]
    exact .init ⟨boot, rfl⟩
  element k sec h := nomatch h
  reading p seqNum pkt h := nomatch h
  tail p seqNum pkt h := nomatch h
  waiting h := nomatch h

end LockInv

theorem lockInv_of_reachable
    (h : ((lockMachine ap R).restrict LockState.InTurn).Reachable s) : LockInv ap R s := by
  refine h.invariant ?_ ?_
  · rintro s ⟨boot, rfl⟩
    exact .init ap boot R
  · intro s input s' _ hs hen hexec
    obtain ⟨s'', hrun, hinv⟩ := hs.step hen.1 hen.2
    cases hexec.symm.trans hrun
    exact hinv

/-- Whatever the interleaving of the lock sections, as long as packets fit a slot, acks are
well-formed and no call of `EnqueuePkt` is overtaken between reading `tail_pt` and the queue lock:
no assertion fails, an atomic state stands for the state reached, and while no handler is at work it
is the state itself with every section under an element lock run to its end. -/
theorem lockMachine_refines (ap : WspaceAP) (R : Nat) {s : LockState}
    (h : ((lockMachine ap R).restrict LockState.InTurn).Reachable s) :
    (∀ input, enabledLock s input → s.InTurn input → ∃ s', execLock ap s input = .ok s') ∧
      (∀ clock, ∃ t, (txMachine ap R).Reachable t ∧ s.Stands ap clock t) ∧
      ((∀ q, s.qlock = some q → q.isHandler = false) →
        ∀ clock, (txMachine ap R).Reachable (s.view clock)) := by
  have hs := lockInv_of_reachable h
  refine ⟨fun input hen hturn => ?_, hs.atomic, fun hq clock => hs.view_reachable clock hq⟩
  obtain ⟨s', hrun, -⟩ := hs.step hen hturn
  exact ⟨s', hrun⟩

theorem lock_step (h : ((lockMachine ap R).restrict LockState.InTurn).Reachable s)
    (input : LockInput) (hen : enabledLock s input) (hturn : s.InTurn input)
    (hexec : execLock ap s input = .ok s') :
    ((lockMachine ap R).restrict LockState.InTurn).Reachable s' :=
  .step h ⟨hen, hturn⟩ hexec

/-- `TxSendAth` has the queue lock and waits for a slot whose packet is not stored yet. -/
theorem lock_storing : ∃ s : LockState,
    ((lockMachine ⟨2, 20, 5⟩ 2).restrict LockState.InTurn).Reachable s ∧
    (s.buf.slot 0).status = .empty ∧ s.lockArr 0 = some (.storePkt .txRcvCell 0 1 [7]) ∧
    s.qlock = some .acquireCurrLock := by
  have h0 : ((lockMachine ⟨2, 20, 5⟩ 2).restrict LockState.InTurn).Reachable
      (.init (fun _ => ⟨0, 0⟩) 2) := .init ⟨_, rfl⟩
  have h1 := lock_step h0 (.enqueuePkt .txRcvCell [7]) ⟨rfl, by decide, by decide⟩ trivial rfl
  have h2 := lock_step h1 (.lockTail .txRcvCell) ⟨rfl, _, _, rfl⟩
    (fun _ => ⟨by decide, fun n pkt hread => by cases hread; rfl⟩) rfl
  have h3 := lock_step h2 (.queueStep ⟨0, 0⟩) ⟨_, rfl, fun k _ => rfl⟩ trivial
    ((execLock_queueStep rfl).trans (LockState.runQueue_tail (by decide)))
  have h4 := lock_step h3 .lockCurr ⟨rfl, rfl⟩ trivial rfl
  exact ⟨_, h4, rfl, rfl, rfl⟩

/-- The slot is still empty, and the state in which the packet has been stored is an atomic one. -/
theorem lockMachine_refines_storing : ∃ s : LockState, (s.buf.slot 0).status = .empty ∧
    s.lockArr 0 = some (.storePkt .txRcvCell 0 1 [7]) ∧
    ∀ clock, (txMachine ⟨2, 20, 5⟩ 2).Reachable (s.view clock) := by
  obtain ⟨s, hs, hempty, hlock, hq⟩ := lock_storing
  refine ⟨s, hempty, hlock, (lockMachine_refines _ _ hs).2.2 fun q hsec => ?_⟩
  cases hq.symm.trans hsec
  rfl

end Steps

end WspaceScout
