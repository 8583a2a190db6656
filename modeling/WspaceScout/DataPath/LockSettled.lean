import WspaceScout.DataPath.LockSections

/-!
# Slots that are locked

A section that has an element lock is certain to finish, and no other thread sees the slot before it
has. `LockState.settled` is the client as it will be once every such section has run. A section that
runs leaves it alone, and a handler that works on a slot that nobody has locked does to the settled
slots what it does to the slots.

## Main definitions

- `LockState.settled` — the client once every section under an element lock has run
- `ElementSection.Ready` — the assertions of a section hold

## Main results

- `LockState.settled_after` — running a section changes nothing
- `AckLoop.visit_through`, `TimeOutLoop.visit_through` — a pass of a handler sees its own slot only
-/

namespace WspaceScout

open Foundation

/-! ### Sections in flight -/

/-- What a section leaves of the slot that it has locked. -/
def ElementSection.effect (R : Nat) (now : TIME) : ElementSection → BookKeeping → BookKeeping
  | .storePkt _ _ seqNum pkt, bk => bk.update seqNum .occupiedNew pkt.length R
  | .handOut _, bk => if bk.status.isPkt then bk.sent now else bk

/-- What a section writes into the buffer of its slot. -/
def ElementSection.bytes : ElementSection → Option (List UInt8)
  | .storePkt _ _ _ pkt => some pkt
  | .handOut _ => none

/-- The assertions of a section hold, and it has locked the slot of its index. -/
def ElementSection.Ready (k : Fin BUF_SIZE) (bk : BookKeeping) : ElementSection → Prop
  | .storePkt _ index _ pkt =>
    Fin.ofNat BUF_SIZE index = k ∧ bk.status = .empty ∧ pkt.length ≤ PKT_SIZE
  | .handOut index => Fin.ofNat BUF_SIZE index = k ∧ (bk.status.isPkt = true →
      (0 < bk.len ∧ bk.len ≤ PKT_SIZE) ∧ 0 < bk.seqNum ∧
      (bk.status = .occupiedRetrans → 0 < bk.numRetrans))

namespace LockState

/-- The updates of the slots in flight; `clock` is what `TxSendAth` will read under the lock. -/
def updates (s : LockState) (clock : Fin BUF_SIZE → TIME) (k : Fin BUF_SIZE) :
    Option (BookKeeping → BookKeeping) :=
  (s.lockArr k).map fun sec => sec.effect s.buf.numRetrans (clock k)

/-- The writes to the slots in flight. -/
def writes (s : LockState) (k : Fin BUF_SIZE) : Option (List UInt8) :=
  (s.lockArr k).bind ElementSection.bytes

/-- The slots once every section under an element lock has run. -/
def settledArr (s : LockState) (clock : Fin BUF_SIZE → TIME) : CellRing BUF_SIZE BookKeeping :=
  Foundation.settled s.buf.bookKeepArr (s.updates clock)

/-- The client once every section under an element lock has run. -/
def settled (s : LockState) (clock : Fin BUF_SIZE → TIME) : ClientContext :=
  { s.client with dataPktBuf := { s.buf with
      bookKeepArr := s.settledArr clock
      pktBuf := settledBytes PKT_SIZE s.buf.pktBuf s.writes } }

variable {s : LockState} {clock : Fin BUF_SIZE → TIME} {k : Fin BUF_SIZE} {i : Nat}

theorem updates_setElement (s : LockState) (clock : Fin BUF_SIZE → TIME) (k : Fin BUF_SIZE)
    (sec : Option ElementSection) : (s.setElement k sec).updates clock =
      Function.update (s.updates clock) k
        (sec.map fun sec => sec.effect s.buf.numRetrans (clock k)) :=
  funext fun j => Function.apply_update
    (fun j sec => Option.map (fun sec => ElementSection.effect s.buf.numRetrans (clock j) sec) sec)
    s.lockArr k sec j

theorem writes_setElement (s : LockState) (k : Fin BUF_SIZE) (sec : Option ElementSection) :
    (s.setElement k sec).writes =
      Function.update s.writes k (sec.bind ElementSection.bytes) :=
  funext fun j => Function.apply_update (fun _ sec => Option.bind sec ElementSection.bytes)
    s.lockArr k sec j

theorem updates_free (h : s.lockArr k = none) : s.updates clock k = none := by
  unfold updates
  rw [h]
  rfl

theorem writes_free (h : s.lockArr k = none) : s.writes k = none := by
  unfold writes
  rw [h]
  rfl

/-- A slot that nobody has locked is settled. -/
theorem settledArr_get (h : s.lockArr (Fin.ofNat BUF_SIZE i) = none) :
    (s.settledArr clock).get i = s.buf.bookKeepArr.get i :=
  settled_free (updates_free h)

/-- A slot that nobody has locked is overwritten. -/
theorem settledArr_setArr (h : s.lockArr (Fin.ofNat BUF_SIZE i) = none) (bk : BookKeeping) :
    (s.setArr (s.buf.bookKeepArr.set i bk)).settledArr clock =
      (s.settledArr clock).set i bk :=
  settled_set (updates_free h) bk

end LockState

/-- The buffer after a section under `lock_arr_[k]`. -/
def ElementSection.after (sec : ElementSection) (k : Fin BUF_SIZE) (now : TIME) (b : TxDataBuf) :
    TxDataBuf :=
  { b with
    bookKeepArr := Function.update b.bookKeepArr k (sec.effect b.numRetrans now (b.bookKeepArr k))
    pktBuf := sec.bytes.elim b.pktBuf fun bs => b.pktBuf.write (k * PKT_SIZE) bs }

/-- A slot that is empty or outbound stays as it is. -/
theorem ElementSection.handOut_after_skip {b : TxDataBuf} {index : Nat} {now : TIME}
    (h : (b.slot index).status.isPkt = false) :
    (ElementSection.handOut index).after (Fin.ofNat BUF_SIZE index) now b = b := by
  have hslot : b.bookKeepArr (Fin.ofNat BUF_SIZE index) = b.slot index := rfl
  have hkeep : Function.update b.bookKeepArr (Fin.ofNat BUF_SIZE index) (b.slot index) =
      b.bookKeepArr := b.bookKeepArr.set_get_self index
  simp only [after, effect, bytes, Option.elim_none, hslot, h, Bool.false_eq_true, if_false,
    hkeep]

/-- A slot that is new or to be retransmitted becomes outbound. -/
theorem ElementSection.handOut_after_sent {b : TxDataBuf} {index : Nat} {now : TIME}
    (h : (b.slot index).status.isPkt = true) :
    (ElementSection.handOut index).after (Fin.ofNat BUF_SIZE index) now b =
      b.setSlot index ((b.slot index).sent now) := by
  have hslot : b.bookKeepArr (Fin.ofNat BUF_SIZE index) = b.slot index := rfl
  simp only [after, effect, bytes, Option.elim_none, hslot, h, if_true]
  rfl

theorem TxDataBuf.storePkt_ready {b : TxDataBuf} {p : Producer} {index seqNum : Nat}
    {pkt : List UInt8} {k : Fin BUF_SIZE} (now : TIME)
    (h : (ElementSection.storePkt p index seqNum pkt).Ready k (b.bookKeepArr k)) :
    b.storePkt index seqNum pkt =
      .ok ((ElementSection.storePkt p index seqNum pkt).after k now b) := by
  obtain ⟨rfl, hempty, -⟩ := h
  have hslot : (b.slot index).status = .empty := hempty
  unfold storePkt
  exact if_pos hslot

theorem TxDataBuf.handOut_ready {b : TxDataBuf} {index : Nat} {k : Fin BUF_SIZE} (now : TIME)
    (h : (ElementSection.handOut index).Ready k (b.bookKeepArr k)) :
    ∃ out, b.handOut index now = .ok (out, (ElementSection.handOut index).after k now b) := by
  obtain ⟨rfl, hpkt⟩ := h
  have hslot : b.bookKeepArr (Fin.ofNat BUF_SIZE index) = b.slot index := rfl
  rw [hslot] at hpkt
  cases hst : (b.slot index).status with
  | empty =>
    rw [ElementSection.handOut_after_skip (by simp [Status.isPkt, hst])]
    simp [handOut, hst]
  | occupiedOutbound =>
    rw [ElementSection.handOut_after_skip (by simp [Status.isPkt, hst])]
    simp [handOut, hst]
  | occupiedNew =>
    have hnew : (b.slot index).status.isPkt = true := by simp [Status.isPkt, hst]
    obtain ⟨hlen, hseq, -⟩ := hpkt hnew
    rw [ElementSection.handOut_after_sent hnew]
    simp [handOut, hst, hlen, hseq, BookKeeping.sent]
  | occupiedRetrans =>
    have hretrans : (b.slot index).status.isPkt = true := by simp [Status.isPkt, hst]
    obtain ⟨hlen, hseq, hnum⟩ := hpkt hretrans
    rw [ElementSection.handOut_after_sent hretrans]
    simp [handOut, hst, hlen, hseq, hnum hst, BookKeeping.sent]

namespace LockState

variable {s : LockState} {clock : Fin BUF_SIZE → TIME} {k : Fin BUF_SIZE} {i : Nat}
  {sec : ElementSection}

/-- A section that runs leaves the settled client alone. -/
theorem settled_after (h : s.lockArr k = some sec) (hready : sec.Ready k (s.buf.bookKeepArr k))
    (now : TIME) : ((s.setBuf (sec.after k now s.buf)).setElement k none).settled clock =
      s.settled (Function.update clock k now) := by
  have hbytes : ∀ bs, sec.bytes = some bs → bs.length ≤ PKT_SIZE := by
    intro bs hbs
    cases sec with
    | storePkt p index seqNum pkt =>
      cases hbs
      exact hready.2.2
    | handOut index => cases hbs
  have hupd : (s.setElement k none).updates clock =
      Function.update (s.updates (Function.update clock k now)) k none := by
    rw [updates_setElement]
    funext j
    by_cases hj : j = k
    · subst hj
      rw [Function.update_self, Function.update_self]
      rfl
    · rw [Function.update_of_ne hj, Function.update_of_ne hj]
      unfold updates
      rw [Function.update_of_ne hj]
  have hfly : s.updates (Function.update clock k now) k =
      some (sec.effect s.buf.numRetrans now) := by
    unfold updates
    rw [h, Function.update_self]
    rfl
  have harr : ((s.setBuf (sec.after k now s.buf)).setElement k none).settledArr clock =
      s.settledArr (Function.update clock k now) := by
    refine Eq.trans ?_ (settled_finish hfly)
    exact congrArg (Foundation.settled _) hupd
  have hmem : settledBytes PKT_SIZE (sec.after k now s.buf).pktBuf
      ((s.setBuf (sec.after k now s.buf)).setElement k none).writes =
        settledBytes PKT_SIZE s.buf.pktBuf s.writes := by
    have hwr : ((s.setBuf (sec.after k now s.buf)).setElement k none).writes =
        Function.update s.writes k none := writes_setElement _ k none
    have hat : s.writes k = sec.bytes := by
      unfold writes
      rw [h]
      rfl
    rw [hwr]
    cases hbs : sec.bytes with
    | none =>
      have hsame : Function.update s.writes k none = s.writes := by
        rw [← hbs, ← hat]
        exact Function.update_eq_self _ _
      rw [hsame, ElementSection.after, hbs]
      rfl
    | some bs =>
      rw [ElementSection.after, hbs]
      exact settledBytes_finish (hat.trans hbs) (hbytes bs hbs)
  unfold settled
  rw [harr]
  exact congrArg (fun m => { s.client with dataPktBuf := { s.buf with
    bookKeepArr := s.settledArr (Function.update clock k now), pktBuf := m } }) hmem

/-- A section that gets its lock has its effect on the settled client. -/
theorem settled_setElement (h : s.lockArr k = none)
    (hbytes : ∀ bs, sec.bytes = some bs → bs.length ≤ PKT_SIZE) :
    (s.setElement k (some sec)).settled clock =
      { s.settled clock with
        dataPktBuf := sec.after k (clock k) (s.settled clock).dataPktBuf } := by
  have hupd : (s.setElement k (some sec)).updates clock = Function.update (s.updates clock) k
      (some (sec.effect s.buf.numRetrans (clock k))) := updates_setElement s clock k (some sec)
  have hcell : s.settledArr clock k = s.buf.bookKeepArr k := settled_free (updates_free h)
  have harr : (s.setElement k (some sec)).settledArr clock =
      Function.update (s.settledArr clock) k
        (sec.effect s.buf.numRetrans (clock k) (s.settledArr clock k)) := by
    rw [hcell]
    exact (congrArg (Foundation.settled s.buf.bookKeepArr) hupd).trans
      (settled_begin (updates_free h) _)
  have hmem : settledBytes PKT_SIZE s.buf.pktBuf (s.setElement k (some sec)).writes =
      sec.bytes.elim (settledBytes PKT_SIZE s.buf.pktBuf s.writes) fun bs =>
        (settledBytes PKT_SIZE s.buf.pktBuf s.writes).write (k * PKT_SIZE) bs := by
    have hwr : (s.setElement k (some sec)).writes = Function.update s.writes k sec.bytes :=
      writes_setElement s k (some sec)
    rw [hwr]
    cases hbs : sec.bytes with
    | none =>
      have hsame : Function.update s.writes k none = s.writes := by
        rw [← writes_free h, Function.update_eq_self]
      rw [hsame]
      rfl
    | some bs => exact settledBytes_begin (writes_free h) (hbytes bs hbs)
  unfold settled
  rw [harr]
  exact congrArg (fun m => { s.client with dataPktBuf := { s.buf with
    bookKeepArr := Function.update (s.settledArr clock) k
      (sec.effect s.buf.numRetrans (clock k) (s.settledArr clock k))
    pktBuf := m } }) hmem

end LockState

/-! ### One pass of a loop, seen through the slots in flight -/

section Passes

variable {ap : WspaceAP} {now : TIME} {i : Nat}
  {F : CellRing BUF_SIZE BookKeeping → CellRing BUF_SIZE BookKeeping}

/-- The loop over the slots that `F` makes of its own. -/
def AckLoop.through (F : CellRing BUF_SIZE BookKeeping → CellRing BUF_SIZE BookKeeping)
    (s : AckLoop) : AckLoop :=
  { s with bookKeepArr := F s.bookKeepArr }

def TimeOutLoop.through (F : CellRing BUF_SIZE BookKeeping → CellRing BUF_SIZE BookKeeping)
    (s : TimeOutLoop) : TimeOutLoop :=
  { s with bookKeepArr := F s.bookKeepArr }

theorem AckLoop.resumeHere_through (s : AckLoop) :
    (s.through F).resumeHere i = (s.resumeHere i).through F := by
  obtain ⟨arr, headPtFinal, currPtFinal, isFirstUpdate, nacks⟩ := s
  cases isFirstUpdate <;> rfl

theorem TimeOutLoop.resumeAt_through (s : TimeOutLoop) (seqNum : Nat) :
    (s.through F).resumeAt seqNum = (s.resumeAt seqNum).map (TimeOutLoop.through F) := by
  obtain ⟨arr, headPtFinal, currPtFinal, isFirstUpdate, incrementTimeOut⟩ := s
  cases isFirstUpdate with
  | false => rfl
  | true =>
    by_cases hseq : seqNum ≥ 1 <;> simp [resumeAt, through, hseq, Except.map]

section Pass

variable (hget : ∀ arr, (F arr).get i = arr.get i)
  (hset : ∀ arr bk, F (arr.set i bk) = (F arr).set i bk)

include hset in
/-- A slot is marked for retransmission. -/
theorem AckLoop.mark_through (arr : CellRing BUF_SIZE BookKeeping) (bk : BookKeeping)
    (l : AckLocals) : (l.on ((F arr).set i bk)).resumeHere i =
      ((l.on (arr.set i bk)).resumeHere i).through F := by
  rw [← hset]
  exact AckLoop.resumeHere_through (l.on (arr.set i bk))

include hget hset

theorem AckLoop.release_through (s : AckLoop) :
    (s.through F).release i = (s.release i).through F := by
  unfold release through
  simp only [hget, hset]

/-- A pass of the loop of `HandleDataAck` reads and writes its own slot only. -/
theorem AckLoop.visit_through (s : AckLoop) :
    AckLoop.visit ap now (s.through F) i = (AckLoop.visit ap now s i).through F := by
  have hbk : (s.through F).bookKeepArr.get i = s.bookKeepArr.get i := hget _
  have hnacks : (s.through F).nacks = s.nacks := rfl
  have hrelease := AckLoop.release_through hget hset s
  unfold AckLoop.visit
  simp only [hbk, hnacks, hrelease, resumeHere_through]
  cases (s.bookKeepArr.get i).status with
  | empty =>
    cases s.nacks with
    | nil =>
      simp only [through]
      by_cases hhead : s.headPtFinal = i <;> simp [hhead]
    | cons nack rest =>
      simp only [through]
      by_cases hnack : uint32Sub nack 1 % BUF_SIZE = i % BUF_SIZE <;>
        by_cases hhead : s.headPtFinal = i <;> simp [hnack, hhead]
  | occupiedOutbound =>
    cases s.nacks with
    | nil => rfl
    | cons nack rest =>
      have hmark := AckLoop.mark_through hset s.bookKeepArr
        { s.bookKeepArr.get i with status := .occupiedRetrans }
        ⟨s.headPtFinal, s.currPtFinal, s.isFirstUpdate, nack :: rest⟩
      simp only []
      split_ifs
      · rfl
      · exact congrArg (fun r : AckLoop => { r with nacks := rest }) hmark
      · rfl
      · rfl
  | occupiedNew =>
    cases s.nacks with
    | nil => rfl
    | cons nack rest =>
      simp only []
      split_ifs <;> rfl
  | occupiedRetrans =>
    cases s.nacks with
    | nil => rfl
    | cons nack rest =>
      simp only []
      split_ifs <;> rfl

/-- A pass of the loop of `HandleTimeOut` reads and writes its own slot only. -/
theorem TimeOutLoop.visit_through (s : TimeOutLoop) :
    TimeOutLoop.visit ap now (s.through F) i =
      (TimeOutLoop.visit ap now s i).map fun r => (r.1.through F, r.2) := by
  have hbk : (s.through F).bookKeepArr.get i = s.bookKeepArr.get i := hget _
  unfold TimeOutLoop.visit
  simp only [hbk]
  cases hst : (s.bookKeepArr.get i).status with
  | empty => rfl
  | occupiedNew => rfl
  | occupiedRetrans =>
    simp only [resumeAt_through]
    cases s.resumeAt (s.bookKeepArr.get i).seqNum <;> rfl
  | occupiedOutbound =>
    have hresume := @TimeOutLoop.resumeAt_through F { s with incrementTimeOut := true }
      (s.bookKeepArr.get i).seqNum
    by_cases hzero : (s.bookKeepArr.get i).numRetrans = 0
    · simp only [if_pos hzero, Except.map, through, hset]
      rfl
    · by_cases hlate : now.sub (s.bookKeepArr.get i).timestamp / 1000 > ap.rtt * (12 / 10)
      · simp only [if_neg hzero, if_pos hlate]
        refine Eq.trans (congrArg (· >>= _) hresume) ?_
        cases TimeOutLoop.resumeAt { s with incrementTimeOut := true }
          (s.bookKeepArr.get i).seqNum with
        | error e => rfl
        | ok r => simp [bind, Except.bind, Except.map, through, hset]
      · simp only [if_neg hzero, if_neg hlate]
        rfl

end Pass

/-- A pass of the loop of `HandleDataAck` leaves every other slot alone. -/
theorem AckLoop.visit_other (s : AckLoop) {j : Fin BUF_SIZE} (hj : j ≠ Fin.ofNat BUF_SIZE i) :
    (AckLoop.visit ap now s i).bookKeepArr j = s.bookKeepArr j := by
  have hthrough := @AckLoop.visit_through ap now i (fun arr => s.bookKeepArr.set i (arr.get i))
    (fun arr => s.bookKeepArr.get_set_self i _) (fun arr => s.bookKeepArr.set_get_set arr i) s
  have hself : s.through (fun arr => s.bookKeepArr.set i (arr.get i)) = s :=
    congrArg (fun arr => { s with bookKeepArr := arr }) (s.bookKeepArr.set_get_self i)
  rw [hself] at hthrough
  rw [hthrough]
  exact Function.update_of_ne hj _ _

/-- A pass of the loop of `HandleTimeOut` leaves every other slot alone. -/
theorem TimeOutLoop.visit_other {s : TimeOutLoop} {r : TimeOutLoop × Bool}
    (hrun : TimeOutLoop.visit ap now s i = .ok r) {j : Fin BUF_SIZE}
    (hj : j ≠ Fin.ofNat BUF_SIZE i) : r.1.bookKeepArr j = s.bookKeepArr j := by
  have hthrough := @TimeOutLoop.visit_through ap now i
    (fun arr => s.bookKeepArr.set i (arr.get i)) (fun arr => s.bookKeepArr.get_set_self i _)
    (fun arr => s.bookKeepArr.set_get_set arr i) s
  have hself : s.through (fun arr => s.bookKeepArr.set i (arr.get i)) = s :=
    congrArg (fun arr => { s with bookKeepArr := arr }) (s.bookKeepArr.set_get_self i)
  rw [hself, hrun] at hthrough
  have heq := Except.ok.inj hthrough
  have harr : r.1.bookKeepArr = s.bookKeepArr.set i (r.1.bookKeepArr.get i) :=
    congrArg (fun r : TimeOutLoop × Bool => r.1.bookKeepArr) heq
  rw [harr]
  exact Function.update_of_ne hj _ _

end Passes

end WspaceScout
