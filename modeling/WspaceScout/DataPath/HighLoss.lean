import Mathlib.Tactic.Linarith
import Mathlib.Tactic.NormNum
import WspaceScout.DataPath.Handlers
import WspaceScout.Foundation.Machine

/-!
# The high-loss fallback

`HandleTimeOut` sets all losses high and flushes the raw packet buffer after a number of timeouts
in a row. Ten duplicate acks have the same effect, for which `HandleDataAck` sets the counter of
timeouts to its limit. Here the data-ack thread keeps a log of what it has handled, and the
fallback is compared with the log.

## Main definitions

- `HighLossState` — a client, the log and whether a timeout is due
- `dupRun`, `timeOutRun` — the runs of duplicates and of timeouts at the end of a log
- `FallbackRight` — what the fallback must respect in a state
- `HighLossState.Called` — runs in which other threads only enqueue and dequeue packets

## Main results

- `applyTimeOut_increment` — what the flag of `HandleTimeOut` says about the slots
- `HighLossInv.step` — the counters are the runs of the log
- `highLossMachine_fires` — when the fallback fires, in every run, and the one limit with which it
  need not
-/

namespace WspaceScout

open Foundation

/-! ### What a timeout does to the slots -/

/-- Some slot that waited for its ack is to be retransmitted now. -/
def NewlyRetrans (b b' : TxDataBuf) : Prop :=
  ∃ i : Fin BUF_SIZE, (b.slot i).status = .occupiedOutbound ∧
    (b'.slot i).status = .occupiedRetrans

instance (b b' : TxDataBuf) : Decidable (NewlyRetrans b b') :=
  inferInstanceAs (Decidable (∃ i : Fin BUF_SIZE, (b.slot i).status = .occupiedOutbound ∧
    (b'.slot i).status = .occupiedRetrans))

/-- The loop of `HandleTimeOut` so far: slots have kept their status, or have waited for an ack and
do so no longer, and the flag says whether one of these is to be retransmitted. -/
structure TimeOutMarks (arr0 : CellRing BUF_SIZE BookKeeping) (s : TimeOutLoop) : Prop where
  kept : ∀ i, (s.bookKeepArr.get i).status = (arr0.get i).status ∨
    (arr0.get i).status = .occupiedOutbound ∧ (s.bookKeepArr.get i).status ≠ .occupiedOutbound
  flag : s.incrementTimeOut = true ↔ ∃ i, (arr0.get i).status = .occupiedOutbound ∧
    (s.bookKeepArr.get i).status = .occupiedRetrans

section Marks

variable {ap : WspaceAP} {now : TIME} {arr0 : CellRing BUF_SIZE BookKeeping}
  {s s' : TimeOutLoop} {index : Nat} {brk : Bool}

theorem TimeOutMarks.congr (h : TimeOutMarks arr0 s) (harr : s'.bookKeepArr = s.bookKeepArr)
    (hflag : s'.incrementTimeOut = s.incrementTimeOut) : TimeOutMarks arr0 s' := by
  refine ⟨fun i => ?_, ?_⟩
  · rw [harr]
    exact h.kept i
  · rw [harr, hflag]
    exact h.flag

theorem TimeOutLoop.resumeAt_spec {seqNum : Nat} (h : s.resumeAt seqNum = .ok s') :
    s'.bookKeepArr = s.bookKeepArr ∧ s'.incrementTimeOut = s.incrementTimeOut := by
  rw [TimeOutLoop.resumeAt] at h
  split at h
  · split at h
    · cases h
      exact ⟨rfl, rfl⟩
    · cases h
  · cases h
    exact ⟨rfl, rfl⟩

/-- The cell of `index` is rewritten from waiting to another status. -/
theorem TimeOutMarks.set (h : TimeOutMarks arr0 s)
    (hout : (s.bookKeepArr.get index).status = .occupiedOutbound) (bk : BookKeeping)
    (hbk : bk.status ≠ .occupiedOutbound)
    (harr : s'.bookKeepArr = s.bookKeepArr.set index bk)
    (hflag : s'.incrementTimeOut = true ↔
      s.incrementTimeOut = true ∨ bk.status = .occupiedRetrans) :
    TimeOutMarks arr0 s' := by
  have hout0 : (arr0.get index).status = .occupiedOutbound := by
    obtain heq | ⟨-, hne⟩ := h.kept index
    · rw [← heq, hout]
    · exact absurd hout hne
  have hsame : ∀ i, i % BUF_SIZE ≠ index % BUF_SIZE →
      s'.bookKeepArr.get i = s.bookKeepArr.get i := by
    intro i hne
    rw [harr, CellRing.get_set_of_ne _ _ hne]
  have hself : ∀ i, i % BUF_SIZE = index % BUF_SIZE →
      s'.bookKeepArr.get i = bk ∧ arr0.get i = arr0.get index ∧
        s.bookKeepArr.get i = s.bookKeepArr.get index := by
    intro i heq
    have hcell : Fin.ofNat BUF_SIZE i = Fin.ofNat BUF_SIZE index := CellRing.ofNat_eq_iff.mpr heq
    refine ⟨?_, congrArg arr0 hcell, congrArg s.bookKeepArr hcell⟩
    rw [harr, CellRing.get, hcell]
    exact CellRing.get_set_self _ _ _
  refine ⟨fun i => ?_, ?_⟩
  · by_cases hi : i % BUF_SIZE = index % BUF_SIZE
    · obtain ⟨hnew, h0, -⟩ := hself i hi
      rw [hnew, h0]
      exact .inr ⟨hout0, hbk⟩
    · rw [hsame i hi]
      exact h.kept i
  · rw [hflag, h.flag]
    constructor
    · rintro (⟨i, hi0, hi⟩ | hretrans)
      · refine ⟨i, hi0, ?_⟩
        rw [hsame i ?_, hi]
        intro hcell
        rw [(hself i hcell).2.2, hout] at hi
        cases hi
      · refine ⟨index, hout0, ?_⟩
        rw [(hself index rfl).1, hretrans]
    · rintro ⟨i, hi0, hi⟩
      by_cases hcell : i % BUF_SIZE = index % BUF_SIZE
      · rw [(hself i hcell).1] at hi
        exact .inr hi
      · rw [hsame i hcell] at hi
        exact .inl ⟨i, hi0, hi⟩

/-- One pass of the loop. -/
theorem TimeOutMarks.visit (h : TimeOutMarks arr0 s)
    (hvisit : TimeOutLoop.visit ap now s index = .ok (s', brk)) : TimeOutMarks arr0 s' := by
  simp only [TimeOutLoop.visit] at hvisit
  split at hvisit
  · obtain ⟨s₁, hresume, hvisit⟩ := bind_eq_ok.mp hvisit
    cases hvisit
    obtain ⟨harr, hflag⟩ := TimeOutLoop.resumeAt_spec hresume
    exact h.congr harr hflag
  · next hout =>
    split at hvisit
    · -- no retransmission is left
      cases hvisit
      refine h.set hout (s.bookKeepArr.get index).free ?_ rfl ?_
      · exact Status.noConfusion
      · simp [BookKeeping.free, BookKeeping.update]
    · split at hvisit
      · obtain ⟨s₁, hresume, hvisit⟩ := bind_eq_ok.mp hvisit
        cases hvisit
        obtain ⟨harr, hflag⟩ := TimeOutLoop.resumeAt_spec hresume
        refine h.set hout { s.bookKeepArr.get index with status := .occupiedRetrans } ?_ ?_ ?_
        · exact Status.noConfusion
        · rw [← harr]
        · simp [hflag]
      · cases hvisit
        exact h
  · cases hvisit
    exact h.congr rfl rfl
  · cases hvisit
    exact h

/-- `increment_time_out`. -/
theorem applyTimeOut_increment {b b' : TxDataBuf} {inc : Bool}
    (h : applyTimeOut ap now b = .ok (inc, b')) : inc = true ↔ NewlyRetrans b b' := by
  obtain ⟨s, hloop, h⟩ := bind_eq_ok.mp h
  cases h
  have hends : Ends (TimeOutMarks b.bookKeepArr) (fun _ => True) (countUp
      (TimeOutLoop.visit ap now) b.headPt (b.tailPt - b.headPt)
      ⟨b.bookKeepArr, b.headPt, b.currPt, true, false⟩) := by
    refine countUp_ends (I := fun _ => TimeOutMarks b.bookKeepArr) _ _ _ _ ?_ ?_ fun _ hs => hs
    · refine ⟨fun i => .inl rfl, ?_⟩
      simp only [Bool.false_eq_true, false_iff, not_exists, not_and]
      intro i hout hretrans
      rw [hout] at hretrans
      cases hretrans
    · intro i s _ _ hs
      cases hvisit : TimeOutLoop.visit ap now s i with
      | error e => trivial
      | ok r => exact ⟨fun _ => hs.visit hvisit, fun _ => hs.visit hvisit⟩
  rw [hloop] at hends
  have hflag : s.incrementTimeOut = true ↔ ∃ i, (b.bookKeepArr.get i).status = .occupiedOutbound ∧
      (s.bookKeepArr.get i).status = .occupiedRetrans := hends.flag
  rw [hflag]
  constructor
  · rintro ⟨i, hi⟩
    have hcell : Fin.ofNat BUF_SIZE (Fin.ofNat BUF_SIZE i).val = Fin.ofNat BUF_SIZE i := by
      rw [CellRing.ofNat_eq_iff, Fin.val_ofNat, Nat.mod_mod]
    refine ⟨Fin.ofNat BUF_SIZE i, ?_⟩
    simp only [TxDataBuf.slot, CellRing.get, hcell]
    exact hi
  · rintro ⟨i, hi⟩
    exact ⟨i, hi⟩

end Marks

/-! ### The log -/

/-- Why `HandleTimeOut` is called: `HandleDataAck` has asked for it, or no ack has come in time. -/
inductive TimeOutCause where
  | dupAck
  | ackTimeOut
  deriving DecidableEq, Repr

/-- What the data-ack thread has handled. -/
inductive AckEntry where
  /-- an ack that is out of order or has the end 0 -/
  | old
  | dup
  | fresh
  /-- a call of `HandleTimeOut`: whether it newly put a packet into retransmission, and whether it
  fired -/
  | timeOut (cause : TimeOutCause) (newRetrans fired : Bool)
  deriving DecidableEq, Repr

/-- The duplicates since the last fresh ack or the last timeout that duplicates caused. The latest
entry comes first. -/
def dupRun : List AckEntry → Nat
  | [] => 0
  | .dup :: log => dupRun log + 1
  | .fresh :: _ => 0
  | .timeOut .dupAck _ _ :: _ => 0
  | .old :: log => dupRun log
  | .timeOut .ackTimeOut _ _ :: log => dupRun log

/-- The calls of `HandleTimeOut` in a row that newly put a packet into retransmission, since the
last fresh ack or the last time that it fired. -/
def timeOutRun : List AckEntry → Nat
  | [] => 0
  | .fresh :: _ => 0
  | .timeOut _ newRetrans fired :: log =>
    if fired then 0 else if newRetrans then timeOutRun log + 1 else 0
  | .old :: log => timeOutRun log
  | .dup :: log => timeOutRun log

/-- What a call of `HandleTimeOut` does after `earlier`: it is called for the sake of duplicates
exactly after the last of ten, and fires exactly then or if it is the `M`-th of its run. -/
def FiresRightly (M : Int) (cause : TimeOutCause) (newRetrans fired : Bool)
    (earlier : List AckEntry) : Prop :=
  (cause = .dupAck ↔ earlier.head? = some .dup ∧ dupRun earlier = kMaxDupAckCnt) ∧
    (fired = true ↔ cause = .dupAck ∨ newRetrans = true ∧ timeOutRun earlier + 1 = M)

/-- Every call in the log does so. -/
def Explained (M : Int) : List AckEntry → Prop
  | [] => True
  | .timeOut cause newRetrans fired :: log =>
    FiresRightly M cause newRetrans fired log ∧ Explained M log
  | _ :: log => Explained M log

theorem Explained.at {M : Int} {later earlier : List AckEntry} {cause : TimeOutCause}
    {newRetrans fired : Bool}
    (h : Explained M (later ++ .timeOut cause newRetrans fired :: earlier)) :
    FiresRightly M cause newRetrans fired earlier := by
  induction later with
  | nil => exact h.1
  | cons e later ih =>
    cases e with
    | old | dup | fresh => exact ih h
    | timeOut cause' newRetrans' fired' => exact ih h.2

/-! ### The data-ack thread -/

/-- A client, the log, and whether `HandleDataAck` has asked for a timeout. -/
structure HighLossState where
  client : ClientContext
  log : List AckEntry
  timeOutDue : Bool

/-- Steps of `TxHandleDataAck`, and of the threads that use the buffer. -/
inductive HighLossInput where
  | handleDataAck (now : TIME) (ack : DataAck)
  | handleTimeOut (now : TIME)
  | otherThread (buf : TxDataBuf)

namespace HighLossState

/-- How `HandleDataAck` classifies an ack. -/
def entryOf (c : ClientContext) (ack : DataAck) : AckEntry :=
  if ack.ackSeq < c.expectDataAckSeq ∨ ack.endSeq = 0 then .old
  else if uint32Sub ack.endSeq 1 < c.dataPktBuf.headPt then .dup
  else .fresh

/-- Handle the next event and log it. -/
def exec (ap : WspaceAP) (s : HighLossState) : HighLossInput → Except Fault HighLossState
  | .handleDataAck now ack =>
    let (due, c) := handleDataAck ap now s.client ack
    .ok ⟨c, entryOf s.client ack :: s.log, due⟩
  | .handleTimeOut now => do
    let (fired, c) ← handleTimeOut ap now s.client
    let cause := if s.timeOutDue then TimeOutCause.dupAck else .ackTimeOut
    let newRetrans := decide (NewlyRetrans s.client.dataPktBuf c.dataPktBuf)
    .ok ⟨c, .timeOut cause newRetrans fired :: s.log, false⟩
  | .otherThread buf => .ok { s with client := { s.client with dataPktBuf := buf } }

/-- While a timeout is due, no ack is handled. -/
def enabled (s : HighLossState) : HighLossInput → Prop
  | .handleDataAck _ _ => s.timeOutDue = false
  | .handleTimeOut _ => True
  | .otherThread _ => True

end HighLossState

/-- `TxHandleDataAck` for one client, while other threads do what they like with the buffer. -/
def highLossMachine (ap : WspaceAP) : Machine HighLossState HighLossInput Fault where
  init s := ∃ boot numRetrans, s = ⟨.init boot numRetrans, [], false⟩
  enabled := HighLossState.enabled
  exec := HighLossState.exec ap

/-! ### The counters -/

section Counters

variable {ap : WspaceAP} {now : TIME} {c c' : ClientContext} {ack : DataAck} {due fired : Bool}

/-- What an ack does to the counters. -/
theorem handleDataAck_counters (h : handleDataAck ap now c ack = (due, c')) :
    match HighLossState.entryOf c ack with
    | .old => due = false ∧ c'.dupDataAckCnt = c.dupDataAckCnt ∧
        c'.contiguousTimeOut = c.contiguousTimeOut
    | .dup =>
      if c.dupDataAckCnt + 1 ≥ kMaxDupAckCnt then
        due = true ∧ c'.dupDataAckCnt = 0 ∧ c'.contiguousTimeOut = ap.maxContiguousTimeOut
      else
        due = false ∧ c'.dupDataAckCnt = c.dupDataAckCnt + 1 ∧
          c'.contiguousTimeOut = c.contiguousTimeOut
    | _ => due = false ∧ c'.dupDataAckCnt = 0 ∧ c'.contiguousTimeOut = 0 := by
  simp only [handleDataAck] at h
  by_cases hold : ack.ackSeq < c.expectDataAckSeq
  · rw [if_pos hold] at h
    cases h
    rw [HighLossState.entryOf, if_pos (.inl hold)]
    exact ⟨rfl, rfl, rfl⟩
  · rw [if_neg hold] at h
    by_cases hend : ack.endSeq = 0
    · rw [if_pos hend] at h
      cases h
      rw [HighLossState.entryOf, if_pos (.inr hend)]
      exact ⟨rfl, rfl, rfl⟩
    · rw [if_neg hend] at h
      rw [HighLossState.entryOf, if_neg (not_or.mpr ⟨hold, hend⟩)]
      by_cases hdup : uint32Sub ack.endSeq 1 < c.dataPktBuf.headPt
      · rw [if_pos hdup] at h ⊢
        dsimp only
        by_cases hmax : c.dupDataAckCnt + 1 ≥ kMaxDupAckCnt
        · rw [if_pos hmax] at h ⊢
          cases h
          exact ⟨rfl, rfl, rfl⟩
        · rw [if_neg hmax] at h ⊢
          cases h
          exact ⟨rfl, rfl, rfl⟩
      · rw [if_neg hdup] at h ⊢
        cases h
        exact ⟨rfl, rfl, rfl⟩

/-- What a timeout does to the counters. -/
theorem handleTimeOut_counters (h : handleTimeOut ap now c = .ok (fired, c')) :
    c'.dupDataAckCnt = c.dupDataAckCnt ∧ ∃ cnt : Int,
      (NewlyRetrans c.dataPktBuf c'.dataPktBuf → cnt = wrapInt32 (c.contiguousTimeOut + 1)) ∧
      (¬NewlyRetrans c.dataPktBuf c'.dataPktBuf →
        cnt = if c.contiguousTimeOut < ap.maxContiguousTimeOut then 0 else c.contiguousTimeOut) ∧
      (fired = true ↔ ap.maxContiguousTimeOut ≤ cnt) ∧
      c'.contiguousTimeOut = if fired then 0 else cnt := by
  obtain ⟨⟨inc, b⟩, happly, h⟩ := bind_eq_ok.mp h
  have hinc := applyTimeOut_increment happly
  dsimp only at h
  generalize hcnt : (if inc = true then wrapInt32 (c.contiguousTimeOut + 1)
    else if c.contiguousTimeOut < ap.maxContiguousTimeOut then 0
    else c.contiguousTimeOut) = cnt at h
  by_cases hmax : cnt ≥ ap.maxContiguousTimeOut
  · rw [if_pos hmax] at h
    cases h
    refine ⟨rfl, cnt, fun hnew => ?_, fun hnot => ?_, iff_of_true rfl hmax, rfl⟩
    · rw [← hcnt, if_pos (hinc.mpr hnew)]
    · rw [← hcnt, if_neg fun h => hnot (hinc.mp h)]
  · rw [if_neg hmax] at h
    cases h
    refine ⟨rfl, cnt, fun hnew => ?_, fun hnot => ?_, iff_of_false Bool.false_ne_true hmax, rfl⟩
    · rw [← hcnt, if_pos (hinc.mpr hnew)]
    · rw [← hcnt, if_neg fun h => hnot (hinc.mp h)]

end Counters

/-- The counters are the runs of the log; while a timeout is due, they are set for it to fire. -/
structure HighLossInv (M : Int) (s : HighLossState) : Prop where
  explained : Explained M s.log
  idle : s.timeOutDue = false →
    s.client.contiguousTimeOut = timeOutRun s.log ∧ s.client.contiguousTimeOut < M ∧
      s.client.dupDataAckCnt = dupRun s.log ∧ s.client.dupDataAckCnt < kMaxDupAckCnt
  due : s.timeOutDue = true →
    s.client.contiguousTimeOut = M ∧ s.client.dupDataAckCnt = 0 ∧
      s.log.head? = some .dup ∧ dupRun s.log = kMaxDupAckCnt

section Steps

variable {ap : WspaceAP} {s s' : HighLossState} {now : TIME} {ack : DataAck}

theorem HighLossInv.dataAck (h : HighLossInv ap.maxContiguousTimeOut s)
    (hM : 0 < ap.maxContiguousTimeOut) (hidle : s.timeOutDue = false)
    (hex : s.exec ap (.handleDataAck now ack) = .ok s') :
    HighLossInv ap.maxContiguousTimeOut s' := by
  have hmaxDup : kMaxDupAckCnt = 10 := rfl
  obtain ⟨hcnt, hlt, hdup, hdupLt⟩ := h.idle hidle
  cases hack : handleDataAck ap now s.client ack with
  | mk due c =>
    simp only [HighLossState.exec, hack] at hex
    cases hex
    have hspec := handleDataAck_counters hack
    cases hentry : HighLossState.entryOf s.client ack with
    | old =>
      rw [hentry] at hspec
      obtain ⟨rfl, hdup', hcnt'⟩ := hspec
      refine ⟨h.explained, fun _ => ?_, fun hdue => absurd hdue Bool.false_ne_true⟩
      dsimp only
      rw [hdup', hcnt']
      exact ⟨hcnt, hlt, hdup, hdupLt⟩
    | dup =>
      rw [hentry] at hspec
      dsimp only at hspec
      split at hspec
      · next hmax =>
        obtain ⟨rfl, hdup', hcnt'⟩ := hspec
        refine ⟨h.explained, fun hno => absurd hno.symm Bool.false_ne_true, fun _ => ?_⟩
        refine ⟨hcnt', hdup', rfl, ?_⟩
        simp only [dupRun]
        push_cast
        omega
      · next hmax =>
        obtain ⟨rfl, hdup', hcnt'⟩ := hspec
        refine ⟨h.explained, fun _ => ?_, fun hdue => absurd hdue Bool.false_ne_true⟩
        dsimp only
        rw [hdup', hcnt']
        refine ⟨hcnt, hlt, ?_, by omega⟩
        simp only [dupRun]
        push_cast
        omega
    | fresh =>
      rw [hentry] at hspec
      obtain ⟨rfl, hdup', hcnt'⟩ := hspec
      refine ⟨h.explained, fun _ => ?_, fun hdue => absurd hdue Bool.false_ne_true⟩
      dsimp only
      rw [hdup', hcnt']
      exact ⟨rfl, hM, rfl, by omega⟩
    | timeOut cause newRetrans fired =>
      rw [HighLossState.entryOf] at hentry
      split at hentry
      · cases hentry
      · split at hentry <;> cases hentry

/-- A timeout that duplicates have asked for fires, if the counter has room for one more. -/
theorem HighLossInv.timeOutDue (h : HighLossInv ap.maxContiguousTimeOut s)
    (hM : 0 < ap.maxContiguousTimeOut) (hroom : ap.maxContiguousTimeOut < 2147483647)
    (hdue : s.timeOutDue = true)
    (hex : s.exec ap (.handleTimeOut now) = .ok s') :
    HighLossInv ap.maxContiguousTimeOut s' := by
  obtain ⟨hcnt, hdup, hhead, hrun⟩ := h.due hdue
  obtain ⟨⟨fired, c⟩, htimeOut, hex⟩ := bind_eq_ok.mp hex
  obtain ⟨hdup', cnt, hnew, hnot, hfired, hcnt'⟩ := handleTimeOut_counters htimeOut
  have hmax : ap.maxContiguousTimeOut ≤ cnt := by
    by_cases hretrans : NewlyRetrans s.client.dataPktBuf c.dataPktBuf
    · rw [hnew hretrans, wrapInt32_of_fits (by omega) (by omega)]
      omega
    · rw [hnot hretrans, if_neg (by omega)]
      omega
  obtain rfl := hfired.mpr hmax
  simp only [hdue, if_true] at hex
  cases hex
  refine ⟨⟨⟨iff_of_true rfl ⟨hhead, hrun⟩, iff_of_true rfl (.inl rfl)⟩, h.explained⟩, fun _ => ?_,
    fun hno => absurd hno Bool.false_ne_true⟩
  dsimp only
  rw [hcnt', hdup', hdup]
  exact ⟨rfl, hM, rfl, by decide⟩

/-- Any other timeout fires as the last of its run. -/
theorem HighLossInv.timeOutIdle (h : HighLossInv ap.maxContiguousTimeOut s)
    (hM : 0 < ap.maxContiguousTimeOut) (hroom : ap.maxContiguousTimeOut < 2147483647)
    (hidle : s.timeOutDue = false) (hex : s.exec ap (.handleTimeOut now) = .ok s') :
    HighLossInv ap.maxContiguousTimeOut s' := by
  obtain ⟨hcnt, hlt, hdup, hdupLt⟩ := h.idle hidle
  obtain ⟨⟨fired, c⟩, htimeOut, hex⟩ := bind_eq_ok.mp hex
  obtain ⟨hdup', cnt, hnew, hnot, hfired, hcnt'⟩ := handleTimeOut_counters htimeOut
  simp only [hidle, Bool.false_eq_true, if_false] at hex
  cases hex
  have hcause : TimeOutCause.ackTimeOut = .dupAck ↔
      s.log.head? = some .dup ∧ dupRun s.log = kMaxDupAckCnt := by
    refine iff_of_false TimeOutCause.noConfusion fun hten => ?_
    omega
  by_cases hretrans : NewlyRetrans s.client.dataPktBuf c.dataPktBuf
  · have hcntNew := hnew hretrans
    rw [wrapInt32_of_fits (by omega) (by omega)] at hcntNew
    have hlast : fired = true ↔ (timeOutRun s.log : Int) + 1 = ap.maxContiguousTimeOut := by
      rw [hfired]
      omega
    refine ⟨⟨⟨hcause, ?_⟩, h.explained⟩, fun _ => ?_, fun hno => absurd hno Bool.false_ne_true⟩
    · rw [hlast]
      simp [hretrans]
    · dsimp only
      rw [hcnt', hdup']
      simp only [timeOutRun, dupRun, hretrans, decide_true, if_true]
      cases fired with
      | true => exact ⟨rfl, hM, hdup, hdupLt⟩
      | false =>
        have hbelow : ¬ap.maxContiguousTimeOut ≤ cnt := fun hge =>
          Bool.false_ne_true (hfired.mpr hge)
        simp only [Bool.false_eq_true, if_false]
        push_cast
        omega
  · have hcntNot : cnt = 0 := by rw [hnot hretrans, if_pos hlt]
    have hquiet : fired = false := by
      by_contra hfire
      have hge := hfired.mp (by simpa using hfire)
      omega
    subst hquiet
    refine ⟨⟨⟨hcause, ?_⟩, h.explained⟩, fun _ => ?_, fun hno => absurd hno Bool.false_ne_true⟩
    · simp [hretrans]
    · dsimp only
      rw [hcnt', hdup', hcntNot]
      simp only [timeOutRun, dupRun, hretrans, decide_false, Bool.false_eq_true, if_false]
      exact ⟨rfl, hM, hdup, hdupLt⟩

/-- The step lemma. -/
theorem HighLossInv.step {input : HighLossInput} (h : HighLossInv ap.maxContiguousTimeOut s)
    (hM : 0 < ap.maxContiguousTimeOut) (hroom : ap.maxContiguousTimeOut < 2147483647)
    (hen : s.enabled input) (hex : s.exec ap input = .ok s') :
    HighLossInv ap.maxContiguousTimeOut s' := by
  cases input with
  | handleDataAck now ack => exact h.dataAck hM hen hex
  | handleTimeOut now =>
    cases hdue : s.timeOutDue with
    | true => exact h.timeOutDue hM hroom hdue hex
    | false => exact h.timeOutIdle hM hroom hdue hex
  | otherThread buf =>
    cases hex
    exact ⟨h.explained, h.idle, h.due⟩

end Steps

theorem highLossMachine_inv {ap : WspaceAP} (hM : 0 < ap.maxContiguousTimeOut)
    (hroom : ap.maxContiguousTimeOut < 2147483647) {s : HighLossState}
    (h : (highLossMachine ap).Reachable s) : HighLossInv ap.maxContiguousTimeOut s := by
  refine h.invariant ?_ fun s input s' _ ih hen hex => ih.step hM hroom hen hex
  rintro s ⟨boot, numRetrans, rfl⟩
  have hmaxDup : (0 : Int) < kMaxDupAckCnt := by decide
  exact ⟨trivial, fun _ => ⟨rfl, hM, rfl, hmaxDup⟩, fun hno => absurd hno Bool.false_ne_true⟩

/-- Every call of `HandleTimeOut` so far fires exactly if it is called because of the tenth
duplicate since the last fresh ack or the last such call, or if it is the `M`-th call in a row that
newly put a packet into retransmission. Both counters are below their limits, and old acks leave
them alone. -/
structure FallbackRight (ap : WspaceAP) (s : HighLossState) : Prop where
  fires : ∀ later earlier cause newRetrans fired,
    s.log = later ++ .timeOut cause newRetrans fired :: earlier →
      FiresRightly ap.maxContiguousTimeOut cause newRetrans fired earlier
  counters : s.timeOutDue = false →
    0 ≤ s.client.contiguousTimeOut ∧ s.client.contiguousTimeOut < ap.maxContiguousTimeOut ∧
    0 ≤ s.client.dupDataAckCnt ∧ s.client.dupDataAckCnt < kMaxDupAckCnt
  old : ∀ now ack, ack.ackSeq < s.client.expectDataAckSeq ∨ ack.endSeq = 0 →
    (handleDataAck ap now s.client ack).1 = false ∧
    (handleDataAck ap now s.client ack).2.dupDataAckCnt = s.client.dupDataAckCnt ∧
    (handleDataAck ap now s.client ack).2.contiguousTimeOut = s.client.contiguousTimeOut

theorem HighLossInv.right {ap : WspaceAP} {s : HighLossState}
    (h : HighLossInv ap.maxContiguousTimeOut s) : FallbackRight ap s where
  fires later earlier cause newRetrans fired hlog := (hlog ▸ h.explained).at
  counters hidle := by
    obtain ⟨hcnt, hlt, hdup, hdupLt⟩ := h.idle hidle
    omega
  old now ack hold := by
    have hspec := handleDataAck_counters (Eq.refl (handleDataAck ap now s.client ack))
    rwa [HighLossState.entryOf, if_pos hold] at hspec

/-! ### Ten duplicates -/

/-- What a call of `EnqueuePkt` or `DequeuePkt` makes of the buffer. -/
inductive BufferCall (b : TxDataBuf) : TxDataBuf → Prop where
  | enqueuePkt {pkt : List UInt8} {b' : TxDataBuf} (h : b.enqueuePkt pkt = .ok b') :
      BufferCall b b'
  | dequeuePkt {now : TIME} {out : Dequeued} {b' : TxDataBuf} (hpkt : b.isEmpty = false)
      (h : b.dequeuePkt now = .ok (out, b')) : BufferCall b b'

/-- Other threads do no more than that. -/
def HighLossState.Called (s : HighLossState) (input : HighLossInput) : Prop :=
  ∀ buf, input = .otherThread buf → BufferCall s.client.dataPktBuf buf

/-- A packet of one byte has been enqueued and handed out. -/
structure SentNext (b b' : TxDataBuf) : Prop where
  headPt : b'.headPt = b.headPt
  currPt : b'.currPt = b.tailPt + 1
  tailPt : b'.tailPt = b.tailPt + 1
  numRetrans : b'.numRetrans = b.numRetrans
  slot : b'.slot b.tailPt =
    ⟨b.tailPt + 1, .occupiedOutbound, 1, b.numRetrans, ⟨0, 0⟩, some 0⟩
  others : ∀ j, j % BUF_SIZE ≠ b.tailPt % BUF_SIZE → b'.slot j = b.slot j

/-- The first packet has been acked, and there is room for the second one. -/
structure FirstAcked (b : TxDataBuf) : Prop where
  headPt : b.headPt = 1
  currPt : b.currPt = 1
  tailPt : b.tailPt = 1
  numRetrans : b.numRetrans = 1
  free : (b.slot 1).status = .empty

/-- The first packet has been acked, and the second one waits for its ack. -/
structure SecondOut (b : TxDataBuf) : Prop where
  headPt : b.headPt = 1
  currPt : b.currPt = 2
  tailPt : b.tailPt = 2
  slot : b.bookKeepArr.get 1 = ⟨2, .occupiedOutbound, 1, 1, ⟨0, 0⟩, some 0⟩

/-- After `n` duplicates of the ack for the first packet. -/
def afterDups (b : TxDataBuf) (n : Nat) : HighLossState where
  client := ⟨b, n + 2, n, 0⟩
  log := List.replicate n .dup ++ [.fresh]
  timeOutDue := false

/-- After ten of them. -/
def tenDups (ap : WspaceAP) (b : TxDataBuf) : HighLossState where
  client := ⟨b, 12, 0, ap.maxContiguousTimeOut⟩
  log := List.replicate 10 .dup ++ [.fresh]
  timeOutDue := true

section Duplicates

variable {ap : WspaceAP} {s : HighLossState} {b b' : TxDataBuf}

theorem highLoss_call (h : ((highLossMachine ap).restrict HighLossState.Called).Reachable s)
    (hcall : BufferCall s.client.dataPktBuf b) :
    ((highLossMachine ap).restrict HighLossState.Called).Reachable
      { s with client := { s.client with dataPktBuf := b } } :=
  .step (i := .otherThread b) h ⟨trivial, fun _ hb => by cases hb; exact hcall⟩ rfl

/-- There is room for a packet of one byte, and it can be handed out. -/
theorem sentNext_calls (hroom : b.isFull = false) (hfree : (b.slot b.tailPt).status = .empty)
    (hcurr : b.currPt = b.tailPt) (hlt : b.tailPt + 1 < 4294967296) :
    ∃ b₁ out b₂, b.enqueuePkt [7] = .ok b₁ ∧ b₁.isEmpty = false ∧
      b₁.dequeuePkt ⟨0, 0⟩ = .ok (out, b₂) ∧ SentNext b b₂ := by
  have henq := TxDataBuf.enqueuePkt_room [7] hroom hfree
  rw [uint32_of_lt hlt] at henq
  obtain ⟨b₁, hb₁⟩ : ∃ b₁, b₁ = ({ b with
      tailPt := b.tailPt + 1
      pktBuf := b.pktBuf.write (TxDataBuf.getPktBufAddr b.tailPt) [7] } : TxDataBuf).setSlot
        b.tailPt ((b.slot b.tailPt).update (b.tailPt + 1) .occupiedNew 1 b.numRetrans) := ⟨_, rfl⟩
  have hcurr₁ : b₁.currPt = b.tailPt := by rw [hb₁, ← hcurr]; rfl
  have hslot : b₁.slot b₁.currPt =
      (b.slot b.tailPt).update (b.tailPt + 1) .occupiedNew 1 b.numRetrans := by
    rw [hcurr₁, hb₁, TxDataBuf.slot_setSlot_self]
  have hdeq : b₁.dequeuePkt ⟨0, 0⟩ = .ok _ := TxDataBuf.dequeuePkt_sent (by rwa [hcurr₁])
    (by rw [hslot]; rfl) (by rw [hslot]; exact ⟨Nat.one_pos, (by decide : 1 ≤ PKT_SIZE)⟩)
    (by rw [hslot]; exact Nat.succ_pos _) (by rw [hslot]; exact nofun)
  rw [hslot, hcurr₁] at hdeq
  refine ⟨b₁, _, _, henq.trans (congrArg _ hb₁.symm), ?_, hdeq, ?_, rfl, ?_, ?_, ?_, ?_⟩
  · rw [TxDataBuf.isEmpty, hcurr₁, hb₁]
    exact decide_eq_false (Nat.succ_ne_self _)
  · rw [hb₁]; rfl
  · rw [hb₁]; rfl
  · rw [hb₁]; rfl
  · exact TxDataBuf.slot_setSlot_self
  · intro j hj
    rw [TxDataBuf.slot_setSlot_of_ne hj, hb₁]
    exact TxDataBuf.slot_setSlot_of_ne hj

/-- The ack for the first packet frees its slot. -/
theorem firstAcked (ap : WspaceAP) (hb : SentNext (.init (fun _ => ⟨0, 0⟩) 1) b) :
    FirstAcked (applyDataAck ap ⟨0, 0⟩ b ⟨1, 1, []⟩) := by
  have hack : applyDataAck ap ⟨0, 0⟩ b ⟨1, 1, []⟩ =
      moveCursors b (bulkRelease b.bookKeepArr b.headPt 1) 1 b.currPt := rfl
  have hhead : b.headPt = 0 := hb.headPt
  rw [hack, hhead, hb.currPt]
  refine ⟨?_, rfl, hb.tailPt, hb.numRetrans, ?_⟩
  · rw [moveCursors, hhead]
    rfl
  · have hone : (bulkRelease b.bookKeepArr 0 1).get 1 = b.slot 1 :=
      b.bookKeepArr.get_set_of_ne _ (by decide)
    change ((bulkRelease b.bookKeepArr 0 1).get 1).status = _
    rw [hone, hb.others 1 (by decide)]
    rfl

/-- Two packets of one byte, and the ack for the first one in between. -/
theorem secondOut_reachable (ap : WspaceAP) : ∃ b, SecondOut b ∧
    ((highLossMachine ap).restrict HighLossState.Called).Reachable (afterDups b 0) := by
  have h₀ : ((highLossMachine ap).restrict HighLossState.Called).Reachable
      ⟨.init (fun _ => ⟨0, 0⟩) 1, [], false⟩ := .init ⟨_, _, rfl⟩
  obtain ⟨_, _, b, henq, hpkt, hdeq, hb⟩ :=
    sentNext_calls (b := .init (fun _ => ⟨0, 0⟩) 1) (by decide) rfl rfl (by decide)
  have h₁ := highLoss_call (highLoss_call h₀ (.enqueuePkt henq)) (.dequeuePkt hpkt hdeq)
  have hacked := firstAcked ap hb
  have h₂ : ((highLossMachine ap).restrict HighLossState.Called).Reachable
      ⟨⟨applyDataAck ap ⟨0, 0⟩ b ⟨1, 1, []⟩, 2, 0, 0⟩, [.fresh], false⟩ := by
    have hhead : b.headPt = 0 := hb.headPt
    refine .step (i := .handleDataAck ⟨0, 0⟩ ⟨1, 1, []⟩) h₁ ⟨rfl, nofun⟩ ?_
    simp [highLossMachine, Machine.restrict, HighLossState.exec, HighLossState.entryOf,
      handleDataAck, ClientContext.init, hhead, uint32]
  generalize applyDataAck ap ⟨0, 0⟩ b ⟨1, 1, []⟩ = b' at hacked h₂
  obtain ⟨_, _, b'', henq', hpkt', hdeq', hb'⟩ := sentNext_calls (b := b')
    (by rw [TxDataBuf.isFull, hacked.headPt, hacked.tailPt]; rfl)
    (by rw [hacked.tailPt, hacked.free]) (by rw [hacked.currPt, hacked.tailPt])
    (by rw [hacked.tailPt]; decide)
  have hslot := hb'.slot
  rw [hacked.tailPt, hacked.numRetrans] at hslot
  refine ⟨b'', ⟨hb'.headPt.trans hacked.headPt, ?_, ?_, hslot⟩,
    highLoss_call (highLoss_call h₂ (.enqueuePkt henq')) (.dequeuePkt hpkt' hdeq')⟩
  · rw [hb'.currPt, hacked.tailPt]
  · rw [hb'.tailPt, hacked.tailPt]

/-- The next duplicate. -/
theorem afterDups_step (hb : SecondOut b) {n : Nat}
    (h : ((highLossMachine ap).restrict HighLossState.Called).Reachable (afterDups b n))
    {due : Bool} {c : ClientContext}
    (hack : handleDataAck ap ⟨0, 0⟩ (afterDups b n).client ⟨n + 2, 1, []⟩ = (due, c)) :
    ((highLossMachine ap).restrict HighLossState.Called).Reachable
      ⟨c, .dup :: (afterDups b n).log, due⟩ := by
  have hentry : HighLossState.entryOf (afterDups b n).client ⟨n + 2, 1, []⟩ = .dup := by
    simp [HighLossState.entryOf, afterDups, hb.headPt, show uint32Sub 1 1 = 0 from rfl]
  refine .step (i := .handleDataAck ⟨0, 0⟩ ⟨n + 2, 1, []⟩) h ⟨rfl, nofun⟩ ?_
  simp only [highLossMachine, Machine.restrict, HighLossState.exec, hack, hentry]

theorem afterDups_reachable (hb : SecondOut b)
    (h : ((highLossMachine ap).restrict HighLossState.Called).Reachable (afterDups b 0)) {n : Nat}
    (hn : n < 10) :
    ((highLossMachine ap).restrict HighLossState.Called).Reachable (afterDups b n) := by
  induction n with
  | zero => exact h
  | succ n ih =>
    refine afterDups_step hb (ih (by omega)) ?_
    have hbelow : ¬((n : Int) + 1 ≥ kMaxDupAckCnt) := by
      have hmaxDup : kMaxDupAckCnt = 10 := rfl
      omega
    have hword : uint32 (n + 2 + 1) = n + 1 + 2 := by
      rw [uint32_of_lt (by omega), Nat.add_right_comm]
    simp [handleDataAck, afterDups, hb.headPt, hword, show uint32Sub 1 1 = 0 from rfl, hbelow]

theorem tenDups_reachable (hb : SecondOut b)
    (h : ((highLossMachine ap).restrict HighLossState.Called).Reachable (afterDups b 0)) :
    ((highLossMachine ap).restrict HighLossState.Called).Reachable (tenDups ap b) := by
  refine afterDups_step hb (afterDups_reachable hb h (by decide : 9 < 10)) ?_
  have hten : kMaxDupAckCnt ≤ 10 := le_rfl
  simp [handleDataAck, afterDups, hb.headPt, show uint32Sub 1 1 = 0 from rfl, hten,
    show uint32 12 = 12 from rfl]

/-- The second packet is overdue. -/
theorem applyTimeOut_secondOut (hb : SecondOut b) {now : TIME}
    (hnow : now.sub ⟨0, 0⟩ / 1000 > ap.rtt * (12 / 10)) :
    ∃ b', applyTimeOut ap now b = .ok (true, b') := by
  have hvisit : ∃ arr, TimeOutLoop.visit ap now ⟨b.bookKeepArr, 1, 2, true, false⟩ 1 =
      .ok (⟨arr, 1, 1, false, true⟩, false) := by
    simp [TimeOutLoop.visit, TimeOutLoop.resumeAt, hb.slot, hnow, bind, Except.bind]
  obtain ⟨arr, hvisit⟩ := hvisit
  refine ⟨moveCursors b arr 1 1, ?_⟩
  rw [applyTimeOut, hb.headPt, hb.currPt, hb.tailPt]
  show (countUp (TimeOutLoop.visit ap now) 1 1 ⟨b.bookKeepArr, 1, 2, true, false⟩ >>= _) = _
  rw [countUp, hvisit]
  rfl

/-- The timeout that the duplicates ask for puts it into retransmission. It fires if the counter
does not overflow. -/
theorem tenDups_timeOut (ap : WspaceAP) (now : TIME) (fired : Bool)
    (hnow : now.sub ⟨0, 0⟩ / 1000 > ap.rtt * (12 / 10))
    (hfired : fired =
      decide (ap.maxContiguousTimeOut ≤ wrapInt32 (ap.maxContiguousTimeOut + 1))) :
    ∃ c, ((highLossMachine ap).restrict HighLossState.Called).Reachable
      ⟨c, .timeOut .dupAck true fired :: (List.replicate 10 .dup ++ [.fresh]), false⟩ := by
  obtain ⟨b, hb, h⟩ := secondOut_reachable ap
  obtain ⟨b', happly⟩ := applyTimeOut_secondOut hb hnow
  have hnew : NewlyRetrans b b' := (applyTimeOut_increment happly).mp rfl
  have hbuf : (tenDups ap b).client.dataPktBuf = b := rfl
  have htimeOut : ∃ c, handleTimeOut ap now (tenDups ap b).client = .ok (fired, c) ∧
      c.dataPktBuf = b' := by
    rw [handleTimeOut, hbuf, happly]
    show ∃ c, (if wrapInt32 (ap.maxContiguousTimeOut + 1) ≥ ap.maxContiguousTimeOut then
      Except.ok (true, _) else .ok (false, _)) = .ok (fired, c) ∧ _
    by_cases hmax : ap.maxContiguousTimeOut ≤ wrapInt32 (ap.maxContiguousTimeOut + 1)
    · rw [hfired, if_pos hmax, decide_eq_true hmax]
      exact ⟨_, rfl, rfl⟩
    · rw [hfired, if_neg hmax, decide_eq_false hmax]
      exact ⟨_, rfl, rfl⟩
  obtain ⟨c, htimeOut, rfl⟩ := htimeOut
  refine ⟨c, .step (i := .handleTimeOut now) (tenDups_reachable hb h) ⟨trivial, nofun⟩ ?_⟩
  show (handleTimeOut ap now (tenDups ap b).client >>= _) = _
  rw [htimeOut]
  simp only [bind, Except.bind, hbuf, decide_eq_true hnew]
  rfl

/-- At the largest `int` it does not. -/
theorem exists_missed (ap : WspaceAP) (hM : ap.maxContiguousTimeOut = 2147483647) :
    ∃ s, ((highLossMachine ap).restrict HighLossState.Called).Reachable s ∧
      ¬FallbackRight ap s := by
  have hnow : (⟨2 * max ap.rtt 0 + 1, 0⟩ : TIME).sub ⟨0, 0⟩ / 1000 > ap.rtt * (12 / 10) := by
    have hrtt : (ap.rtt : ℚ) ≤ (max ap.rtt 0 : Int) := by exact_mod_cast le_max_left _ _
    have hpos : (0 : ℚ) ≤ (max ap.rtt 0 : Int) := by exact_mod_cast le_max_right _ _
    generalize max ap.rtt 0 = r at hrtt hpos ⊢
    simp only [TIME.sub]
    push_cast
    linarith
  have hwrap : false =
      decide (ap.maxContiguousTimeOut ≤ wrapInt32 (ap.maxContiguousTimeOut + 1)) := by
    rw [hM]
    rfl
  obtain ⟨c, hreach⟩ := tenDups_timeOut ap _ false hnow hwrap
  refine ⟨_, hreach, fun hright => ?_⟩
  have hfires := (hright.fires [] _ .dupAck true false rfl).2.mpr (.inl rfl)
  exact Bool.false_ne_true hfires

end Duplicates

/-- The fallback is right in all runs exactly if the counter can go past its limit, that is, if
the limit is not the largest `int`: whatever other threads do to the buffer, and also if they only
enqueue and dequeue packets. -/
theorem highLossMachine_fires (ap : WspaceAP) (hM : 0 < ap.maxContiguousTimeOut)
    (hint : ap.maxContiguousTimeOut ≤ 2147483647) :
    ((∀ s, (highLossMachine ap).Reachable s → FallbackRight ap s) ↔
      ap.maxContiguousTimeOut < 2147483647) ∧
    ((∀ s, ((highLossMachine ap).restrict HighLossState.Called).Reachable s →
      FallbackRight ap s) ↔ ap.maxContiguousTimeOut < 2147483647) := by
  have hroom : ap.maxContiguousTimeOut < 2147483647 →
      ∀ s, (highLossMachine ap).Reachable s → FallbackRight ap s :=
    fun hlt s h => (highLossMachine_inv hM hlt h).right
  have hfull : (∀ s, ((highLossMachine ap).restrict HighLossState.Called).Reachable s →
      FallbackRight ap s) → ap.maxContiguousTimeOut < 2147483647 := by
    intro hright
    by_contra hge
    obtain ⟨s, hreach, hwrong⟩ := exists_missed ap (by omega)
    exact hwrong (hright s hreach)
  exact ⟨⟨fun hright => hfull fun s h => hright s h.of_restrict, hroom⟩,
    ⟨hfull, fun hlt s h => hroom hlt s h.of_restrict⟩⟩

/-- With the default limit, the timeout after ten duplicates fires. -/
theorem highLossMachine_fires_dups :
    ∃ s, ((highLossMachine ⟨3, 50, 5⟩).restrict HighLossState.Called).Reachable s ∧
      s.log = .timeOut .dupAck true true :: (List.replicate 10 .dup ++ [.fresh]) ∧
      FallbackRight ⟨3, 50, 5⟩ s := by
  obtain ⟨c, hreach⟩ := tenDups_timeOut ⟨3, 50, 5⟩ ⟨1, 0⟩ true (by norm_num [TIME.sub]) rfl
  exact ⟨_, hreach, rfl, (highLossMachine_fires ⟨3, 50, 5⟩ (by decide) (by decide)).2.mpr
    (by decide) _ hreach⟩

/-- With the largest limit that `-n` accepts, it does not. -/
theorem highLossMachine_misses :
    ∃ s, ((highLossMachine ⟨3, 50, 2147483647⟩).restrict HighLossState.Called).Reachable s ∧
      ¬FallbackRight ⟨3, 50, 2147483647⟩ s := exists_missed _ rfl

end WspaceScout
