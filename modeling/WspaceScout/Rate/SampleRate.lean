import WspaceScout.Rate.BaseRate

/-!
# The SampleRate baseline

One row of packet statistics for each rate. Doubles are read as exact rationals and the counters as
unbounded integers.

## Main definitions

- `PacketStat.insert`, `PacketStat.remove` — what a packet does to the row of its rate
- `PacketStat.update` — the derived values of a row
- `SampleRate` — the instance of `BaseRate`
-/

namespace WspaceScout

open Foundation

/-- The statistics of the packets sent at one rate. -/
structure PacketStat where
  numSent : Int
  numAcked : Int
  numNaked : Int
  numTimeout : Int
  lenSent : ℚ
  lenAcked : ℚ
  lenNaked : ℚ
  lenTimeout : ℚ
  numContiLoss : Int
  totalTxTime : ℚ
  avgTxTime : ℚ
  minAvgTxTime : ℚ
  deriving DecidableEq, Repr

namespace PacketStat

/-- The constructor of `PacketStat`. -/
def init : PacketStat := ⟨0, 0, 0, 0, 0, 0, 0, 0, 0, 0, 10000000000, 0⟩

/-- The row of the packet's rate in `InsertIntoRateTable`. -/
def insert (pkt : PacketInfo) (difs : ℚ) (h : PacketStat) : PacketStat :=
  let h := { h with
    numSent := h.numSent + 1
    lenSent := h.lenSent + pkt.length
    totalTxTime := h.totalTxTime + (pkt.length * 80 / pkt.rate + difs) }
  match pkt.status with
  | .acked => { h with
      numAcked := h.numAcked + 1
      lenAcked := h.lenAcked + pkt.length
      numContiLoss := 0 }
  | .naked => { h with
      numNaked := h.numNaked + 1
      lenNaked := h.lenNaked + pkt.length
      numContiLoss := h.numContiLoss + 1 }
  | .timeOut => { h with
      numTimeout := h.numTimeout + 1
      lenTimeout := h.lenTimeout + pkt.length
      numContiLoss := h.numContiLoss + 1 }
  | .inValid | .sent => h

/-- The row of the packet's rate in `RemoveFromRateTable`. -/
def remove (pkt : PacketInfo) (difs : ℚ) (h : PacketStat) : PacketStat :=
  let h := { h with
    numSent := h.numSent - 1
    lenSent := h.lenSent - pkt.length
    totalTxTime := h.totalTxTime - (pkt.length * 80 / pkt.rate + difs) }
  match pkt.status with
  | .acked => { h with numAcked := h.numAcked - 1, lenAcked := h.lenAcked - pkt.length }
  | .naked => { h with numNaked := h.numNaked - 1, lenNaked := h.lenNaked - pkt.length }
  | .timeOut => { h with lenTimeout := h.lenTimeout - pkt.length, numTimeout := h.numTimeout - 1 }
  | .inValid | .sent => h

/-- One pass of the loop of `UpdateRateTable`. -/
def update (h : PacketStat) : PacketStat :=
  let h := if isZero h.lenSent then { h with lenSent := 0 } else h
  let h :=
    if isZero h.totalTxTime then { h with totalTxTime := 0 }
    else if h.lenSent > 0 then { h with minAvgTxTime := h.totalTxTime / h.lenSent }
    else h
  let h := if isZero h.lenAcked then { h with lenAcked := 0 } else h
  -- no acked packet: the rate is as slow as can be
  let h := if h.lenAcked = 0 then { h with avgTxTime := 10000000000 } else h
  if h.lenAcked > 0 ∧ h.totalTxTime ≥ h.minAvgTxTime then
    { h with avgTxTime := h.totalTxTime / h.lenAcked }
  else h

end PacketStat

/-- The members of `SampleRate`, over any list of rates; `dirty` is `update_rate_table`. -/
structure SampleRate (rates : List Nat) where
  pktCount : Nat
  curRatePos : Fin rates.length
  lastUpdate : MonotonicTimer
  rateTable : KeyedTable rates PacketStat
  statistic : PacketStat
  dirty : Bool

namespace SampleRate

variable {rates : List Nat}

/-- The constructor; `clock` is the reading that initializes `last_update`. -/
def init (clock : MonotonicTimer) : SampleRate mac80211abgRate where
  pktCount := 0
  curRatePos := ⟨0, by decide⟩
  lastUpdate := clock
  rateTable _ := .init
  statistic := .init
  dirty := true

/-- `update_interval`. -/
def updateInterval : MonotonicTimer := ⟨10, 0⟩

def is80211b (rate : Nat) : Bool := 10 = rate ∨ 20 = rate ∨ 55 = rate ∨ 110 = rate

/-- The inter-frame space that goes with a rate. -/
def difs (rate : Nat) : ℚ := if is80211b rate then DIFS_80211b else DIFS_80211ag

/-- The change of `statistic.num_acked`, which is made with the row. -/
def countAcked (s : SampleRate rates) (pkt : PacketInfo) (d : Int) : PacketStat :=
  if pkt.rate ∈ rates ∧ pkt.status = .acked then
    { s.statistic with numAcked := s.statistic.numAcked + d }
  else s.statistic

/-- `InsertIntoRateTable`. -/
def insertIntoRateTable (s : SampleRate rates) (pkt : PacketInfo) : SampleRate rates :=
  { s with
    rateTable := s.rateTable.modify pkt.rate (.insert pkt (difs pkt.rate))
    statistic := s.countAcked pkt 1
    dirty := true }

/-- `RemoveFromRateTable`. -/
def removeFromRateTable (s : SampleRate rates) (pkt : PacketInfo) : SampleRate rates :=
  { s with
    rateTable := s.rateTable.modify pkt.rate (.remove pkt (difs pkt.rate))
    statistic := s.countAcked pkt (-1)
    dirty := true }

/-- Forget the losses in a row every ten seconds. -/
def forgetLoss (s : SampleRate rates) (now : MonotonicTimer) : SampleRate rates :=
  if s.lastUpdate.add updateInterval < now then
    { s with lastUpdate := now, rateTable := fun i => { s.rateTable i with numContiLoss := 0 } }
  else s

/-- `UpdateRateTable`. -/
def updateRateTable (s : SampleRate rates) (now : MonotonicTimer) : SampleRate rates :=
  let s := s.forgetLoss now
  { s with rateTable := fun i => (s.rateTable i).update }

/-- What `ApplyRate` does before it decides. -/
def refresh (s : SampleRate rates) (now : MonotonicTimer) : SampleRate rates :=
  if s.dirty then updateRateTable { s with dirty := false } now else s

/-- The rates that may be tried next to the current one. -/
def isCandidate (s : SampleRate rates) (i : Fin rates.length) : Bool :=
  (s.rateTable i).numContiLoss < 4 ∧ i ≠ s.curRatePos ∧
    (s.rateTable i).minAvgTxTime < (s.rateTable s.curRatePos).avgTxTime

/-- Without any ack: the lowest rate that has not been lost four times in a row. -/
def lowestAlive (s : SampleRate rates) : Fin rates.length :=
  ((List.finRange _).find? fun i => (s.rateTable i).numContiLoss < 4).getD ⟨0, s.curRatePos.pos⟩

/-- Every tenth packet: a random candidate. They are counted up to two rates above the current one
and taken from the whole table. -/
def randomCandidate (s : SampleRate rates) (random : Nat) : Fin rates.length :=
  let counter := (List.finRange _).countP fun i =>
    i.val < s.curRatePos.val + 3 ∧ s.isCandidate i
  if counter ≠ 0 then
    ((List.finRange _).filter s.isCandidate)[random % counter]?.getD s.curRatePos
  else s.curRatePos

/-- Otherwise: the rate with the lowest average transmission time. -/
def fastest (s : SampleRate rates) : Fin rates.length :=
  ((List.finRange _).foldl (fun (best : ℚ × Fin rates.length) i =>
      if best.1 > (s.rateTable i).avgTxTime then ((s.rateTable i).avgTxTime, i) else best)
    (10000000000, s.curRatePos)).2

/-- `ApplyRate` after the table has been brought up to date. -/
def chooseRate (s : SampleRate rates) (random : Nat) : RateDecision × SampleRate rates :=
  let pktCount := uint32 (s.pktCount + 1)
  -- `case_num` is the number of the branch
  if s.statistic.numAcked = 0 then
    let newPos := s.lowestAlive
    (⟨rates.get newPos, some 1⟩, { s with pktCount := pktCount, curRatePos := newPos })
  else if pktCount % 10 = 0 then
    let newPos := s.randomCandidate random
    (⟨rates.get newPos, some 2⟩, { s with pktCount := 0, curRatePos := newPos })
  else
    let newPos := s.fastest
    (⟨rates.get newPos, some 3⟩, { s with pktCount := pktCount, curRatePos := newPos })

/-- `ApplyRate`. -/
def applyRate (s : SampleRate rates) (now : MonotonicTimer) (random : Nat) :
    RateDecision × SampleRate rates :=
  (s.refresh now).chooseRate random

instance : BaseRate (SampleRate rates) := ⟨applyRate, insertIntoRateTable, removeFromRateTable⟩

/-- A decision is a rate of the table. -/
theorem applyRate_mem (s : SampleRate rates) (now : MonotonicTimer) (random : Nat) :
    (s.applyRate now random).1.rate ∈ rates := by
  unfold applyRate chooseRate
  dsimp only
  split
  · exact List.get_mem _ _
  · split
    · exact List.get_mem _ _
    · exact List.get_mem _ _

/-- Choosing a rate leaves the statistics alone. -/
theorem chooseRate_table (s : SampleRate rates) (random : Nat) :
    (s.chooseRate random).2.rateTable = s.rateTable ∧
      (s.chooseRate random).2.statistic = s.statistic := by
  unfold chooseRate
  dsimp only
  split
  · exact ⟨rfl, rfl⟩
  · split
    · exact ⟨rfl, rfl⟩
    · exact ⟨rfl, rfl⟩

end SampleRate

end WspaceScout
