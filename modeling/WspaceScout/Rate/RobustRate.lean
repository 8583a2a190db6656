import WspaceScout.Rate.BaseRate

/-!
# The RRAA baseline

One row of loss statistics for each rate; a decision is made at the end of a window of packets.
`update_rraa_rate_table` is not set by the constructor, so that its first value is arbitrary.

## Main definitions

- `RRAARateInfo.insert`, `RRAARateInfo.remove` — what a packet does to the row of its rate
- `RobustRate.refresh` — what `ApplyRate` does before it decides
- `RobustRate` — the instance of `BaseRate`
-/

namespace WspaceScout

open Foundation

/-- The rates of `RobustRate::InitRateTable`. -/
def rraaRate : List Nat := [10, 20, 55, 110, 120]

/-- The window sizes, in the order of the rates. -/
def rraaWindowSize : List Int := [6, 6, 6, 10, 20]

/-- The statistics of the packets sent at one rate. -/
structure RRAARateInfo where
  lossRatio : ℚ
  pOri : ℚ
  pMtl : ℚ
  wndSize : Int
  numSent : Int
  numAcked : Int
  lenSent : ℚ
  lenAcked : ℚ
  deriving DecidableEq, Repr

/-- `if (abs(x) < 1e-9) x = 0`. -/
def clearIfZero (x : ℚ) : ℚ := if isZero x then 0 else x

namespace RRAARateInfo

/-- The row of the packet's rate in `InsertIntoRateTable`. -/
def insert (pkt : PacketInfo) (r : RRAARateInfo) : RRAARateInfo :=
  let r := { r with numSent := r.numSent + 1, lenSent := r.lenSent + pkt.length }
  if pkt.status = .acked then
    { r with numAcked := r.numAcked + 1, lenAcked := r.lenAcked + pkt.length }
  else r

/-- The row of the packet's rate in `RemoveFromRateTable`. -/
def remove (pkt : PacketInfo) (r : RRAARateInfo) : RRAARateInfo :=
  let r := { r with numSent := r.numSent - 1, lenSent := r.lenSent - pkt.length }
  if pkt.status = .acked then
    { r with numAcked := r.numAcked - 1, lenAcked := r.lenAcked - pkt.length }
  else r

/-- One pass of the loop of `UpdateRateTable`. -/
def update (r : RRAARateInfo) : RRAARateInfo :=
  let r := { r with lenSent := clearIfZero r.lenSent, lenAcked := clearIfZero r.lenAcked }
  let lenLoss := r.lenSent - r.lenAcked
  { r with lossRatio := if r.lenSent > 0 then lenLoss / r.lenSent else 1 }

end RRAARateInfo

/-- The positions of the rate table. -/
abbrev RobustRate.Pos := Fin rraaRate.length

/-- The members of `RobustRate`; `dirty` is `update_rraa_rate_table`. -/
structure RobustRate where
  rateTable : KeyedTable rraaRate RRAARateInfo
  wndCounter : Int
  curRatePos : RobustRate.Pos
  dirty : Bool

namespace RobustRate

def rraaAlpha : ℚ := 5 / 4
def rraaBeta : ℚ := 2
def rraaDifs : ℚ := 80
def packetLen : ℚ := 1000

/-- `8*10.0*packet_len/rate + rraa_difs`: the airtime of a packet. -/
def airtime (rate : Nat) : ℚ := 8 * 10 * packetLen / rate + rraaDifs

/-- `p_mtl` of row `i`. -/
def initMtl (i : Nat) : ℚ :=
  if i = 0 then 1
  else rraaAlpha * (1 - airtime (rraaRate.getD i 0) / airtime (rraaRate.getD (i - 1) 0))

/-- The constructor, which calls `InitRateTable`. -/
def init (dirty : Bool) : RobustRate where
  rateTable i := {
    lossRatio := 1
    pOri := if i.val + 1 < rraaRate.length then initMtl (i + 1) / rraaBeta else 0
    pMtl := initMtl i
    wndSize := rraaWindowSize.getD i 0
    numSent := 0
    numAcked := 0
    lenSent := 0
    lenAcked := 0 }
  wndCounter := rraaWindowSize.getD 0 0
  curRatePos := ⟨0, by decide⟩
  dirty := dirty

/-- `InsertIntoRateTable`. -/
def insertIntoRateTable (s : RobustRate) (pkt : PacketInfo) : RobustRate :=
  { s with rateTable := s.rateTable.modify pkt.rate (.insert pkt), dirty := true }

/-- `RemoveFromRateTable`. -/
def removeFromRateTable (s : RobustRate) (pkt : PacketInfo) : RobustRate :=
  { s with rateTable := s.rateTable.modify pkt.rate (.remove pkt), dirty := true }

/-- `UpdateRateTable`. -/
def updateRateTable (s : RobustRate) : RobustRate :=
  { s with rateTable := fun i => (s.rateTable i).update }

/-- What `ApplyRate` does before it decides. -/
def refresh (s : RobustRate) : RobustRate :=
  if s.dirty then updateRateTable { s with dirty := false } else s

/-- One rate down, one up, or none. -/
def nextPos (s : RobustRate) : Pos :=
  let row := s.rateTable s.curRatePos
  if row.lossRatio > row.pMtl ∧ row.numSent > 0 then
    ⟨max 0 (s.curRatePos - 1), by omega⟩
  else if row.lossRatio < row.pOri ∧ row.numSent > 0 then
    ⟨min (rraaRate.length - 1) (s.curRatePos + 1), by have := s.curRatePos.isLt; omega⟩
  else s.curRatePos

/-- `ApplyRate` on an updated table. It leaves `case_num` alone. -/
def chooseRate (s : RobustRate) : RateDecision × RobustRate :=
  let wndCounter := s.wndCounter - 1
  if wndCounter = 0 then
    let newPos := s.nextPos
    (⟨rraaRate.get newPos, none⟩,
      { s with wndCounter := (s.rateTable newPos).wndSize, curRatePos := newPos })
  else (⟨rraaRate.get s.curRatePos, none⟩, { s with wndCounter := wndCounter })

/-- `ApplyRate`. -/
def applyRate (s : RobustRate) : RateDecision × RobustRate := s.refresh.chooseRate

instance : BaseRate RobustRate :=
  ⟨fun s _ _ => s.applyRate, insertIntoRateTable, removeFromRateTable⟩

/-- A decision is a rate of the table. -/
theorem applyRate_mem (s : RobustRate) : s.applyRate.1.rate ∈ rraaRate := by
  unfold applyRate chooseRate
  dsimp only
  split
  · exact List.get_mem _ _
  · exact List.get_mem _ _

/-- Choosing a rate leaves the statistics alone. -/
theorem chooseRate_table (s : RobustRate) :
    s.chooseRate.2.rateTable = s.rateTable ∧ s.chooseRate.2.dirty = s.dirty := by
  unfold chooseRate
  dsimp only
  split
  · exact ⟨rfl, rfl⟩
  · exact ⟨rfl, rfl⟩

end RobustRate

end WspaceScout
