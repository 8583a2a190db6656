import WspaceScout.Feedback.FeedbackRecords
import WspaceScout.Foundation.KeyedTable
import WspaceScout.Foundation.Machine
import WspaceScout.Foundation.SlidingWindow

/-!
# Rate adaptation over a window of packets

`BaseRate` is the interface of the two baseline algorithms. `RateAdaptation` keeps the packets of
the last 10.5 seconds and tells the algorithm about every packet that enters or leaves this window.
Rates are in units of 100 kbit/s.

## Main definitions

- `BaseRate` — the virtual functions of the source's class
- `RateAdaptation.insertRecord`, `RateAdaptation.applyRate`
- `rateMachine` — the calls of these two in any order, under a clock that does not go back

## Main results

- `rateMachine_window` — the window holds the inserted packets that are not yet too old
- `rateMachine_exact` — a table that follows insertion and removal is exact in every state
-/

namespace WspaceScout

open Foundation

/-- `mac80211abg_rate`. -/
def mac80211abgRate : List Nat := [10, 20, 55, 60, 90, 110, 120, 180, 240]

/-- `DIFS_80211b` and `DIFS_80211ag`, in microseconds. -/
def DIFS_80211b : ℚ := 28
def DIFS_80211ag : ℚ := 28

/-- `abs(x) < 1e-9`: what is left of a sum of doubles that should be zero. -/
def isZero (x : ℚ) : Bool := |x| < 1 / 1000000000

/-- What an algorithm returns: the rate, and `case_num` if it sets it. -/
structure RateDecision where
  rate : Nat
  caseNum : Option Nat
  deriving DecidableEq, Repr

/-- The virtual functions of `BaseRate`. `ApplyRate` is given a reading of the clock and the result
of `rand()`. -/
class BaseRate (B : Type*) where
  applyRate : B → MonotonicTimer → Nat → RateDecision × B
  insertIntoRateTable : B → PacketInfo → B
  removeFromRateTable : B → PacketInfo → B

/-- An algorithm as a summary of the packet window. -/
def BaseRate.summary (B : Type*) [BaseRate B] : Summary PacketInfo B :=
  ⟨insertIntoRateTable, removeFromRateTable⟩

/-- The packet window and the algorithm. -/
structure RateAdaptation (B : Type*) where
  historyRecords : List PacketInfo
  baseRate : B

namespace RateAdaptation

variable {B : Type*} [BaseRate B]

/-- How long a packet stays in the window: `MonotonicTimer(10, 500*1e6)`. -/
def duration : MonotonicTimer := ⟨10, 500000000⟩

/-- `pkt.timer + duration > now`. -/
def isLive (now : MonotonicTimer) (pkt : PacketInfo) : Bool := now < pkt.timer.add duration

/-- `UpdateRecords`. -/
def updateRecords (r : RateAdaptation B) (now : MonotonicTimer) : RateAdaptation B :=
  let (records, b) := (BaseRate.summary B).evict (isLive now) r.historyRecords r.baseRate
  ⟨records, b⟩

/-- `InsertRecord`, where `now` is the reading of the clock that it makes. -/
def insertRecord (r : RateAdaptation B) (now : MonotonicTimer) (seq : Nat) (status : PacketStatus)
    (rate len : Nat) : RateAdaptation B :=
  if status = .sent then r  -- reserved for future usage
  else
    let pkt : PacketInfo := ⟨now, seq, rate, len, status⟩
    updateRecords ⟨r.historyRecords ++ [pkt], BaseRate.insertIntoRateTable r.baseRate pkt⟩ now

/-- `ApplyRate`. -/
def applyRate (r : RateAdaptation B) (now : MonotonicTimer) (random : Nat) :
    RateDecision × RateAdaptation B :=
  let (decision, b) := BaseRate.applyRate r.baseRate now random
  (decision, { r with baseRate := b })

theorem insertRecord_eq (r : RateAdaptation B) (now : MonotonicTimer) (seq : Nat)
    {status : PacketStatus} (rate len : Nat) (hstatus : status ≠ .sent) :
    r.insertRecord now seq status rate len =
      let pkt : PacketInfo := ⟨now, seq, rate, len, status⟩
      let (records, b) := (BaseRate.summary B).push (isLive now) r.historyRecords r.baseRate pkt
      ⟨records, b⟩ := by
  rw [insertRecord, if_neg hstatus]
  rfl

end RateAdaptation

/-! ### All sequences of calls -/

/-- The two calls, with the reading of the clock and the random number that they use. -/
inductive RateInput where
  | insertRecord (now : MonotonicTimer) (seq : Nat) (status : PacketStatus) (rate len : Nat)
  | applyRate (now : MonotonicTimer) (random : Nat)

/-- `RateAdaptation` with all packets ever inserted, the last reading of the clock and the last one
that cleaned the window. -/
structure RateState (B : Type*) where
  adaptation : RateAdaptation B
  inserted : List PacketInfo
  clock : MonotonicTimer
  cleaned : MonotonicTimer

/-- The window. -/
abbrev RateState.window {B : Type*} (s : RateState B) : List PacketInfo :=
  s.adaptation.historyRecords

/-- The algorithm. -/
abbrev RateState.base {B : Type*} (s : RateState B) : B := s.adaptation.baseRate

section Machine

variable {B : Type*} [BaseRate B]

/-- Make a call and record it. -/
def execRate (s : RateState B) : RateInput → Except Empty (RateState B)
  | .insertRecord now seq status rate len => .ok {
      adaptation := s.adaptation.insertRecord now seq status rate len
      inserted :=
        if status = .sent then s.inserted else s.inserted ++ [⟨now, seq, rate, len, status⟩]
      clock := now
      cleaned := if status = .sent then s.cleaned else now }
  | .applyRate now random => .ok { s with
      adaptation := (s.adaptation.applyRate now random).2
      clock := now }

/-- The clock does not go back, and packets have at least one byte. -/
def enabledRate (s : RateState B) : RateInput → Prop
  | .insertRecord now _ _ _ len => s.clock ≤ now ∧ now.Normal ∧ 1 ≤ len
  | .applyRate now _ => s.clock ≤ now ∧ now.Normal

/-- An algorithm that starts in one of the states `start` with an empty window. -/
def rateMachine (start : B → Prop) : Machine (RateState B) RateInput Empty where
  init s := start s.base ∧ s.window = [] ∧ s.inserted = [] ∧ s.clock.Normal ∧ s.cleaned = s.clock
  enabled := enabledRate
  exec := execRate

end Machine

/-! ### The window -/

namespace RateAdaptation

variable {now now' : MonotonicTimer} {p q : PacketInfo}

/-- A packet outlives those inserted before it. -/
theorem isLive_of_later (hp : p.timer.Normal) (hq : q.timer.Normal) (hle : p.timer ≤ q.timer)
    (h : isLive now p = true) : isLive now q = true := by
  simp only [isLive, decide_eq_true_eq] at *
  exact h.trans_le (MonotonicTimer.add_le_add hp hq hle)

theorem isLive_of_earlier (hle : now ≤ now') (h : isLive now' p = true) : isLive now p = true := by
  simp only [isLive, decide_eq_true_eq] at *
  exact hle.trans_lt h

end RateAdaptation

/-- The window holds the live packets, in the order of their times. -/
structure RateState.WindowInv {B : Type*} (s : RateState B) : Prop where
  window : s.window = s.inserted.filter (RateAdaptation.isLive s.cleaned)
  cleaned_le : s.cleaned ≤ s.clock
  sorted : s.window.Pairwise fun p q => p.timer ≤ q.timer
  timer : ∀ p ∈ s.window, p.timer ≤ s.clock ∧ p.timer.Normal
  length : ∀ p ∈ s.window, 1 ≤ p.length

section Window

variable {B : Type*} [BaseRate B] {start : B → Prop} {s : RateState B}

omit [BaseRate B] in
/-- The clock may run on. -/
theorem RateState.WindowInv.later {b : B} {now : MonotonicTimer} (hs : s.WindowInv)
    (hnow : s.clock ≤ now) :
    RateState.WindowInv { s with adaptation := { s.adaptation with baseRate := b }, clock := now }
    where
  window := hs.window
  cleaned_le := hs.cleaned_le.trans hnow
  sorted := hs.sorted
  timer p hp := ⟨(hs.timer p hp).1.trans hnow, (hs.timer p hp).2⟩
  length := hs.length

/-- The window after an insertion. -/
theorem RateState.WindowInv.inserted {now : MonotonicTimer} {pkt : PacketInfo} {b : B}
    (hs : s.WindowInv) (hnow : s.clock ≤ now) (hnormal : now.Normal) (hlen : 1 ≤ pkt.length)
    (htimer : pkt.timer = now) :
    RateState.WindowInv ⟨⟨((BaseRate.summary B).push (RateAdaptation.isLive now) s.window s.base
      pkt).1, b⟩, s.inserted ++ [pkt], now, now⟩ := by
  have htimers : ∀ p ∈ s.window ++ [pkt], p.timer ≤ now ∧ p.timer.Normal := by
    intro p hp
    obtain hp | rfl := List.mem_append.mp hp |>.imp_right List.mem_singleton.mp
    · exact ⟨(hs.timer p hp).1.trans hnow, (hs.timer p hp).2⟩
    · rw [htimer]
      exact ⟨le_refl now, hnormal⟩
  have hlens : ∀ p ∈ s.window ++ [pkt], 1 ≤ p.length := by
    intro p hp
    obtain hp | rfl := List.mem_append.mp hp |>.imp_right List.mem_singleton.mp
    · exact hs.length p hp
    · exact hlen
  have hsorted : (s.window ++ [pkt]).Pairwise fun p q => p.timer ≤ q.timer := by
    rw [List.pairwise_append]
    refine ⟨hs.sorted, List.pairwise_singleton _ _, fun p hp q hq => ?_⟩
    rw [List.mem_singleton.mp hq, htimer]
    exact (hs.timer p hp).1.trans hnow
  -- the window ages from the front, so that cleaning its front cleans it
  have hages : (s.window ++ [pkt]).Pairwise fun p q =>
      RateAdaptation.isLive now p = true → RateAdaptation.isLive now q = true := by
    refine hsorted.imp_of_mem fun hp hq hle hlive => ?_
    exact RateAdaptation.isLive_of_later (htimers _ hp).2 (htimers _ hq).2 hle hlive
  have hkept := Summary.push_fst (S := BaseRate.summary B) s.base hages
  -- a packet that was dropped earlier would be dropped now
  have hwindow : (s.window ++ [pkt]).filter (RateAdaptation.isLive now) =
      (s.inserted ++ [pkt]).filter (RateAdaptation.isLive now) := by
    rw [List.filter_append, List.filter_append, hs.window, List.filter_filter]
    congr 2
    funext p
    cases hlive : RateAdaptation.isLive now p with
    | true => exact RateAdaptation.isLive_of_earlier (hs.cleaned_le.trans hnow) hlive
    | false => rfl
  constructor
  · exact hkept.trans hwindow
  · exact le_refl now
  · show List.Pairwise _ (Summary.push _ _ _ _ _).1
    rw [hkept]
    exact hsorted.filter _
  · show ∀ p ∈ (Summary.push _ _ _ _ _).1, _
    rw [hkept]
    exact fun p hp => htimers p (List.mem_of_mem_filter hp)
  · show ∀ p ∈ (Summary.push _ _ _ _ _).1, _
    rw [hkept]
    exact fun p hp => hlens p (List.mem_of_mem_filter hp)

/-- The step lemma of the window. -/
theorem RateState.WindowInv.step {s' : RateState B} {input : RateInput} (hs : s.WindowInv)
    (hen : enabledRate s input) (hexec : execRate s input = .ok s') : s'.WindowInv := by
  cases input with
  | applyRate now random =>
    injection hexec with hexec
    rw [← hexec]
    exact hs.later hen.1
  | insertRecord now seq status rate len =>
    obtain ⟨hnow, hnormal, hlen⟩ := hen
    injection hexec with hexec
    rw [← hexec]
    by_cases hstatus : status = .sent
    · simp only [hstatus, if_true, RateAdaptation.insertRecord]
      exact hs.later hnow
    · simp only [hstatus, if_false, RateAdaptation.insertRecord_eq _ _ _ _ _ hstatus]
      let pkt : PacketInfo := ⟨now, seq, rate, len, status⟩
      have hpkt : 1 ≤ pkt.length := hlen
      exact hs.inserted hnow hnormal hpkt rfl

/-- The run lemma of the window. -/
theorem rateMachine_window (h : (rateMachine start).Reachable s) : s.WindowInv := by
  refine h.invariant ?_ fun s input s' _ hs hen hexec => hs.step hen hexec
  rintro s ⟨-, hwindow, hinserted, -, hcleaned⟩
  have hnil : ∀ p, p ∉ s.window := fun p hp => by simp [hwindow] at hp
  constructor
  · rw [hwindow, hinserted]
    rfl
  · rw [hcleaned]
  · rw [hwindow]
    exact List.Pairwise.nil
  · exact fun p hp => absurd hp (hnil p)
  · exact fun p hp => absurd hp (hnil p)

/-- A table that follows insertion and removal, and that rate decisions leave alone, is exact in
every reachable state. -/
theorem rateMachine_exact {I : List PacketInfo → B → Prop} (hI : (BaseRate.summary B).Exact I)
    (hstart : ∀ b, start b → I [] b)
    (happly : ∀ w b now random, (∀ p ∈ w, 1 ≤ p.length) → I w b →
      I w (BaseRate.applyRate b now random).2)
    (h : (rateMachine start).Reachable s) : I s.window s.base := by
  refine Machine.Reachable.invariant (I := fun s => I s.window s.base) h ?_ ?_
  · rintro s ⟨hbase, hwindow, -⟩
    rw [hwindow]
    exact hstart s.base hbase
  · intro s input s' hreach hs _ hexec
    cases input with
    | applyRate now random =>
      injection hexec with hexec
      rw [← hexec]
      exact happly _ _ _ _ (rateMachine_window hreach).length hs
    | insertRecord now seq status rate len =>
      injection hexec with hexec
      rw [← hexec]
      by_cases hstatus : status = .sent
      · simp only [hstatus, RateAdaptation.insertRecord, if_true]
        exact hs
      · simp only [RateAdaptation.insertRecord_eq _ _ _ _ _ hstatus]
        exact hI.push hs _

end Window

end WspaceScout
