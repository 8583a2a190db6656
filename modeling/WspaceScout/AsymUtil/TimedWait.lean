import Mathlib.Tactic

/-!
# Deadlines of timed waits

`BasicBuf::WaitFill` and `AckContext::WaitFill` turn a number of milliseconds into the absolute
time that `pthread_cond_timedwait` wants. Seconds are carried by lowering the milliseconds, if
necessary below zero, and the microseconds are added up at the end.

## Main results

- `normalise_spec` — the loop ends, keeps the time and stops at a million microseconds or less
-/

namespace WspaceScout

/-- `struct timeval`. -/
structure TimeVal where
  tvSec : Int
  tvUsec : Int
  deriving DecidableEq, Repr

/-- `struct timespec`. -/
structure TimeSpec where
  tvSec : Int
  tvNsec : Int
  deriving DecidableEq, Repr

/-- Microseconds since the epoch. -/
def TimeVal.micros (t : TimeVal) : Int := t.tvSec * 1000000 + t.tvUsec

/-- Nanoseconds since the epoch. -/
def TimeSpec.nanos (t : TimeSpec) : Int := t.tvSec * 1000000000 + t.tvNsec

/-- What `pthread_cond_timedwait` requires of its deadline. -/
def TimeSpec.IsNormal (t : TimeSpec) : Prop := 0 ≤ t.tvNsec ∧ t.tvNsec < 1000000000

instance (t : TimeSpec) : Decidable t.IsNormal :=
  inferInstanceAs (Decidable (0 ≤ t.tvNsec ∧ t.tvNsec < 1000000000))

/-- The value fits into an `int`. -/
def IsInt (x : Int) : Prop := -2147483648 ≤ x ∧ x ≤ 2147483647

instance (x : Int) : Decidable (IsInt x) :=
  inferInstanceAs (Decidable (-2147483648 ≤ x ∧ x ≤ 2147483647))

/-- The loop of both `WaitFill(int)`, and the addition behind it. There is no result where
`wait_ms*1000` overflows. -/
def normalise (now : TimeVal) (waitMs : Int) : Option TimeVal :=
  if IsInt (waitMs * 1000) then
    if now.tvUsec + waitMs * 1000 > 1000000 then
      normalise { now with tvSec := now.tvSec + 1 } (waitMs - 1000)
    else some { now with tvUsec := now.tvUsec + waitMs * 1000 }
  else none
termination_by (now.tvUsec + waitMs * 1000).toNat
decreasing_by omega

/-- `time_to_wait`. -/
def timeToWait (now : TimeVal) (waitMs : Int) : Option TimeSpec :=
  (normalise now waitMs).map fun t => ⟨t.tvSec, t.tvUsec * 1000⟩

/-- The deadline that was passed on, and what came back. -/
structure TimedWait (ρ : Type*) where
  deadline : TimeSpec
  result : ρ

def ETIMEDOUT : Int := 110

/-- `BasicBuf::WaitFill(int)`; `timedwait` answers for `pthread_cond_timedwait`. -/
def BasicBuf.waitFill (timedwait : TimeSpec → Int) (now : TimeVal) (waitMs : Int) :
    Option (TimedWait Bool) :=
  (timeToWait now waitMs).map fun t => ⟨t, timedwait t = ETIMEDOUT⟩

/-- `AckContext::WaitFill(int)`. -/
def AckContext.waitFill (timedwait : TimeSpec → Int) (now : TimeVal) (waitMs : Int) :
    Option (TimedWait Int) :=
  (timeToWait now waitMs).map fun t => ⟨t, timedwait t⟩

/-! ### The loop -/

/-- What the loop makes of `now` and `waitMs`. -/
structure Normalised (now : TimeVal) (waitMs : Int) (t : TimeVal) : Prop where
  micros_eq : t.micros = now.micros + waitMs * 1000
  nonneg : 0 ≤ t.tvUsec
  le_million : t.tvUsec ≤ 1000000
  /-- A carry never takes everything. -/
  eq_zero_iff : t.tvUsec = 0 ↔ now.tvUsec + waitMs * 1000 = 0

theorem normalise_spec {now : TimeVal} {waitMs : Int} (husec : now.tvUsec < 1000000)
    (hsum : 0 ≤ now.tvUsec + waitMs * 1000) (hint : IsInt (waitMs * 1000)) :
    ∃ t, normalise now waitMs = some t ∧ Normalised now waitMs t := by
  induction now, waitMs using normalise.induct with
  | case1 now waitMs _ hlarge ih =>
    have hint' : IsInt ((waitMs - 1000) * 1000) := by
      have hle := hint.2
      constructor <;> omega
    obtain ⟨t, ht, hspec⟩ := ih husec (by show 0 ≤ now.tvUsec + _; omega) hint'
    refine ⟨t, by rw [normalise, if_pos hint, if_pos hlarge, ht], ?_, hspec.nonneg,
      hspec.le_million, ?_⟩
    · rw [hspec.micros_eq]
      simp only [TimeVal.micros]
      ring
    · -- more than a million microseconds are left before the carry, so some after it
      have hiff := hspec.eq_zero_iff
      have hstep : now.tvUsec + (waitMs - 1000) * 1000 ≠ 0 := by omega
      constructor
      · intro h
        exact absurd (hiff.mp h) hstep
      · intro h
        omega
  | case2 now waitMs _ hsmall =>
    refine ⟨_, by rw [normalise, if_pos hint, if_neg hsmall], ?_, hsum, ?_, Iff.rfl⟩
    · simp only [TimeVal.micros]
      ring
    · show now.tvUsec + waitMs * 1000 ≤ 1000000
      omega
  | case3 _ _ hover => exact absurd hint hover

/-- The microseconds reach the million exactly if they are a positive multiple of it to begin
with. -/
theorem Normalised.lt_million_iff {now t : TimeVal} {waitMs : Int}
    (h : Normalised now waitMs t) : t.tvUsec < 1000000 ↔
      now.tvUsec + waitMs * 1000 = 0 ∨ ¬1000000 ∣ now.tvUsec + waitMs * 1000 := by
  have hmicros := h.micros_eq
  have hnonneg := h.nonneg
  have hle := h.le_million
  have hzero := h.eq_zero_iff
  simp only [TimeVal.micros] at hmicros
  omega

/-! ### The deadline -/

/-- The deadline is `now` plus `waitMs`, and normalised. -/
def ValidDeadline (now : TimeVal) (waitMs : Int) (deadline : TimeSpec) : Prop :=
  deadline.nanos = now.micros * 1000 + waitMs * 1000000 ∧ deadline.IsNormal

/-- The deadline is exact in any case; the slip is in its form only. -/
theorem timeToWait_spec {now : TimeVal} {waitMs : Int} (husec : 0 ≤ now.tvUsec)
    (husec' : now.tvUsec < 1000000) (hwait : 0 ≤ waitMs) (hint : IsInt (waitMs * 1000)) :
    ∃ t, timeToWait now waitMs = some t ∧
      t.nanos = now.micros * 1000 + waitMs * 1000000 ∧
      (t.IsNormal ↔
        now.tvUsec + waitMs * 1000 = 0 ∨ ¬1000000 ∣ now.tvUsec + waitMs * 1000) := by
  obtain ⟨t, ht, hspec⟩ := normalise_spec husec' (by omega) hint
  refine ⟨⟨t.tvSec, t.tvUsec * 1000⟩, by rw [timeToWait, ht]; rfl, ?_, ?_⟩
  · have hmicros := hspec.micros_eq
    simp only [TimeVal.micros] at hmicros
    simp only [TimeSpec.nanos, TimeVal.micros]
    omega
  · rw [← hspec.lt_million_iff]
    have hnonneg := hspec.nonneg
    show 0 ≤ t.tvUsec * 1000 ∧ t.tvUsec * 1000 < 1000000000 ↔ t.tvUsec < 1000000
    omega

end WspaceScout
