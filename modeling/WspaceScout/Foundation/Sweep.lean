import WspaceScout.Foundation.CellRing

/-!
# One pass over a window of a ring

A sweep visits the indices `lo, lo + 1, …` of a ring in order and rewrites each cell. Along the
way it moves a low cursor over the leading run of free cells and remembers the first marked cell.
`Swept` is what such a pass has done when it stands at index `i`; `Swept.visit` is its step rule.

## Main definitions

- `IsFirst p lo hi r` — `r` is the first index of `[lo, hi)` with `p`, or `hi` if there is none
- `Sweep`, `Sweep.visit` — the state of a pass and the visit of one cell
- `Swept` — the specification of the cells visited so far and of both cursors
-/

namespace Foundation

/-- `r` is the first index of `[lo, hi)` that satisfies `p`, and `hi` if none does. -/
structure IsFirst (p : Nat → Prop) (lo hi r : Nat) : Prop where
  lo_le : lo ≤ r
  le_hi : r ≤ hi
  before : ∀ j, lo ≤ j → j < r → ¬p j
  hit : r < hi → p r

namespace IsFirst

variable {p q : Nat → Prop} {lo hi r r' : Nat}

theorem refl (p : Nat → Prop) (lo : Nat) : IsFirst p lo lo lo :=
  ⟨Nat.le_refl lo, Nat.le_refl lo, fun _ h1 h2 => absurd h1 (Nat.not_le_of_lt h2),
    fun h => absurd h (Nat.lt_irrefl lo)⟩

theorem unique (h : IsFirst p lo hi r) (h' : IsFirst p lo hi r') : r = r' := by
  have h1 := h.le_hi
  have h2 := h'.le_hi
  obtain hlt | heq | hlt := Nat.lt_trichotomy r r'
  · exact absurd (h.hit (by omega)) (h'.before r h.lo_le hlt)
  · exact heq
  · exact absurd (h'.hit (by omega)) (h.before r' h'.lo_le hlt)

theorem congr (h : IsFirst p lo hi r) (hpq : ∀ j, lo ≤ j → j < hi → (p j ↔ q j)) :
    IsFirst q lo hi r := by
  have hle := h.le_hi
  refine ⟨h.lo_le, hle, fun j h1 h2 hq => h.before j h1 h2 ((hpq j h1 (by omega)).mpr hq), ?_⟩
  exact fun hlt => (hpq r h.lo_le hlt).mp (h.hit hlt)

/-- Nothing found, and the next index does not satisfy `p` either. -/
theorem none (hle : lo ≤ hi) (h : ∀ j, lo ≤ j → j < hi → ¬p j) : IsFirst p lo hi hi :=
  ⟨hle, Nat.le_refl hi, h, fun hlt => absurd hlt (Nat.lt_irrefl hi)⟩

/-- One more index, when all before it were passed and it does not satisfy `p` either. -/
theorem succ_pass (h : IsFirst p lo hi hi) (hn : ¬p hi) : IsFirst p lo (hi + 1) (hi + 1) := by
  have hle := h.lo_le
  refine none (by omega) fun j h1 h2 => ?_
  obtain hlt | heq := Nat.lt_or_eq_of_le (Nat.le_of_lt_succ h2)
  · exact h.before j h1 hlt
  · exact heq ▸ hn

/-- One more index, when the search has already stopped or stops at this index. -/
theorem succ_stop (h : IsFirst p lo hi r) (hp : r = hi → p hi) : IsFirst p lo (hi + 1) r := by
  have hr := h.le_hi
  refine ⟨h.lo_le, by omega, h.before, fun _ => ?_⟩
  by_cases heq : r = hi
  · exact heq ▸ hp heq
  · exact h.hit (by omega)

end IsFirst

/-- The state of a pass: the ring, the low cursor, and the first marked index once one has been
seen (`fresh` says that none has). -/
structure Sweep (N : Nat) (α : Type*) where
  ring : CellRing N α
  low : Nat
  mark : Nat
  fresh : Bool

variable {N : Nat} [NeZero N] {α : Type*} (free marked : α → Prop) [DecidablePred free]
  [DecidablePred marked]

/-- Visit index `i` and leave `a` in its cell. -/
def Sweep.visit (s : Sweep N α) (i : Nat) (a : α) : Sweep N α where
  ring := s.ring.set i a
  low := if s.low = i ∧ free a then i + 1 else s.low
  mark := if s.fresh = true ∧ marked a then i else s.mark
  fresh := s.fresh && !decide (marked a)

/-- What a pass that started from `r0` at `lo`, with `mark0` for its mark, has done when it
stands at `i`: the cells before `i` hold their image under `f`. -/
structure Swept (r0 : CellRing N α) (f : Nat → α → α) (lo mark0 i : Nat) (s : Sweep N α) :
    Prop where
  visited : ∀ j, lo ≤ j → j < i → s.ring.get j = f j (r0.get j)
  ahead : ∀ j, i ≤ j → j < lo + N → s.ring.get j = r0.get j
  low : IsFirst (fun j => ¬free (s.ring.get j)) lo i s.low
  unmarked : s.fresh = true →
    s.mark = mark0 ∧ ∀ j, lo ≤ j → j < i → ¬marked (s.ring.get j)
  first : s.fresh = false →
    s.mark < i ∧ IsFirst (fun j => marked (s.ring.get j)) lo i s.mark

namespace Swept

variable {free marked} {r0 : CellRing N α} {f : Nat → α → α} {lo mark0 i : Nat} {s : Sweep N α}

/-- The step rule of a pass. -/
theorem visit (h : Swept free marked r0 f lo mark0 i s) (hlo : lo ≤ i) (hhi : i < lo + N) :
    Swept free marked r0 f lo mark0 (i + 1) (s.visit free marked i (f i (r0.get i))) := by
  have hold : ∀ j, lo ≤ j → j < lo + N → j ≠ i →
      (s.ring.set i (f i (r0.get i))).get j = s.ring.get j := fun j h1 h2 hne =>
    s.ring.get_set_window _ ⟨hlo, hhi⟩ ⟨h1, h2⟩ hne
  have hlow : IsFirst (fun j => ¬free ((s.ring.set i (f i (r0.get i))).get j)) lo i s.low :=
    h.low.congr fun j h1 h2 => by rw [hold j h1 (by omega) (by omega)]
  refine ⟨?_, ?_, ?_, ?_, ?_⟩
  · intro j h1 h2
    by_cases hji : j = i
    · subst j
      exact s.ring.get_set_self i _
    · exact (hold j h1 (by omega) hji).trans (h.visited j h1 (by omega))
  · intro j h1 h2
    exact (hold j (by omega) h2 (by omega)).trans (h.ahead j (by omega) h2)
  · by_cases hc : s.low = i ∧ free (f i (r0.get i))
    · have hnext : (s.visit free marked i (f i (r0.get i))).low = i + 1 := if_pos hc
      rw [hnext]
      rw [hc.1] at hlow
      exact hlow.succ_pass (by rw [s.ring.get_set_self]; exact not_not.mpr hc.2)
    · have hnext : (s.visit free marked i (f i (r0.get i))).low = s.low := if_neg hc
      rw [hnext]
      exact hlow.succ_stop fun heq => by
        rw [s.ring.get_set_self]
        exact fun hf => hc ⟨heq, hf⟩
  · intro hfresh
    simp only [Sweep.visit, Bool.and_eq_true, Bool.not_eq_true', decide_eq_false_iff_not]
      at hfresh ⊢
    obtain ⟨hmark, hnone⟩ := h.unmarked hfresh.1
    refine ⟨by rw [if_neg (fun hc => hfresh.2 hc.2), hmark], fun j h1 h2 => ?_⟩
    by_cases hji : j = i
    · subst j
      rw [s.ring.get_set_self]
      exact hfresh.2
    · rw [hold j h1 (by omega) hji]
      exact hnone j h1 (by omega)
  · intro hfresh
    by_cases hs : s.fresh = true
    · -- the first marked cell is the one just visited
      have hm : marked (f i (r0.get i)) := by
        by_contra hn
        simp [Sweep.visit, hs, hn] at hfresh
      obtain ⟨-, hnone⟩ := h.unmarked hs
      have hmark : (s.visit free marked i (f i (r0.get i))).mark = i := if_pos ⟨hs, hm⟩
      rw [hmark]
      refine ⟨Nat.lt_succ_self i, hlo, Nat.le_succ i, fun j h1 h2 => ?_, fun _ => ?_⟩
      · simp only [Sweep.visit]
        rw [hold j h1 (by omega) (by omega)]
        exact hnone j h1 h2
      · simp only [Sweep.visit]
        rw [s.ring.get_set_self]
        exact hm
    · obtain ⟨hlt, hfirst⟩ := h.first (Bool.not_eq_true _ ▸ hs)
      have hmark : (s.visit free marked i (f i (r0.get i))).mark = s.mark :=
        if_neg (fun hc => hs hc.1)
      have hmoved : IsFirst (fun j => marked ((s.ring.set i (f i (r0.get i))).get j)) lo i s.mark :=
        hfirst.congr fun j h1 h2 => by rw [hold j h1 (by omega) (by omega)]
      rw [hmark]
      exact ⟨by omega, hmoved.succ_stop fun heq => absurd heq (by omega)⟩

omit [DecidablePred free] [DecidablePred marked] in
/-- Only the images of the cells visited so far matter. -/
theorem congr {g : Nat → α → α} (h : Swept free marked r0 f lo mark0 i s)
    (hfg : ∀ j, lo ≤ j → j < i → f j (r0.get j) = g j (r0.get j)) :
    Swept free marked r0 g lo mark0 i s :=
  ⟨fun j h1 h2 => (h.visited j h1 h2).trans (hfg j h1 h2), h.ahead, h.low, h.unmarked, h.first⟩

omit [DecidablePred free] [DecidablePred marked] in
/-- A marked cell stops the low cursor, so the cursor never passes the first mark. -/
theorem low_le_mark (h : Swept free marked r0 f lo mark0 i s) (hfresh : s.fresh = false)
    (hdisj : ∀ a, marked a → ¬free a) : s.low ≤ s.mark := by
  obtain ⟨hlt, hfirst⟩ := h.first hfresh
  by_contra hgt
  exact h.low.before s.mark hfirst.lo_le (by omega) (hdisj _ (hfirst.hit hlt))

end Swept

end Foundation
