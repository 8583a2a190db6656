import Mathlib.Tactic.TypeStar

/-!
# Machines with faults

A machine takes one input at a time. An input may be disabled in a state (a thread that is
blocked, a message that cannot arrive), and executing an enabled input either yields the next
state or a fault, which stops the machine.

## Main definitions

- `Machine.Reachable` — states reached from an initial state by enabled, fault-free steps
- `Machine.restrict` — the same machine run only along inputs that meet a side condition
- `Machine.Steps` — runs with their length
- `Machine.trace` — a run that is computed from its inputs

## Main results

- `Machine.Reachable.invariant` — the induction rule for invariants
- `Machine.Reachable.project` — reachability is preserved by a step-wise projection
- `Machine.Steps.bounded` — a measure that decreases bounds the length of a run
-/

namespace Foundation

/-- Initial states, the inputs a state accepts, and the effect of an input. -/
structure Machine (σ : Type*) (ι : Type*) (ε : Type*) where
  init : σ → Prop
  enabled : σ → ι → Prop
  exec : σ → ι → Except ε σ

namespace Machine

variable {σ ι ε τ κ δ : Type*}

/-- The states of all finite fault-free runs. -/
inductive Reachable (M : Machine σ ι ε) : σ → Prop where
  | init {s : σ} : M.init s → M.Reachable s
  | step {s s' : σ} {i : ι} :
      M.Reachable s → M.enabled s i → M.exec s i = .ok s' → M.Reachable s'

/-- Only the inputs that meet `P` in the state where they are taken. -/
def restrict (M : Machine σ ι ε) (P : σ → ι → Prop) : Machine σ ι ε where
  init := M.init
  enabled s i := M.enabled s i ∧ P s i
  exec := M.exec

/-- The runs that go on from `s`. -/
def startingAt (M : Machine σ ι ε) (s : σ) : Machine σ ι ε where
  init := (· = s)
  enabled := M.enabled
  exec := M.exec

/-- An invariant that holds initially and is kept by every step taken from a reachable state
holds of every reachable state. -/
theorem Reachable.invariant {M : Machine σ ι ε} {I : σ → Prop} {s : σ}
    (h : M.Reachable s) (hinit : ∀ s, M.init s → I s)
    (hstep : ∀ s i s', M.Reachable s → I s → M.enabled s i → M.exec s i = .ok s' → I s') :
    I s := by
  induction h with
  | init h0 => exact hinit _ h0
  | step hr hen hex ih => exact hstep _ _ _ hr ih hen hex

/-- A restricted run is a run. -/
theorem Reachable.of_restrict {M : Machine σ ι ε} {P : σ → ι → Prop} {s : σ}
    (h : (M.restrict P).Reachable s) : M.Reachable s := by
  induction h with
  | init h0 => exact .init h0
  | step _ hen hex ih => exact .step ih hen.1 hex

/-- Take inputs one after the other, as long as each passes the test `ok`. -/
def trace (M : Machine σ ι ε) (ok : σ → ι → Bool) : σ → List ι → Option σ
  | s, [] => some s
  | s, i :: l =>
    if ok s i then
      match M.exec s i with
      | .ok s' => M.trace ok s' l
      | .error _ => none
    else none

/-- A trace is a run, if the test is strict enough on states that meet `I`. -/
theorem Reachable.trace {M : Machine σ ι ε} {ok : σ → ι → Bool} {I : σ → Prop} {s s' : σ}
    {l : List ι} (h : M.Reachable s) (hs : I s) (hok : ∀ s i, I s → ok s i = true → M.enabled s i)
    (hkeep : ∀ s i s', I s → M.exec s i = .ok s' → I s') (htrace : M.trace ok s l = some s') :
    M.Reachable s' := by
  induction l generalizing s with
  | nil =>
    cases htrace
    exact h
  | cons i l ih =>
    simp only [Machine.trace] at htrace
    split at htrace
    · next hi =>
      split at htrace
      · next t ht => exact ih (.step h (hok s i hs hi) ht) (hkeep s i t hs ht) htrace
      · cases htrace
    · cases htrace

/-- Runs of `n` steps. -/
inductive Steps (M : Machine σ ι ε) : Nat → σ → σ → Prop where
  | refl {s : σ} : M.Steps 0 s s
  | step {n : Nat} {s t u : σ} {i : ι} :
      M.Steps n s t → M.enabled t i → M.exec t i = .ok u → M.Steps (n + 1) s u

theorem Steps.reachable {M : Machine σ ι ε} {n : Nat} {s t : σ} (h : M.Steps n s t)
    (hs : M.Reachable s) : M.Reachable t := by
  induction h with
  | refl => exact hs
  | step _ hen hex ih => exact .step (ih hs) hen hex

/-- A measure that every step of a run decreases bounds its length. -/
theorem Steps.bounded {M : Machine σ ι ε} {m : σ → Nat} {n : Nat} {s t : σ} (h : M.Steps n s t)
    (hdec : ∀ t i u, M.enabled t i → M.exec t i = .ok u → m u < m t) : n + m t ≤ m s := by
  induction h with
  | refl => omega
  | step _ hen hex ih =>
    have hlt := hdec _ _ _ hen hex
    omega

/-- If every step of `M` is, seen through `π`, a step of `N` or no step at all, then `π` maps
reachable states to reachable states. -/
theorem Reachable.project {M : Machine σ ι ε} {N : Machine τ κ δ} (π : σ → τ) {s : σ}
    (h : M.Reachable s) (hinit : ∀ s, M.init s → N.init (π s))
    (hstep : ∀ s i s', M.Reachable s → M.enabled s i → M.exec s i = .ok s' →
      π s' = π s ∨ ∃ k, N.enabled (π s) k ∧ N.exec (π s) k = .ok (π s')) :
    N.Reachable (π s) := by
  induction h with
  | init h0 => exact .init (hinit _ h0)
  | step hr hen hex ih =>
    obtain heq | ⟨k, hk, hkex⟩ := hstep _ _ _ hr hen hex
    · exact heq ▸ ih
    · exact .step ih hk hkex

end Machine

end Foundation
