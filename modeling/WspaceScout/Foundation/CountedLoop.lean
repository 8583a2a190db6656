import Mathlib.Tactic.TypeStar

/-!
# Counted loops

`for (i = lo; i < lo + n; i++) body`, once as a fold for a body that always runs to the end and
once as `countUp` for a body that may leave the loop or fault. Each form comes with its invariant
rule, in which the invariant is indexed by the next value of the counter.
-/

namespace Foundation

universe u

variable {σ ε : Type*}

/-- The invariant rule for a counted loop without exits. -/
theorem foldl_range'_invariant {I : Nat → σ → Prop} (body : σ → Nat → σ) (lo n : Nat) (s : σ)
    (h0 : I lo s)
    (hstep : ∀ i s, lo ≤ i → i < lo + n → I i s → I (i + 1) (body s i)) :
    I (lo + n) ((List.range' lo n).foldl body s) := by
  induction n generalizing lo s with
  | zero => exact h0
  | succ n ih =>
    rw [List.range'_succ, List.foldl_cons, show lo + (n + 1) = lo + 1 + n by omega]
    exact ih (lo + 1) (body s lo) (hstep lo s (Nat.le_refl lo) (by omega) h0)
      (fun i t hlo hhi => hstep i t (by omega) (by omega))

/-- The invariant rule for `for (i = 0; i < n; i++) body`. -/
theorem foldl_range_invariant {I : Nat → σ → Prop} (body : σ → Nat → σ) (n : Nat) (s : σ)
    (h0 : I 0 s) (hstep : ∀ i s, i < n → I i s → I (i + 1) (body s i)) :
    I n ((List.range n).foldl body s) := by
  have h := foldl_range'_invariant body 0 n s h0
    (fun i t _ hi ht => hstep i t (by omega) ht)
  rwa [Nat.zero_add, ← List.range_eq_range'] at h

/-- The invariant rule for `for (i = n - 1; i >= 0; i--) body`. -/
theorem foldr_range_invariant {I : Nat → σ → Prop} (body : Nat → σ → σ) (n : Nat) (s : σ)
    (hn : I n s) (hstep : ∀ i s, i < n → I (i + 1) s → I i (body i s)) :
    I 0 ((List.range n).foldr body s) := by
  induction n generalizing s with
  | zero => exact hn
  | succ n ih =>
    rw [List.range_succ, List.foldr_append]
    exact ih _ (hstep n s (Nat.lt_succ_self n) hn) (fun i t hi => hstep i t (Nat.lt_succ_of_lt hi))

/-- The invariant rule for a counted loop that may give up, which it does in `G` only. -/
theorem foldlM_range_invariant {I : Nat → σ → Prop} {G : Prop} (body : σ → Nat → Option σ)
    (n : Nat) (s : σ) (h0 : I 0 s)
    (hstep : ∀ i s, i < n → I i s → (∃ s', body s i = some s' ∧ I (i + 1) s') ∨
      body s i = none ∧ G) :
    (∃ s', (List.range n).foldlM body s = some s' ∧ I n s') ∨
      (List.range n).foldlM body s = none ∧ G := by
  induction n with
  | zero => exact .inl ⟨s, rfl, h0⟩
  | succ n ih =>
    rw [List.range_succ, List.foldlM_append]
    obtain ⟨t, hrun, ht⟩ | ⟨hrun, hg⟩ := ih fun i t hi => hstep i t (Nat.lt_succ_of_lt hi)
    · rw [hrun]
      obtain ⟨s', hbody, hs'⟩ | ⟨hbody, hg⟩ := hstep n t (Nat.lt_succ_self n) ht
      · exact .inl ⟨s', by simp [hbody], hs'⟩
      · exact .inr ⟨by simp [hbody], hg⟩
    · rw [hrun]
      exact .inr ⟨rfl, hg⟩

/-- A counted loop whose body returns the next state and whether to leave the loop. -/
def countUp (body : σ → Nat → Except ε (σ × Bool)) : Nat → Nat → σ → Except ε σ
  | _, 0, s => .ok s
  | i, n + 1, s =>
    match body s i with
    | .error e => .error e
    | .ok (s', true) => .ok s'
    | .ok (s', false) => countUp body (i + 1) n s'

/-- Sequenced computations return if both do. -/
theorem bind_eq_ok {α β : Type u} {x : Except ε α} {f : α → Except ε β} {b : β} :
    x >>= f = .ok b ↔ ∃ a, x = .ok a ∧ f a = .ok b := by
  cases x with
  | error e =>
    constructor
    · intro h
      cases h
    · rintro ⟨a, ha, -⟩
      cases ha
  | ok a =>
    constructor
    · intro h
      exact ⟨a, rfl, h⟩
    · rintro ⟨a', ha, h⟩
      cases ha
      exact h

theorem mapError_eq_ok {δ α : Type*} {x : Except ε α} {f : ε → δ} {a : α} :
    x.mapError f = .ok a ↔ x = .ok a := by
  cases x with
  | error e =>
    constructor
    · intro h
      cases h
    · intro h
      cases h
  | ok b =>
    constructor
    · intro h
      cases h
      rfl
    · intro h
      cases h
      rfl

/-- What a computation may end in: a result in `Q` or a fault in `F`. -/
def Ends (Q : σ → Prop) (F : ε → Prop) : Except ε σ → Prop
  | .ok s => Q s
  | .error e => F e

/-- The invariant rule for `countUp`: `I` is kept as long as the loop goes on, `Q` holds wherever
it is left, and the body faults in `F` only. -/
theorem countUp_ends {I : Nat → σ → Prop} {Q : σ → Prop} {F : ε → Prop}
    (body : σ → Nat → Except ε (σ × Bool)) (lo n : Nat) (s : σ) (h0 : I lo s)
    (hstep : ∀ i s, lo ≤ i → i < lo + n → I i s →
      Ends (fun r => (r.2 = false → I (i + 1) r.1) ∧ (r.2 = true → Q r.1)) F (body s i))
    (hend : ∀ s, I (lo + n) s → Q s) : Ends Q F (countUp body lo n s) := by
  induction n generalizing lo s with
  | zero => exact hend s h0
  | succ n ih =>
    have hbody := hstep lo s (Nat.le_refl lo) (by omega) h0
    unfold countUp
    cases hres : body s lo with
    | error e =>
      rw [hres] at hbody
      exact hbody
    | ok r =>
      obtain ⟨s', brk⟩ := r
      rw [hres] at hbody
      obtain ⟨hgo, hleave⟩ := hbody
      cases brk with
      | true => exact hleave rfl
      | false =>
        exact ih (lo + 1) s' (hgo rfl)
          (fun i t hlo hhi => hstep i t (by omega) (by omega))
          (fun t ht => hend t (by rwa [show lo + (n + 1) = lo + 1 + n by omega]))

/-- The rule for a body that never faults. -/
theorem countUp_rule {I : Nat → σ → Prop} {Q : σ → Prop}
    (body : σ → Nat → Except ε (σ × Bool)) (lo n : Nat) (s : σ) (h0 : I lo s)
    (hstep : ∀ i s, lo ≤ i → i < lo + n → I i s →
      ∃ s' brk, body s i = .ok (s', brk) ∧ (brk = false → I (i + 1) s') ∧ (brk = true → Q s'))
    (hend : ∀ s, I (lo + n) s → Q s) :
    ∃ s', countUp body lo n s = .ok s' ∧ Q s' := by
  have hends : Ends Q (fun _ => False) (countUp body lo n s) :=
    countUp_ends body lo n s h0 (fun i t hlo hhi ht => by
      obtain ⟨s', brk, hbody, hgo, hleave⟩ := hstep i t hlo hhi ht
      rw [hbody]
      exact ⟨hgo, hleave⟩) hend
  cases hres : countUp body lo n s with
  | error e =>
    rw [hres] at hends
    exact hends.elim
  | ok s' =>
    rw [hres] at hends
    exact ⟨s', rfl, hends⟩

end Foundation
