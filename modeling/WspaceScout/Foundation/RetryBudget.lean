import Mathlib.Tactic.TypeStar

/-!
# Packets with a retry budget

The life of one packet in a sender that sends it once and repeats it at most `R` times. A packet
leaves the sender in two ways only: the receiver has confirmed it, or its budget is used up.
`Packet.Accounts` ties the number of times a packet has been sent to the budget that is left.

## Main definitions

- `Packet` — the stages of a packet's life
- `Packet.Move` — the events that take a packet from one stage to the next
- `Packet.Accounts` — the account that every event keeps

## Main results

- `Packet.Move.accounts` — the step rule
- `Packet.Accounts.sends_le`, `Packet.Accounts.gone` — at most `1 + R` sends, and no early loss
- `Packet.Move.of_lost` — the step on which a packet leaves
-/

namespace Foundation

/-- The stages of a packet; `left` is the number of repetitions it may still have. -/
inductive Packet where
  | absent
  | fresh (left : Nat)
  | inFlight (left : Nat)
  | waiting (left : Nat)
  | gone
  deriving DecidableEq, Repr

namespace Packet

/-- One event in the life of a packet. `k` counts how often it is sent in the event, `confirmed`
says that the receiver is known to have it. -/
inductive Move (R : Nat) (confirmed : Prop) : Nat → Packet → Packet → Prop where
  | stay (p : Packet) : Move R confirmed 0 p p
  | enter : Move R confirmed 0 .absent (.fresh R)
  | first (l : Nat) : Move R confirmed 1 (.fresh l) (.inFlight l)
  | lost (l : Nat) : Move R confirmed 0 (.inFlight (l + 1)) (.waiting (l + 1))
  | again (l : Nat) : Move R confirmed 1 (.waiting (l + 1)) (.inFlight l)
  | confirm (p : Packet) : confirmed → p ≠ .absent → Move R confirmed 0 p .gone
  | giveUp : Move R confirmed 0 (.inFlight 0) .gone

/-- The account of a packet that has been sent `sends` times. -/
def Accounts (R sends : Nat) (confirmed : Prop) : Packet → Prop
  | .absent => sends = 0
  | .fresh left => sends = 0 ∧ left = R
  | .inFlight left => sends + left = 1 + R
  | .waiting left => sends + left = 1 + R
  | .gone => sends ≤ 1 + R ∧ (confirmed ∨ sends = 1 + R)

/-- The packet is in the sender's hands. -/
def Held : Packet → Prop
  | .absent | .gone => False
  | _ => True

variable {R sends k : Nat} {confirmed confirmed' : Prop} {p p' : Packet}

theorem Accounts.sends_le (h : Accounts R sends confirmed p) : sends ≤ 1 + R := by
  cases p with
  | absent =>
    have heq : sends = 0 := h
    omega
  | fresh left =>
    have heq : sends = 0 := h.1
    omega
  | inFlight left =>
    have heq : sends + left = 1 + R := h
    omega
  | waiting left =>
    have heq : sends + left = 1 + R := h
    omega
  | gone => exact h.1

/-- The step rule: confirmations are never withdrawn, sends are counted. -/
theorem Move.accounts (h : Move R confirmed' k p p') (hacc : Accounts R sends confirmed p)
    (hmono : confirmed → confirmed') : Accounts R (sends + k) confirmed' p' := by
  have hle := hacc.sends_le
  cases h with
  | stay p =>
    cases p with
    | gone => exact ⟨hacc.1, hacc.2.imp_left hmono⟩
    | _ => exact hacc
  | enter => exact ⟨hacc, rfl⟩
  | first l =>
    obtain ⟨rfl, rfl⟩ := hacc
    change 0 + 1 + l = 1 + l
    omega
  | lost l => exact hacc
  | again l =>
    have heq : sends + (l + 1) = 1 + R := hacc
    change sends + 1 + l = 1 + R
    omega
  | confirm p hconf _ => exact ⟨hle, .inl hconf⟩
  | giveUp => exact ⟨hle, .inr hacc⟩

/-- A packet that the sender has dropped was confirmed or sent `1 + R` times. -/
theorem Accounts.gone (h : Accounts R sends confirmed p) (hgone : p = .gone) :
    confirmed ∨ sends = 1 + R := by
  subst hgone
  exact h.2

/-- On the step that drops it, a packet was confirmed or already sent `1 + R` times. -/
theorem Move.of_lost (h : Move R confirmed' k p p') (hacc : Accounts R sends confirmed p)
    (hheld : p.Held) (hlost : ¬p'.Held) : confirmed' ∨ sends = 1 + R := by
  cases h with
  | stay p => exact absurd hheld hlost
  | enter => exact absurd hheld id
  | first l => exact absurd trivial hlost
  | lost l => exact absurd trivial hlost
  | again l => exact absurd trivial hlost
  | confirm p hconf _ => exact .inl hconf
  | giveUp => exact .inr hacc

end Packet

end Foundation
