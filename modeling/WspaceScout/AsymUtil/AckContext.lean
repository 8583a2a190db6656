import WspaceScout.AsymUtil.AckPkt
import WspaceScout.Foundation.Machine

/-!
# The mailbox between `RcvAck` and `TxHandleAck`

An `AckContext` holds one ack, a flag, a lock and two conditions. `RcvAck` waits until the flag is
down, copies a datagram and raises the flag; `TxHandleAck` waits until the flag is up or, for a
`DATA_ACK`, until it times out, takes the flag down and parses.

A step is what a thread does between two scheduling points: taking the lock, the section up to a
wait or up to `UnLock`, and `UnLock`. A signal moves the waiting thread to a state in which it has
yet to take the lock again, so a thread in the state `waiting` has no signal pending.

## Main definitions

- `mailboxMachine` — one producer and one consumer on one context
- `MailboxInv` — the invariant of its runs

## Main results

- `MailboxInv.step` — the step lemma
- `mailboxMachine_spec` — the acks that are parsed are those that were stored, and nobody is left
  waiting
-/

namespace WspaceScout

open Foundation

/-- The type of an `AckContext`. -/
inductive AckType where
  | dataAck
  | rawAck
  deriving DecidableEq, Repr

/-- The type in the packet. -/
def AckType.toByte : AckType → Nat
  | .dataAck => DATA_ACK
  | .rawAck => RAW_ACK

/-- What `TxHandleAck` compares a parsed ack with. -/
structure AckContext where
  type : AckType
  clientId : Int
  bsId : Int
  deriving DecidableEq, Repr

/-- `TxHandleDataAck` passes no pointer for `num_pkts`. -/
def AckContext.parse (ctx : AckContext) (p : AckPkt) : AckPkt.Parsed :=
  p.parseNack (ctx.type = .rawAck)

/-- The assertions on a parsed ack. -/
def AckContext.accepts (ctx : AckContext) (r : AckPkt.Parsed) : Bool :=
  r.clientId = ctx.clientId ∧ r.bsId = ctx.bsId ∧ r.type = ctx.type.toByte

/-- Where the thread of `RcvAck` is. -/
inductive RcvPc where
  | idle
  | calling (buf : List UInt8)
  | holding (buf : List UInt8)
  | waiting (buf : List UInt8)
  | woken (buf : List UInt8)
  | leaving

/-- Where the thread of `TxHandleAck` is; `timedOut` says that the last wait ended with
`ETIMEDOUT`, and `leaving` carries what will be returned and what was parsed in this call. -/
inductive HandlePc where
  | idle
  | calling
  | holding (timedOut : Bool)
  | waiting
  | woken (timedOut : Bool)
  | leaving (ackAvailable : Bool) (got : Option AckPkt.Parsed)

/-- The thread has the lock. -/
def RcvPc.inside : RcvPc → Bool
  | .holding _ | .leaving => true
  | _ => false

def HandlePc.inside : HandlePc → Bool
  | .holding _ | .leaving _ _ => true
  | _ => false

/-- `SignalEmpty`: only a thread that waits notices. -/
def RcvPc.signal : RcvPc → RcvPc
  | .waiting buf => .woken buf
  | pc => pc

/-- `SignalFill`. -/
def HandlePc.signal : HandlePc → HandlePc
  | .waiting => .woken false
  | pc => pc

/-- The context and its two threads. The logs are for the proofs: the acks that `RcvAck` has stored,
what `ParseNack` has read, and for each call of `TxHandleAck` its result with what it parsed. -/
structure Mailbox where
  ackAvailable : Bool
  pkt : AckPkt
  rcv : RcvPc
  handle : HandlePc
  stored : List AckPkt
  parsed : List AckPkt.Parsed
  returned : List (Bool × Option AckPkt.Parsed)

/-- One step of one thread. `wake` is a spurious wakeup. -/
inductive MailboxInput where
  | rcvAck (buf : List UInt8)
  | rcvLock
  | rcvRun
  | rcvUnLock
  | rcvWake
  | txHandleAck
  | handleLock
  | handleRun
  | handleUnLock
  | handleWake
  | handleTimeOut

/-- A step of the program; the others are spurious wakeups and the passing of time. -/
def MailboxInput.isProgram : MailboxInput → Bool
  | .rcvWake | .handleWake | .handleTimeOut => false
  | _ => true

/-- A failed assertion of `TxHandleAck`. -/
inductive MailboxFault where
  | wrongAck
  deriving DecidableEq, Repr

namespace Mailbox

/-- Nobody has the lock. -/
def free (s : Mailbox) : Prop := s.rcv.inside = false ∧ s.handle.inside = false

/-- The steps that the threads can take. A timeout may also come after the signal. -/
def enabled (ctx : AckContext) (s : Mailbox) : MailboxInput → Prop
  | .rcvAck _ => s.rcv = .idle
  | .rcvLock => s.free ∧ ∃ buf, s.rcv = .calling buf ∨ s.rcv = .woken buf
  | .rcvRun => ∃ buf, s.rcv = .holding buf
  | .rcvUnLock => s.rcv = .leaving
  | .rcvWake => ∃ buf, s.rcv = .waiting buf
  | .txHandleAck => s.handle = .idle
  | .handleLock => s.free ∧ (s.handle = .calling ∨ ∃ timedOut, s.handle = .woken timedOut)
  | .handleRun => ∃ timedOut, s.handle = .holding timedOut
  | .handleUnLock => ∃ ackAvailable got, s.handle = .leaving ackAvailable got
  | .handleWake => s.handle = .waiting
  | .handleTimeOut =>
    ctx.type = .dataAck ∧ (s.handle = .waiting ∨ ∃ timedOut, s.handle = .woken timedOut)

/-- `RcvAck` under the lock: wait again, or store the ack. -/
def rcvSection (s : Mailbox) (buf : List UInt8) : Mailbox :=
  if s.ackAvailable then { s with handle := s.handle.signal, rcv := .waiting buf }
  else
    { s with
      ackAvailable := true
      pkt := s.pkt.rcvAck buf
      handle := s.handle.signal
      rcv := .leaving
      stored := s.stored ++ [s.pkt.rcvAck buf] }

/-- `TxHandleAck` under the lock: wait again, or leave the loop. -/
def handleSection (ctx : AckContext) (s : Mailbox) (timedOut : Bool) :
    Except MailboxFault Mailbox :=
  if s.ackAvailable = false ∧ timedOut = false then .ok { s with handle := .waiting }
  else if s.ackAvailable then
    let r := ctx.parse s.pkt
    if ctx.accepts r then
      .ok { s with
        ackAvailable := false
        rcv := s.rcv.signal
        handle := .leaving true (some r)
        parsed := s.parsed ++ [r] }
    else .error .wrongAck
  else .ok { s with rcv := s.rcv.signal, handle := .leaving false none }

/-- The effect of a step. -/
def exec (ctx : AckContext) (s : Mailbox) : MailboxInput → Except MailboxFault Mailbox
  | .rcvAck buf => .ok { s with rcv := .calling buf }
  | .rcvLock =>
    match s.rcv with
    | .calling buf | .woken buf => .ok { s with rcv := .holding buf }
    | _ => .ok s
  | .rcvRun =>
    match s.rcv with
    | .holding buf => .ok (s.rcvSection buf)
    | _ => .ok s
  | .rcvUnLock => .ok { s with rcv := .idle }
  | .rcvWake => .ok { s with rcv := s.rcv.signal }
  | .txHandleAck => .ok { s with handle := .calling }
  | .handleLock =>
    match s.handle with
    | .calling => .ok { s with handle := .holding false }
    | .woken timedOut => .ok { s with handle := .holding timedOut }
    | _ => .ok s
  | .handleRun =>
    match s.handle with
    | .holding timedOut => s.handleSection ctx timedOut
    | _ => .ok s
  | .handleUnLock =>
    match s.handle with
    | .leaving ackAvailable got =>
      .ok { s with handle := .idle, returned := s.returned ++ [(ackAvailable, got)] }
    | _ => .ok s
  | .handleWake => .ok { s with handle := s.handle.signal }
  | .handleTimeOut => .ok { s with handle := .woken true }

/-- A new context; its packet holds what the allocator left. -/
def init (pkt : AckPkt) : Mailbox := ⟨false, pkt, .idle, .idle, [], [], []⟩

end Mailbox

/-- One producer and one consumer on one context. -/
def mailboxMachine (ctx : AckContext) : Machine Mailbox MailboxInput MailboxFault where
  init s := ∃ pkt, s = .init pkt
  enabled := Mailbox.enabled ctx
  exec := Mailbox.exec ctx

/-! ### The invariant -/

/-- What the call of `TxHandleAck` in progress has parsed. -/
def HandlePc.got : HandlePc → Option AckPkt.Parsed
  | .leaving _ got => got
  | _ => none

/-- The ack that is stored and not parsed yet. -/
def Mailbox.pending (ctx : AckContext) (s : Mailbox) : List AckPkt.Parsed :=
  if s.ackAvailable then [ctx.parse s.pkt] else []

/-- The invariant of the mailbox. -/
structure MailboxInv (ctx : AckContext) (s : Mailbox) : Prop where
  accounted : s.stored.map ctx.parse = s.parsed ++ s.pending ctx
  kept : s.ackAvailable = true → s.stored.getLast? = some s.pkt
  returned : ∀ r ∈ s.returned, r.1 = r.2.isSome
  leaving : ∀ ackAvailable got, s.handle = .leaving ackAvailable got → ackAvailable = got.isSome
  log : s.parsed = s.returned.filterMap Prod.snd ++ s.handle.got.toList
  rcvWaits : ∀ buf, s.rcv = .waiting buf → s.ackAvailable = true
  handleWaits : s.handle = .waiting → s.ackAvailable = false

variable {ctx : AckContext} {s s' : Mailbox} {i : MailboxInput}

@[simp]
theorem HandlePc.got_signal (pc : HandlePc) : pc.signal.got = pc.got := by
  cases pc <;> rfl

theorem HandlePc.signal_eq_leaving {pc : HandlePc} {b : Bool} {got : Option AckPkt.Parsed}
    (h : pc.signal = .leaving b got) : pc = .leaving b got := by
  cases pc <;> first | exact h | cases h

theorem HandlePc.signal_ne_waiting (pc : HandlePc) : pc.signal ≠ .waiting := by
  cases pc <;> intro h <;> cases h

theorem RcvPc.signal_ne_waiting (pc : RcvPc) (buf : List UInt8) : pc.signal ≠ .waiting buf := by
  cases pc <;> intro h <;> cases h

theorem MailboxInv.init (ctx : AckContext) (pkt : AckPkt) : MailboxInv ctx (.init pkt) where
  accounted := rfl
  kept h := by cases h
  returned r h := by simp [Mailbox.init] at h
  leaving b got h := by cases h
  log := rfl
  rcvWaits buf h := by cases h
  handleWaits _ := rfl

/-- A move of the thread of `RcvAck` that touches nothing else and does not wait. -/
theorem MailboxInv.moveRcv (h : MailboxInv ctx s) {pc : RcvPc} (hpc : ∀ buf, pc ≠ .waiting buf) :
    MailboxInv ctx { s with rcv := pc } :=
  ⟨h.accounted, h.kept, h.returned, h.leaving, h.log, fun buf hw => absurd hw (hpc buf),
    h.handleWaits⟩

/-- A move of the thread of `TxHandleAck` that touches nothing else and does not wait. -/
theorem MailboxInv.moveHandle (h : MailboxInv ctx s) {pc : HandlePc} (hpc : pc ≠ .waiting)
    (hgot : pc.got = s.handle.got) (hleave : ∀ b got, pc = .leaving b got → b = got.isSome) :
    MailboxInv ctx { s with handle := pc } :=
  ⟨h.accounted, h.kept, h.returned, hleave, h.log.trans (by rw [hgot]), h.rcvWaits,
    fun hw => absurd hw hpc⟩

/-- The section of `RcvAck`. -/
theorem MailboxInv.rcvSection (h : MailboxInv ctx s) (buf : List UInt8) :
    MailboxInv ctx (s.rcvSection buf) := by
  have hleave : ∀ b got, s.handle.signal = .leaving b got → b = got.isSome :=
    fun b got heq => h.leaving b got (HandlePc.signal_eq_leaving heq)
  have hlog : s.parsed = s.returned.filterMap Prod.snd ++ s.handle.signal.got.toList := by
    rw [HandlePc.got_signal]
    exact h.log
  unfold Mailbox.rcvSection
  split
  · -- the flag is up: signal, and wait
    rename_i hup
    exact ⟨h.accounted, h.kept, h.returned, hleave, hlog, fun _ _ => hup,
      fun hw => absurd hw (HandlePc.signal_ne_waiting _)⟩
  · -- the flag is down: all that was stored has been parsed
    rename_i hdown
    have hpending : s.pending ctx = [] := if_neg hdown
    have hacc := h.accounted
    rw [hpending, List.append_nil] at hacc
    refine ⟨?_, ?_, h.returned, hleave, hlog, ?_,
      fun hw => absurd hw (HandlePc.signal_ne_waiting _)⟩
    · rw [List.map_append, hacc]
      rfl
    · intro _
      exact List.getLast?_concat
    · intro buf hw
      cases hw

/-- The section of `TxHandleAck`. -/
theorem MailboxInv.handleSection (h : MailboxInv ctx s) {timedOut : Bool}
    (hpc : s.handle = .holding timedOut) (hrun : s.handleSection ctx timedOut = .ok s') :
    MailboxInv ctx s' := by
  have hlog : s.parsed = s.returned.filterMap Prod.snd := by
    have hlog := h.log
    rw [hpc] at hlog
    rw [hlog]
    exact List.append_nil _
  unfold Mailbox.handleSection at hrun
  split at hrun
  · -- no ack and no timeout: wait
    rename_i hwait
    cases hrun
    refine ⟨h.accounted, h.kept, h.returned, ?_, ?_, h.rcvWaits, fun _ => hwait.1⟩
    · intro b got heq
      cases heq
    · rw [hlog]
      exact (List.append_nil _).symm
  · split at hrun
    · -- an ack is there: it is parsed and the flag goes down
      rename_i hup
      simp only at hrun
      split at hrun
      · cases hrun
        have hpending : s.pending ctx = [ctx.parse s.pkt] := if_pos hup
        refine ⟨?_, ?_, h.returned, ?_, ?_, ?_, ?_⟩
        · rw [h.accounted, hpending]
          exact (List.append_nil _).symm
        · intro hup
          cases hup
        · intro b got heq
          cases heq
          rfl
        · rw [hlog]
          rfl
        · intro buf hw
          exact absurd hw (RcvPc.signal_ne_waiting _ _)
        · intro hw
          cases hw
      · cases hrun
    · -- only the timeout came
      rename_i hdown
      cases hrun
      refine ⟨h.accounted, h.kept, h.returned, ?_, ?_, ?_, ?_⟩
      · intro b got heq
        cases heq
        rfl
      · rw [hlog]
        exact (List.append_nil _).symm
      · intro buf hw
        exact absurd hw (RcvPc.signal_ne_waiting _ _)
      · intro hw
        cases hw

/-- Every step keeps the invariant. -/
theorem MailboxInv.step (h : MailboxInv ctx s) (hen : s.enabled ctx i)
    (hex : s.exec ctx i = .ok s') : MailboxInv ctx s' := by
  cases i with
  | rcvAck buf =>
    cases hex
    exact h.moveRcv (by intro buf hw; cases hw)
  | rcvLock =>
    obtain ⟨-, buf, hpc | hpc⟩ := hen
    all_goals
      simp only [Mailbox.exec, hpc] at hex
      cases hex
      exact h.moveRcv (by intro buf hw; cases hw)
  | rcvRun =>
    obtain ⟨buf, hpc⟩ := hen
    simp only [Mailbox.exec, hpc] at hex
    cases hex
    exact h.rcvSection buf
  | rcvUnLock =>
    cases hex
    exact h.moveRcv (by intro buf hw; cases hw)
  | rcvWake =>
    cases hex
    exact h.moveRcv (RcvPc.signal_ne_waiting _)
  | txHandleAck =>
    have hpc : s.handle = .idle := hen
    cases hex
    exact h.moveHandle (by intro hw; cases hw) (by rw [hpc]; rfl) (by intro b got heq; cases heq)
  | handleLock =>
    obtain ⟨-, hpc | ⟨timedOut, hpc⟩⟩ := hen
    all_goals
      simp only [Mailbox.exec, hpc] at hex
      cases hex
      exact h.moveHandle (by intro hw; cases hw) (by rw [hpc]; rfl) (by intro b got heq; cases heq)
  | handleRun =>
    obtain ⟨timedOut, hpc⟩ := hen
    simp only [Mailbox.exec, hpc] at hex
    exact h.handleSection hpc hex
  | handleUnLock =>
    obtain ⟨ackAvailable, got, hpc⟩ := hen
    simp only [Mailbox.exec, hpc] at hex
    cases hex
    -- what the call has parsed moves from its place in the code to the log
    have hlog := h.log
    refine ⟨h.accounted, h.kept, ?_, ?_, ?_, h.rcvWaits, ?_⟩
    · intro r hr
      obtain hr | hr := List.mem_append.mp hr
      · exact h.returned r hr
      · rw [List.mem_singleton.mp hr]
        exact h.leaving _ _ hpc
    · intro b got heq
      cases heq
    · rw [hpc] at hlog
      rw [hlog, List.filterMap_append]
      cases got <;> simp [HandlePc.got]
    · intro hw
      cases hw
  | handleWake =>
    have hpc : s.handle = .waiting := hen
    cases hex
    exact h.moveHandle (HandlePc.signal_ne_waiting _) (HandlePc.got_signal _)
      (by rw [hpc]; intro b got heq; cases heq)
  | handleTimeOut =>
    obtain ⟨-, hpc | ⟨timedOut, hpc⟩⟩ := hen
    all_goals
      cases hex
      exact h.moveHandle (by intro hw; cases hw) (by rw [hpc]; rfl) (by intro b got heq; cases heq)

theorem mailboxInv_of_reachable (h : (mailboxMachine ctx).Reachable s) : MailboxInv ctx s := by
  apply h.invariant
  · rintro s ⟨pkt, rfl⟩
    exact .init ctx pkt
  · intro s i s' _ hinv hen hex
    exact hinv.step hen hex

/-! ### What the mailbox guarantees -/

/-- No ack is lost, read twice or overwritten, and the threads do not wait for each other. -/
structure MailboxSpec (ctx : AckContext) (s : Mailbox) : Prop where
  /-- What has been parsed is what was stored, each once and in order. -/
  inOrder : s.parsed <+: s.stored.map ctx.parse
  /-- At most one ack is unparsed, and the packet holds it. -/
  kept : s.stored.length = s.parsed.length ∨
    s.stored.length = s.parsed.length + 1 ∧ s.stored.getLast? = some s.pkt
  /-- Only a step that finds everything parsed writes to the packet. -/
  notOverwritten : ∀ i s', s.enabled ctx i → s.exec ctx i = .ok s' →
    s'.pkt = s.pkt ∧ s'.stored = s.stored ∨ s.stored.length = s.parsed.length
  /-- A call returns `true` exactly if it has parsed an ack. -/
  returned : ∀ r ∈ s.returned, r.1 = true ↔ ∃ got, r.2 = some got
  /-- What the calls have parsed is all that has been parsed. -/
  byCalls : s.parsed = s.returned.filterMap Prod.snd ++ s.handle.got.toList
  /-- The threads are not both waiting without a signal. -/
  notBothWaiting : ∀ buf, ¬(s.rcv = .waiting buf ∧ s.handle = .waiting)
  /-- Some thread can go on without a spurious wakeup or a timeout. -/
  notWedged : ∃ i, i.isProgram = true ∧ s.enabled ctx i

/-- Once all is parsed, the lengths agree; otherwise one ack is left. -/
theorem MailboxInv.length_stored (h : MailboxInv ctx s) :
    s.stored.length = s.parsed.length + if s.ackAvailable then 1 else 0 := by
  have hlen := congrArg List.length h.accounted
  rw [List.length_map, List.length_append, Mailbox.pending] at hlen
  rw [hlen]
  split <;> rfl

/-- A step that copies a datagram finds everything parsed. -/
theorem MailboxInv.notOverwritten (h : MailboxInv ctx s) (hen : s.enabled ctx i)
    (hex : s.exec ctx i = .ok s') :
    s'.pkt = s.pkt ∧ s'.stored = s.stored ∨ s.stored.length = s.parsed.length := by
  have hlen := h.length_stored
  cases i with
  | rcvRun =>
    obtain ⟨buf, hpc⟩ := hen
    simp only [Mailbox.exec, hpc, Mailbox.rcvSection] at hex
    split at hex
    · cases hex
      exact .inl ⟨rfl, rfl⟩
    · -- the copy is made with the flag down
      rename_i hdown
      rw [if_neg hdown] at hlen
      exact .inr hlen
  | handleRun =>
    obtain ⟨timedOut, hpc⟩ := hen
    simp only [Mailbox.exec, hpc, Mailbox.handleSection] at hex
    left
    split at hex
    · cases hex
      exact ⟨rfl, rfl⟩
    · split at hex
      · split at hex
        · cases hex
          exact ⟨rfl, rfl⟩
        · cases hex
      · cases hex
        exact ⟨rfl, rfl⟩
  | rcvAck buf | rcvUnLock | rcvWake | txHandleAck | handleWake | handleTimeOut =>
    cases hex
    exact .inl ⟨rfl, rfl⟩
  | rcvLock =>
    obtain ⟨-, buf, hpc | hpc⟩ := hen
    all_goals
      simp only [Mailbox.exec, hpc] at hex
      cases hex
      exact .inl ⟨rfl, rfl⟩
  | handleLock =>
    obtain ⟨-, hpc | ⟨timedOut, hpc⟩⟩ := hen
    all_goals
      simp only [Mailbox.exec, hpc] at hex
      cases hex
      exact .inl ⟨rfl, rfl⟩
  | handleUnLock =>
    obtain ⟨ackAvailable, got, hpc⟩ := hen
    simp only [Mailbox.exec, hpc] at hex
    cases hex
    exact .inl ⟨rfl, rfl⟩

/-- A thread that does not wait can go on, unless the other one has the lock and can go on. -/
theorem MailboxInv.notWedged (h : MailboxInv ctx s) :
    ∃ i : MailboxInput, i.isProgram = true ∧ s.enabled ctx i := by
  cases hrcv : s.rcv with
  | idle => exact ⟨.rcvAck [], rfl, hrcv⟩
  | holding buf => exact ⟨.rcvRun, rfl, buf, hrcv⟩
  | leaving => exact ⟨.rcvUnLock, rfl, hrcv⟩
  | calling buf | woken buf | waiting buf =>
    have hout : s.rcv.inside = false := by
      rw [hrcv]
      rfl
    cases hhandle : s.handle with
    | idle => exact ⟨.txHandleAck, rfl, hhandle⟩
    | holding timedOut => exact ⟨.handleRun, rfl, timedOut, hhandle⟩
    | leaving ackAvailable got => exact ⟨.handleUnLock, rfl, ackAvailable, got, hhandle⟩
    | calling =>
      exact ⟨.handleLock, rfl, ⟨hout, by rw [hhandle]; rfl⟩, .inl hhandle⟩
    | woken timedOut =>
      exact ⟨.handleLock, rfl, ⟨hout, by rw [hhandle]; rfl⟩, .inr ⟨timedOut, hhandle⟩⟩
    | waiting =>
      have hfree : s.free := ⟨hout, by rw [hhandle]; rfl⟩
      first
        | exact ⟨.rcvLock, rfl, hfree, buf, .inl hrcv⟩
        | exact ⟨.rcvLock, rfl, hfree, buf, .inr hrcv⟩
        | -- the flag would be up and down
          have hup := h.rcvWaits buf hrcv
          have hdown := h.handleWaits hhandle
          rw [hup] at hdown
          cases hdown

/-- In every run the acks that `ParseNack` reads are a prefix of those that `RcvAck` has stored, no
unparsed ack is overwritten, `TxHandleAck` returns `true` exactly if it has parsed one, and the
threads are never both left waiting. -/
theorem mailboxMachine_spec (h : (mailboxMachine ctx).Reachable s) : MailboxSpec ctx s := by
  have hinv := mailboxInv_of_reachable h
  refine ⟨?_, ?_, ?_, ?_, hinv.log, ?_, hinv.notWedged⟩
  · rw [hinv.accounted]
    exact List.prefix_append _ _
  · have hlen := hinv.length_stored
    split at hlen
    · rename_i hup
      exact .inr ⟨hlen, hinv.kept hup⟩
    · exact .inl hlen
  · intro i s' hen hex
    exact hinv.notOverwritten hen hex
  · intro r hr
    rw [hinv.returned r hr, Option.isSome_iff_exists]
  · rintro buf ⟨hrcv, hhandle⟩
    have hup := hinv.rcvWaits buf hrcv
    have hdown := hinv.handleWaits hhandle
    rw [hup] at hdown
    cases hdown

/-- A packet of zeros with a `DATA_ACK` copied over it. -/
def pokeAck : AckPkt := (⟨fun _ => 0⟩ : AckPkt).rcvAck [3]

/-- `TxHandleAck` has waited, `RcvAck` has stored an ack and signalled, and the timeout has come
before the wakeup: the ack is parsed all the same. -/
def timedOutAfterSignal : Mailbox where
  ackAvailable := false
  pkt := pokeAck
  rcv := .idle
  handle := .leaving true (some (pokeAck.parseNack false))
  stored := [pokeAck]
  parsed := [pokeAck.parseNack false]
  returned := []

theorem mailboxMachine_spec_timedOut : MailboxSpec ⟨.dataAck, 0, 0⟩ timedOutAfterSignal := by
  have h0 : (mailboxMachine ⟨.dataAck, 0, 0⟩).Reachable (.init ⟨fun _ => 0⟩) := .init ⟨_, rfl⟩
  have h1 := h0.step (i := MailboxInput.txHandleAck) rfl rfl
  have h2 := h1.step (i := MailboxInput.handleLock) ⟨⟨rfl, rfl⟩, .inl rfl⟩ rfl
  have h3 := h2.step (i := MailboxInput.handleRun) ⟨false, rfl⟩ rfl
  have h4 := h3.step (i := MailboxInput.rcvAck [3]) rfl rfl
  have h5 := h4.step (i := MailboxInput.rcvLock) ⟨⟨rfl, rfl⟩, [3], .inl rfl⟩ rfl
  have h6 := h5.step (i := MailboxInput.rcvRun) ⟨[3], rfl⟩ rfl
  have h7 := h6.step (i := MailboxInput.rcvUnLock) rfl rfl
  have h8 := h7.step (i := MailboxInput.handleTimeOut) ⟨rfl, .inr ⟨false, rfl⟩⟩ rfl
  have h9 := h8.step (i := MailboxInput.handleLock) ⟨⟨rfl, rfl⟩, .inr ⟨true, rfl⟩⟩ rfl
  have h10 : (mailboxMachine ⟨.dataAck, 0, 0⟩).Reachable timedOutAfterSignal :=
    h9.step (i := MailboxInput.handleRun) ⟨true, rfl⟩ rfl
  exact mailboxMachine_spec h10

end WspaceScout
