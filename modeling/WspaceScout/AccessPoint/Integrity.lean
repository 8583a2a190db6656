import WspaceScout.AccessPoint.Clients

/-!
# Every client gets what is meant for it

As long as clients and controller send what they are meant to send, the access point does not stop,
whatever the network does to the datagrams; the transmit buffer of each client behaves as if it were
alone; and what is handled for a client, acks of data packets, acks of raw packets, packets and GPS
readings, has been sent by it or to it, each ack and each reading at most once.

## Main definitions

- `ClientInv`, `ApInv` — the invariant

## Main results

- `ApInv.step` — the step lemma
- `apMachine_safe` — no assertion fails, and nobody waits for ever
- `apMachine_integrity` — where everything that is handled comes from
-/

namespace WspaceScout

open Foundation

/-! ### One call on the transmit buffer -/

section History

variable {ap : WspaceAP} {R : Nat} {s s' : TxState} {input : TxInput}

/-- What a call adds to the history: one ack at most. -/
theorem execTx_history (h : execTx ap s input = .ok s') : ∃ enq out, ∃ ack : Option DataAck,
    s'.history = ⟨s.history.enqueued ++ enq, s.history.handedOut ++ out,
      s.history.acked ++ ack.toList⟩ ∧
      (∀ e ∈ enq, input = .enqueue e.2) ∧
      ∀ a ∈ ack, s.client.accepts a = true ∧ ∃ now, input = .dataAck now a := by
  cases input with
  | enqueue pkt =>
    unfold execTx at h
    simp only [] at h
    split at h
    · cases h
    · cases h
      refine ⟨if s.buf.isFull then [] else [(uint32 (s.buf.tailPt + 1), pkt)], [], none, ?_,
        fun e he => ?_, fun a ha => by cases ha⟩
      · simp only [Option.toList_none, List.append_nil]
      · split at he
        · cases he
        · rw [List.mem_singleton.mp he]
  | dequeue now =>
    unfold execTx at h
    simp only [] at h
    split at h
    · cases h
    · next out b _ =>
      cases h
      refine ⟨[], if out.status.isPkt then [⟨out.seqNum, out.status⟩] else [], none, ?_,
        (fun e he => by cases he), fun a ha => by cases ha⟩
      simp only [Option.toList_none, List.append_nil]
      rfl
  | dataAck now ack =>
    unfold execTx at h
    cases h
    cases hacc : s.client.accepts ack with
    | true =>
      refine ⟨[], [], some ack, ?_, (fun e he => by cases he), fun a ha => ?_⟩
      · simp only [if_true, Option.toList_some, List.append_nil]
      · cases ha
        exact ⟨hacc, now, rfl⟩
    | false =>
      refine ⟨[], [], none, ?_, (fun e he => by cases he), fun a ha => by cases ha⟩
      simp only [Bool.false_eq_true, if_false, Option.toList_none, List.append_nil]
  | timeOut now =>
    unfold execTx at h
    simp only [] at h
    split at h
    · cases h
    · cases h
      refine ⟨[], [], none, ?_, (fun e he => by cases he), fun a ha => by cases ha⟩
      simp only [Option.toList_none, List.append_nil]

theorem le_foldl_max (a : Nat) (l : List Nat) : a ≤ l.foldl max a := by
  induction l generalizing a with
  | nil => exact Nat.le_refl a
  | cons b l ih => exact (Nat.le_max_left a b).trans (ih (max a b))

theorem highest_mono (h : execTx ap s input = .ok s') :
    s.history.highest ≤ s'.history.highest := by
  obtain ⟨enq, out, ack, hist, -, -⟩ := execTx_history h
  rw [hist]
  simp only [History.highest, List.map_append, List.foldl_append]
  exact le_foldl_max _ _

/-- Only an ack moves the number of the next ack that is awaited, and never back. -/
theorem expectDataAckSeq_le (h : execTx ap s input = .ok s')
    (hlt : ∀ now a, input = .dataAck now a → a.ackSeq < 4294967295) :
    s.client.expectDataAckSeq ≤ s'.client.expectDataAckSeq ∧
      ∀ now a, input = .dataAck now a → a.ackSeq < s'.client.expectDataAckSeq := by
  cases input with
  | enqueue pkt =>
    unfold execTx at h
    simp only [] at h
    split at h
    · cases h
    · cases h
      exact ⟨Nat.le_refl _, fun _ _ h => by cases h⟩
  | dequeue now =>
    unfold execTx at h
    simp only [] at h
    split at h
    · cases h
    · cases h
      exact ⟨Nat.le_refl _, fun _ _ h => by cases h⟩
  | dataAck now ack =>
    unfold execTx at h
    cases h
    have hnext : uint32 (ack.ackSeq + 1) = ack.ackSeq + 1 := by
      have := hlt now ack rfl
      exact uint32_of_lt (by omega)
    have hexpect : (handleDataAck ap now s.client ack).2.expectDataAckSeq =
        if ack.ackSeq < s.client.expectDataAckSeq then s.client.expectDataAckSeq
        else ack.ackSeq + 1 := by
      rw [← hnext]
      unfold handleDataAck
      by_cases hold : ack.ackSeq < s.client.expectDataAckSeq
      · simp only [if_pos hold]
      · simp only [if_neg hold]
        split_ifs <;> rfl
    refine ⟨?_, fun now' a ha => ?_⟩
    · simp only [hexpect]
      split <;> omega
    · cases ha
      simp only [hexpect]
      split <;> omega
  | timeOut now =>
    unfold execTx at h
    simp only [] at h
    split at h
    · cases h
    · next loss c hrun =>
      cases h
      have hsame : c.expectDataAckSeq = s.client.expectDataAckSeq := by
        unfold handleTimeOut at hrun
        obtain ⟨r, -, hrun⟩ := bind_eq_ok.mp hrun
        simp only [] at hrun
        generalize (if r.1 = true then wrapInt32 (s.client.contiguousTimeOut + 1)
          else if s.client.contiguousTimeOut < ap.maxContiguousTimeOut then 0
          else s.client.contiguousTimeOut) = cnt at hrun
        split at hrun <;> cases hrun <;> rfl
      exact ⟨hsame.ge, fun _ _ h => by cases h⟩

end History

/-! ### The invariant -/

/-- A packet that may be enqueued for client `id`. -/
def Enqueueable (cfg : ApConfig) (net : List (List UInt8)) (id : Int) (pkt : List UInt8) : Prop :=
  pkt ∈ net ∧ IsPacket id pkt ∨
    ∃ pktContent, pktContent.length = cfg.probePktSize ∧ pkt = probePkt pktContent

/-- An ack that client `id` has sent. -/
def SentAck (bsId : Int) (type : AckType) (net : List (List UInt8)) (id : Int)
    (args : AckPkt.Args) (nacks : List Nat) (ackSeq : Nat) : Prop :=
  ∃ d ∈ net, IsAck bsId type id args nacks ackSeq d

/-- What reaches the transmit buffer of client `id` has been sent to it or by it. -/
def Authentic (cfg : ApConfig) (net : List (List UInt8)) (id : Int) : TxInput → Prop
  | .enqueue pkt => Enqueueable cfg net id pkt
  | .dataAck _ a => a.ackSeq < 4294967295 ∧ ∃ args nacks,
      SentAck cfg.bsId .dataAck net id args nacks a.ackSeq ∧ a = ⟨a.ackSeq, args.endSeq, nacks⟩
  | .dequeue _ | .timeOut _ => True

/-- The history of the transmit buffer of client `id`. -/
structure TxOk (cfg : ApConfig) (net : List (List UInt8)) (id : Int) (t : TxState) : Prop where
  enqueued : ∀ e ∈ t.history.enqueued, Enqueueable cfg net id e.2
  acked : ∀ a ∈ t.history.acked, ∃ args nacks,
    SentAck cfg.bsId .dataAck net id args nacks a.ackSeq ∧ a = ⟨a.ackSeq, args.endSeq, nacks⟩
  once : t.history.acked.Pairwise (·.ackSeq < ·.ackSeq)
  expect : ∀ a ∈ t.history.acked, a.ackSeq < t.client.expectDataAckSeq

/-- The ack in a mailbox of client `id`. -/
structure SlotInv (bsId : Int) (type : AckType) (net : List (List UInt8)) (id : Int)
    (highest : Nat) (pkt : AckPkt) (args : AckPkt.Args) (nacks : List Nat) (ackSeq : Nat)
    (d : List UInt8) : Prop where
  sent : d ∈ net
  isAck : IsAck bsId type id args nacks ackSeq d
  copied : ∃ old : AckPkt, pkt = old.rcvAck d
  ackSeq_lt : ackSeq < 4294967295
  wellFormed : type = .dataAck → DataAck.WellFormed ⟨ackSeq, args.endSeq, nacks⟩ highest

/-- What the thread that handles raw acks has passed on. -/
structure RawOk (bsId : Int) (net : List (List UInt8)) (id : Int) (expectRawAckSeq : Nat)
    (rawAcks : List (Nat × RawAck)) : Prop where
  sent : ∀ r ∈ rawAcks, ∃ args nacks, SentAck bsId .rawAck net id args nacks r.1 ∧
    r.2 = ⟨args.endSeq, args.numPkts, nacks⟩
  once : rawAcks.Pairwise (·.1 < ·.1)
  expect : ∀ r ∈ rawAcks, r.1 < expectRawAckSeq

/-- The log of the GPS readings. -/
structure GPSOk (net : List (List UInt8)) (id : Int) (prevGPSSeq : Nat) (log : List GPSRecord) :
    Prop where
  sent : ∀ g ∈ log, ∃ d ∈ net, IsGPS id d ∧ g = ClientState.gpsRecord (fresh d)
  once : log.Pairwise (·.seq < ·.seq)
  le_prev : ∀ g ∈ log, g.seq ≤ prevGPSSeq

/-- The invariant of one client. -/
structure ClientInv (cfg : ApConfig) (R : Nat) (net : List (List UInt8)) (id : Int)
    (c : ClientState) : Prop where
  reachable : (txMachine cfg.ap R).Reachable c.tx
  tx : TxOk cfg net id c.tx
  slot : ∀ type, (c.slot type).ackAvailable = true → ∃ args nacks ackSeq d,
    SlotInv cfg.bsId type net id c.tx.history.highest (c.slot type).pkt args nacks ackSeq d
  raw : RawOk cfg.bsId net id c.expectRawAckSeq c.rawAcks
  gps : ∃ log, c.gpsLog = some log ∧ GPSOk net id c.prevGPSSeq log

/-- The invariant of the access point. -/
structure ApInv (cfg : ApConfig) (R : Nat) (s : ApState) : Prop where
  client : ∀ id c, s.clients id = some c → ClientInv cfg R s.net id c
  net : ∀ d ∈ s.net, Honest cfg.bsId s.clients d
  control : ∀ d ∈ s.control, d ∈ s.net ∧ IsCellData d

section Steps

variable {cfg : ApConfig} {R : Nat} {net net' : List (List UInt8)} {id : Int}
  {c c' : ClientState} {s s' : ApState}

/-! ### More datagrams -/

theorem SentAck.mono {bsId : Int} {type : AckType} {args : AckPkt.Args} {nacks : List Nat}
    {ackSeq : Nat} (hsub : net ⊆ net') (h : SentAck bsId type net id args nacks ackSeq) :
    SentAck bsId type net' id args nacks ackSeq := by
  obtain ⟨d, hd, hack⟩ := h
  exact ⟨d, hsub hd, hack⟩

theorem Enqueueable.mono {pkt : List UInt8} (hsub : net ⊆ net')
    (h : Enqueueable cfg net id pkt) : Enqueueable cfg net' id pkt :=
  h.imp_left fun h => ⟨hsub h.1, h.2⟩

theorem TxOk.mono {t : TxState} (hsub : net ⊆ net') (h : TxOk cfg net id t) :
    TxOk cfg net' id t where
  enqueued e he := (h.enqueued e he).mono hsub
  acked a ha := by
    obtain ⟨args, nacks, hsent, heq⟩ := h.acked a ha
    exact ⟨args, nacks, hsent.mono hsub, heq⟩
  once := h.once
  expect := h.expect

theorem ClientInv.mono (hsub : net ⊆ net') (h : ClientInv cfg R net id c) :
    ClientInv cfg R net' id c where
  reachable := h.reachable
  tx := h.tx.mono hsub
  slot type hfull := by
    obtain ⟨args, nacks, ackSeq, d, hslot⟩ := h.slot type hfull
    exact ⟨args, nacks, ackSeq, d, { hslot with sent := hsub hslot.sent }⟩
  raw := { h.raw with
    sent := fun r hr => by
      obtain ⟨args, nacks, hsent, heq⟩ := h.raw.sent r hr
      exact ⟨args, nacks, hsent.mono hsub, heq⟩ }
  gps := by
    obtain ⟨log, hlog, hok⟩ := h.gps
    refine ⟨log, hlog, { hok with sent := fun g hg => ?_ }⟩
    obtain ⟨d, hd, hgps⟩ := hok.sent g hg
    exact ⟨d, hsub hd, hgps⟩

/-! ### One client -/

/-- A call on the transmit buffer, with a packet or an ack that the client or the controller has
sent. -/
theorem TxOk.step {t t' : TxState} {input : TxInput} (h : TxOk cfg net id t)
    (hexec : execTx cfg.ap t input = .ok t')
    (hsent : Authentic cfg net id input) :
    TxOk cfg net id t' := by
  obtain ⟨enq, out, ack, hist, henq, hacc⟩ := execTx_history hexec
  have hack : ∀ now a, input = .dataAck now a → Authentic cfg net id (.dataAck now a) :=
    fun now a ha => ha ▸ hsent
  obtain ⟨hle, hlt⟩ := expectDataAckSeq_le hexec fun now a ha => (hack now a ha).1
  have hexpect : ∀ a ∈ t'.history.acked, a.ackSeq < t'.client.expectDataAckSeq := by
    rw [hist]
    intro a ha
    obtain hold | hnew := List.mem_append.mp ha
    · exact (h.expect a hold).trans_le hle
    · obtain ⟨-, now, hin⟩ := hacc a (Option.mem_toList.mp hnew)
      exact hlt now a hin
  refine ⟨?_, ?_, ?_, hexpect⟩
  · rw [hist]
    intro e he
    obtain hold | hnew := List.mem_append.mp he
    · exact h.enqueued e hold
    · have hpkt := hsent
      rw [henq e hnew] at hpkt
      exact hpkt
  · rw [hist]
    intro a ha
    obtain hold | hnew := List.mem_append.mp ha
    · exact h.acked a hold
    · obtain ⟨-, now, hin⟩ := hacc a (Option.mem_toList.mp hnew)
      exact (hack now a hin).2
  · rw [hist]
    refine List.pairwise_append.mpr ⟨h.once, ?_, fun a ha b hb => ?_⟩
    · cases ack with
      | none => exact .nil
      | some a => exact List.pairwise_singleton _ a
    · have hwaits := (hacc b (Option.mem_toList.mp hb)).1
      simp only [ClientContext.accepts, decide_eq_true_eq] at hwaits
      have hbefore := h.expect a ha
      omega

/-- The mailboxes keep acks that are well formed by what has been handed out since. -/
theorem SlotInv.grow {bsId : Int} {type : AckType} {highest highest' : Nat} {pkt : AckPkt}
    {args : AckPkt.Args} {nacks : List Nat} {ackSeq : Nat} {d : List UInt8}
    (h : SlotInv bsId type net id highest pkt args nacks ackSeq d) (hle : highest ≤ highest') :
    SlotInv bsId type net id highest' pkt args nacks ackSeq d :=
  { h with wellFormed := fun htype =>
      { h.wellFormed htype with end_le := (h.wellFormed htype).end_le.trans hle } }

theorem ClientState.run_of_exec {ap : WspaceAP} {input : TxInput} {t : TxState}
    (h : execTx ap c.tx input = .ok t) : c.run ap input = .ok { c with tx := t } := by
  unfold ClientState.run
  rw [h]

/-- A call on the transmit buffer of a client. -/
theorem ClientInv.run (h : ClientInv cfg R net id c) (input : TxInput)
    (hen : enabledTx c.tx input)
    (hsent : Authentic cfg net id input) :
    ∃ t, c.run cfg.ap input = .ok { c with tx := t } ∧
      ClientInv cfg R net id { c with tx := t } ∧
      c.tx.history.highest ≤ t.history.highest := by
  obtain ⟨t, hexec, -⟩ := exec_effect cfg.ap (windowInv_of_reachable h.reachable) hen
  have hle := highest_mono hexec
  refine ⟨t, ClientState.run_of_exec hexec, ?_, hle⟩
  exact {
    reachable := h.reachable.step hen hexec
    tx := h.tx.step hexec hsent
    slot := fun type hfull => by
      obtain ⟨args, nacks, ackSeq, d, hslot⟩ := h.slot type (by cases type <;> exact hfull)
      refine ⟨args, nacks, ackSeq, d, ?_⟩
      cases type <;> exact hslot.grow hle
    raw := h.raw
    gps := h.gps }

theorem ClientState.slot_setSlot (c : ClientState) (a : AckSlot) (type type' : AckType) :
    (c.setSlot a type).slot type' = if type' = type then a else c.slot type' := by
  cases type <;> cases type' <;> rfl

@[simp]
theorem ClientState.setSlot_tx (c : ClientState) (a : AckSlot) (type : AckType) :
    (c.setSlot a type).tx = c.tx := by
  cases type <;> rfl

/-- Another ack, or none, in a mailbox. -/
theorem ClientInv.setSlot (h : ClientInv cfg R net id c) {type : AckType} {a : AckSlot}
    (ha : a.ackAvailable = true → ∃ args nacks ackSeq d,
      SlotInv cfg.bsId type net id c.tx.history.highest a.pkt args nacks ackSeq d) :
    ClientInv cfg R net id (c.setSlot a type) where
  reachable := by
    rw [ClientState.setSlot_tx]
    exact h.reachable
  tx := by
    rw [ClientState.setSlot_tx]
    exact h.tx
  slot type' hfull := by
    rw [ClientState.slot_setSlot] at hfull ⊢
    rw [ClientState.setSlot_tx]
    by_cases heq : type' = type
    · rw [if_pos heq] at hfull ⊢
      rw [heq]
      exact ha hfull
    · rw [if_neg heq] at hfull ⊢
      exact h.slot type' hfull
  raw := by
    cases type <;> exact h.raw
  gps := by
    cases type <;> exact h.gps

/-- `RcvAck` stores an ack that its client has sent. -/
theorem ClientInv.rcvAck (h : ClientInv cfg R net id c) {type : AckType} {args : AckPkt.Args}
    {nacks : List Nat} {ackSeq : Nat} {d : List UInt8} (hd : d ∈ net)
    (hack : IsAck cfg.bsId type id args nacks ackSeq d) (hlt : ackSeq < 4294967295)
    (hwf : type = .dataAck →
      DataAck.WellFormed ⟨ackSeq, args.endSeq, nacks⟩ c.tx.history.highest) :
    ClientInv cfg R net id (c.rcvAck type d) :=
  h.setSlot fun _ => ⟨args, nacks, ackSeq, d, hd, hack, ⟨_, rfl⟩, hlt, hwf⟩

/-- The record of a reading is that of the datagram, whatever the buffer held before. -/
theorem IsGPS.gpsRecord {d : List UInt8} (h : IsGPS id d) (buf : Memory) :
    ClientState.gpsRecord (buf.write 0 d) = ClientState.gpsRecord (fresh d) := by
  have hget : ∀ f : Field, f.offset + f.width ≤ GPSHeader.size →
      f.get (buf.write 0 d) = f.get (fresh d) :=
    fun f hf => get_fresh (hf.trans h.size_eq.ge) buf
  unfold ClientState.gpsRecord intAt
  rw [hget _ (by decide), hget _ (by decide), hget _ (by decide), hget _ (by decide),
    hget _ (by decide), hget _ (by decide)]

/-- `RcvGPS` logs a reading that is newer than the last one. -/
theorem ClientInv.rcvGPS (h : ClientInv cfg R net id c) {d : List UInt8} (hd : d ∈ net)
    (hgps : IsGPS id d) (buf : Memory) :
    ∃ c', c.rcvGPS (buf.write 0 d) = .ok c' ∧ ClientInv cfg R net id c' ∧ c'.tx = c.tx := by
  obtain ⟨log, hlog, hok⟩ := h.gps
  have hseq : GPSHeader.seq.get (buf.write 0 d) = GPSHeader.seq.get (fresh d) :=
    get_fresh (le_trans (by decide) hgps.size_eq.ge) buf
  have hpos : GPSHeader.seq.get (fresh d) ≠ 0 := hgps.seq_pos.ne'
  unfold ClientState.rcvGPS
  rw [hseq, if_neg hpos, hgps.gpsRecord]
  by_cases hnew : GPSHeader.seq.get (fresh d) > c.prevGPSSeq
  · rw [if_pos hnew]
    simp only [hlog]
    refine ⟨_, rfl, { h with gps := ⟨_, rfl, ?_, ?_, ?_⟩ }, rfl⟩
    · intro g hg
      obtain hold | hlast := List.mem_append.mp hg
      · exact hok.sent g hold
      · exact ⟨d, hd, hgps, List.mem_singleton.mp hlast⟩
    · refine List.pairwise_append.mpr ⟨hok.once, List.pairwise_singleton _ _, ?_⟩
      intro g hg g' hg'
      rw [List.mem_singleton.mp hg']
      exact (hok.le_prev g hg).trans_lt hnew
    · intro g hg
      obtain hold | hlast := List.mem_append.mp hg
      · exact (hok.le_prev g hold).trans hnew.le
      · rw [List.mem_singleton.mp hlast]
        exact Nat.le_refl _
  · rw [if_neg hnew]
    exact ⟨c, rfl, h, rfl⟩

/-- `TxHandleAck` takes an ack out of its mailbox: it is what the client has sent. -/
theorem ClientInv.takeAck (h : ClientInv cfg R net id c) (type : AckType)
    (hfull : (c.slot type).ackAvailable = true) : ∃ args nacks ackSeq c',
      c.takeAck ⟨type, id, cfg.bsId⟩ =
        .ok (args.parsed ackSeq nacks (decide (type = .rawAck)), c') ∧
      ClientInv cfg R net id c' ∧ c'.tx = c.tx ∧ (c'.slot type).ackAvailable = false ∧
      ackSeq < 4294967295 ∧
      SentAck cfg.bsId type net id args nacks ackSeq ∧
      (type = .dataAck →
        DataAck.WellFormed ⟨ackSeq, args.endSeq, nacks⟩ c.tx.history.highest) := by
  obtain ⟨args, nacks, ackSeq, d, hslot⟩ := h.slot type hfull
  obtain ⟨old, hpkt⟩ := hslot.copied
  have hacc := hslot.isAck.accepts old
  have hparse := hslot.isAck.parse old (decide (type = .rawAck))
  refine ⟨args, nacks, ackSeq, c.setSlot ⟨false, (c.slot type).pkt⟩ type, ?_,
    h.setSlot (fun hfull => by cases hfull), ClientState.setSlot_tx _ _ _, ?_, hslot.ackSeq_lt,
    ⟨d, hslot.sent, hslot.isAck⟩, hslot.wellFormed⟩
  · unfold ClientState.takeAck
    simp only [hpkt, hacc, if_true]
    simp only [AckContext.parse, hparse]
  · rw [ClientState.slot_setSlot, if_pos rfl]

/-- `TxHandleDataAck` handles an ack, and a timeout after too many duplicates. -/
theorem ClientInv.handleAck (h : ClientInv cfg R net id c)
    (hfull : c.dataAck.ackAvailable = true) (now later : TIME) :
    ∃ c', c.handleAck cfg id now later = .ok c' ∧ ClientInv cfg R net id c' ∧
      (c'.slot .dataAck).ackAvailable = false ∧
      c.tx.history.highest ≤ c'.tx.history.highest := by
  obtain ⟨args, nacks, ackSeq, c', htake, hinv, htx, hempty, hlt, hsent, hwf⟩ :=
    h.takeAck .dataAck hfull
  rw [← htx] at hwf ⊢
  obtain ⟨t, hrun, hinv', hle⟩ := hinv.run
    (.dataAck now ⟨ackSeq, args.endSeq, nacks⟩) (hwf rfl) ⟨hlt, args, nacks, hsent, rfl⟩
  have hack : c.handleAck cfg id now later =
      if (handleDataAck cfg.ap now c'.tx.client ⟨ackSeq, args.endSeq, nacks⟩).1 then
        ClientState.run cfg.ap { c' with tx := t } (.timeOut later)
      else .ok { c' with tx := t } := by
    unfold ClientState.handleAck
    simp only [htake]
    simp only [AckPkt.Args.parsed, hrun]
    rfl
  rw [hack]
  split
  · obtain ⟨t', hrun', hinv'', hle'⟩ := hinv'.run (.timeOut later) trivial trivial
    exact ⟨_, hrun', hinv'', hempty, hle.trans hle'⟩
  · exact ⟨_, rfl, hinv', hempty, hle⟩

/-- `TxHandleRawAck` passes on an ack that is newer than the last one. -/
theorem ClientInv.handleRawAck (h : ClientInv cfg R net id c)
    (hfull : c.rawAck.ackAvailable = true) :
    ∃ c', c.handleRawAck cfg id = .ok c' ∧ ClientInv cfg R net id c' ∧
      (c'.slot .rawAck).ackAvailable = false ∧ c'.tx = c.tx := by
  obtain ⟨args, nacks, ackSeq, c', htake, hinv, htx, hempty, hlt, hsent, -⟩ :=
    h.takeAck .rawAck hfull
  have hraw := hinv.raw
  unfold ClientState.handleRawAck
  simp only [htake]
  simp only [AckPkt.Args.parsed, decide_true, if_true, Option.getD_some]
  by_cases hnew : ackSeq ≥ c'.expectRawAckSeq
  · rw [if_pos hnew]
    have hnext : uint32 (ackSeq + 1) = ackSeq + 1 := uint32_of_lt (by omega)
    refine ⟨_, rfl, { hinv with raw := ⟨?_, ?_, ?_⟩ }, hempty, htx⟩
    · intro r hr
      obtain hold | hlast := List.mem_append.mp hr
      · exact hraw.sent r hold
      · rw [List.mem_singleton.mp hlast]
        exact ⟨args, nacks, hsent, rfl⟩
    · refine List.pairwise_append.mpr ⟨hraw.once, List.pairwise_singleton _ _, ?_⟩
      intro r hr r' hr'
      rw [List.mem_singleton.mp hr']
      exact (hraw.expect r hr).trans_le hnew
    · intro r hr
      simp only [hnext]
      obtain hold | hlast := List.mem_append.mp hr
      · have hbefore := hraw.expect r hold
        omega
      · rw [List.mem_singleton.mp hlast]
        exact Nat.lt_succ_self _
  · rw [if_neg hnew]
    exact ⟨_, rfl, hinv, hempty, htx⟩

/-! ### The access point -/

/-- What is honest stays so while the clients hand out more packets. -/
theorem Honest.grow {bsId : Int} {clients clients' : Int → Option ClientState} {d : List UInt8}
    (h : Honest bsId clients d)
    (hgrow : ∀ id c, clients id = some c → ∃ c', clients' id = some c' ∧
      c.tx.history.highest ≤ c'.tx.history.highest) : Honest bsId clients' d := by
  cases h with
  | dataAck hc hack hlt hwf =>
    obtain ⟨c', hc', hle⟩ := hgrow _ _ hc
    exact .dataAck hc' hack hlt { hwf with end_le := hwf.end_le.trans hle }
  | rawAck hc hack hlt =>
    obtain ⟨c', hc', -⟩ := hgrow _ _ hc
    exact .rawAck hc' hack hlt
  | packet hc hpkt =>
    obtain ⟨c', hc', -⟩ := hgrow _ _ hc
    exact .packet hc' hpkt
  | gps hc hgps =>
    obtain ⟨c', hc', -⟩ := hgrow _ _ hc
    exact .gps hc' hgps
  | cellData hcell => exact .cellData hcell

namespace ApInv

/-- A new datagram on the network. -/
theorem send (h : ApInv cfg R s) {d : List UInt8} (hd : Honest cfg.bsId s.clients d) :
    ApInv cfg R { s with net := s.net ++ [d] } where
  client id c hc := (h.client id c hc).mono (List.subset_append_left _ _)
  net d' hd' := by
    obtain hold | hnew := List.mem_append.mp hd'
    · exact h.net d' hold
    · rw [List.mem_singleton.mp hnew]
      exact hd
  control d' hd' := by
    obtain ⟨hnet, hcell⟩ := h.control d' hd'
    exact ⟨List.mem_append_left _ hnet, hcell⟩

/-- A step of one client. -/
theorem withClient (h : ApInv cfg R s) {f : ClientState → Except ApFault ClientState}
    (hc : s.clients id = some c) (hf : f c = .ok c') (hinv : ClientInv cfg R s.net id c')
    (hle : c.tx.history.highest ≤ c'.tx.history.highest) :
    s.withClient id f = .ok (s.setClient id c') ∧ ApInv cfg R (s.setClient id c') := by
  refine ⟨?_, ?_, ?_, h.control⟩
  · unfold ApState.withClient
    rw [hc]
    simp only [hf]
    rfl
  · intro id' c'' hc''
    have hupd : Function.update s.clients id (some c') id' = some c'' := hc''
    by_cases heq : id' = id
    · subst heq
      rw [Function.update_self] at hupd
      cases hupd
      exact hinv
    · rw [Function.update_of_ne heq] at hupd
      exact h.client id' c'' hupd
  · intro d hd
    refine (h.net d hd).grow fun id' c'' hc'' => ?_
    by_cases heq : id' = id
    · subst heq
      cases hc.symm.trans hc''
      exact ⟨c', Function.update_self _ _ _, hle⟩
    · exact ⟨c'', (Function.update_of_ne heq _ _).trans hc'', Nat.le_refl _⟩

/-- `TxRcvCell` writes to its buffer. -/
theorem received (h : ApInv cfg R s) (pkt : List UInt8) : ApInv cfg R (s.received pkt) :=
  ⟨h.client, h.net, h.control⟩

theorem tunRead_whole {d : List UInt8} (hpos : 0 < d.length) (hle : d.length ≤ PKT_SIZE) :
    tunRead d TUN_PKT_SIZE = some d := by
  have hsize : PKT_SIZE ≤ TUN_PKT_SIZE := by decide
  unfold tunRead
  rw [List.take_of_length_le (hle.trans hsize), if_pos hpos]

theorem rcvCell_packet {d : List UInt8} (hpkt : IsPacket id d) (hc : s.clients id = some c)
    (hrun : c.run cfg.ap (.enqueue d) = .ok c') :
    s.rcvCell cfg d = .ok ((s.received d).setClient id c') := by
  have hpos : 0 < d.length := Nat.lt_of_lt_of_le (by decide) hpkt.size_le
  unfold ApState.rcvCell
  rw [tunRead_whole hpos hpkt.le_size]
  simp only [ApState.received, hpkt.dispatch, ApState.withClient, hc, hrun]
  rfl

/-- `TxRcvCell` on a datagram of the network. -/
theorem rcvCell (h : ApInv cfg R s) {d : List UInt8} (hd : d ∈ s.net)
    (hcnt : ∀ id c, s.clients id = some c → c.tx.history.enqueued.length + 1 < 4294967295) :
    ∃ s', s.rcvCell cfg d = .ok s' ∧ ApInv cfg R s' := by
  have hrcv := h.received d
  cases h.net d hd with
  | dataAck hc hack hlt hwf =>
    have hlen := hack.length
    unfold ApState.rcvCell
    rw [tunRead_whole (Nat.lt_of_lt_of_le (by decide) hlen.1) hlen.2]
    simp only [ApState.received, hack.dispatch]
    obtain ⟨hrun, hinv⟩ := hrcv.withClient (f := fun c => .ok (c.rcvAck .dataAck d)) hc rfl
      ((h.client _ _ hc).rcvAck hd hack hlt fun _ => hwf) (Nat.le_refl _)
    exact ⟨_, hrun, hinv⟩
  | rawAck hc hack hlt =>
    have hlen := hack.length
    unfold ApState.rcvCell
    rw [tunRead_whole (Nat.lt_of_lt_of_le (by decide) hlen.1) hlen.2]
    simp only [ApState.received, hack.dispatch]
    obtain ⟨hrun, hinv⟩ := hrcv.withClient (f := fun c => .ok (c.rcvAck .rawAck d)) hc rfl
      ((h.client _ _ hc).rcvAck hd hack hlt fun htype => by cases htype) (Nat.le_refl _)
    exact ⟨_, hrun, hinv⟩
  | packet hc hpkt =>
    have hpos : 0 < d.length := Nat.lt_of_lt_of_le (by decide) hpkt.size_le
    obtain ⟨t, hrun, hinv, hle⟩ := (h.client _ _ hc).run (.enqueue d)
      ⟨hpos, hpkt.le_size, fun _ => hcnt _ _ hc⟩ (.inl ⟨hd, hpkt⟩)
    obtain ⟨-, hinv'⟩ := hrcv.withClient (f := fun c => c.run cfg.ap (.enqueue d)) hc hrun hinv
      hle
    exact ⟨_, rcvCell_packet hpkt hc hrun, hinv'⟩
  | gps hc hgps =>
    have hpos : 0 < d.length := Nat.lt_of_lt_of_le (by decide) hgps.size_eq.ge
    unfold ApState.rcvCell
    rw [tunRead_whole hpos (hgps.size_eq.le.trans (by decide))]
    simp only [ApState.received, hgps.dispatch, hgps.size_eq, ne_eq, not_true_eq_false, if_false]
    obtain ⟨c', hrun, hinv, htx⟩ := (h.client _ _ hc).rcvGPS hd hgps s.buf
    obtain ⟨hrun', hinv'⟩ := hrcv.withClient (f := fun c => c.rcvGPS (s.buf.write 0 d)) hc hrun
      hinv (by rw [htx])
    exact ⟨_, hrun', hinv'⟩
  | cellData hcell =>
    unfold ApState.rcvCell
    rw [tunRead_whole hcell.pos hcell.le_size]
    simp only [ApState.received, hcell.dispatch]
    refine ⟨_, rfl, h.client, h.net, fun d' hd' => ?_⟩
    obtain hold | hnew := List.mem_append.mp hd'
    · exact h.control d' hold
    · rw [List.mem_singleton.mp hnew]
      exact ⟨hd, hcell⟩

/-- The step lemma. -/
theorem step (h : ApInv cfg R s) (hprobe : cfg.probePktSize + 1 ≤ PKT_SIZE) {input : ApInput}
    (hen : enabledAp cfg s input) (hcnt : s.Counted input) :
    ∃ s', execAp cfg s input = .ok s' ∧ ApInv cfg R s' := by
  cases input with
  | send d => exact ⟨_, rfl, h.send hen⟩
  | rcvCell d => exact h.rcvCell hen.1 hcnt
  | sendProbe id pktContent =>
    obtain ⟨hsome, hlen⟩ := hen
    obtain ⟨c, hc⟩ := Option.isSome_iff_exists.mp hsome
    have hsize : (probePkt pktContent).length = cfg.probePktSize + 1 := by
      simp [probePkt, hlen]
    obtain ⟨t, hrun, hinv, hle⟩ := (h.client id c hc).run
      (.enqueue (probePkt pktContent))
      ⟨by omega, by omega, fun _ => hcnt _ _ hc⟩
      (.inr ⟨pktContent, hlen, rfl⟩)
    obtain ⟨hrun', hinv'⟩ := h.withClient
      (f := fun c => c.run cfg.ap (.enqueue (probePkt pktContent))) hc hrun hinv hle
    exact ⟨_, hrun', hinv'⟩
  | sendAth id now =>
    obtain ⟨c, hc, hne⟩ := hen
    obtain ⟨t, hrun, hinv, hle⟩ := (h.client id c hc).run (.dequeue now) hne trivial
    obtain ⟨hrun', hinv'⟩ := h.withClient (f := fun c => c.run cfg.ap (.dequeue now)) hc hrun
      hinv hle
    exact ⟨_, hrun', hinv'⟩
  | handleAck id now later =>
    obtain ⟨c, hc, hfull⟩ := hen
    obtain ⟨c', hrun, hinv, -, hle⟩ := (h.client id c hc).handleAck hfull now later
    obtain ⟨hrun', hinv'⟩ := h.withClient (f := ClientState.handleAck cfg id now later) hc hrun
      hinv hle
    exact ⟨_, hrun', hinv'⟩
  | timeOut id now =>
    obtain ⟨c, hc, -⟩ := hen
    obtain ⟨t, hrun, hinv, hle⟩ := (h.client id c hc).run (.timeOut now) trivial trivial
    obtain ⟨hrun', hinv'⟩ := h.withClient (f := fun c => c.run cfg.ap (.timeOut now)) hc hrun
      hinv hle
    exact ⟨_, hrun', hinv'⟩
  | handleRawAck id =>
    obtain ⟨c, hc, hfull⟩ := hen
    obtain ⟨c', hrun, hinv, -, htx⟩ := (h.client id c hc).handleRawAck hfull
    obtain ⟨hrun', hinv'⟩ := h.withClient (f := ClientState.handleRawAck cfg id) hc hrun hinv
      (by rw [htx])
    exact ⟨_, hrun', hinv'⟩

/-- Before the first datagram. -/
theorem init (cfg : ApConfig) (R : Nat) (ids : List Int) (boot : Int → Fin BUF_SIZE → TIME)
    (pkt : Int → AckPkt) (buf : Memory) : ApInv cfg R (.init ids boot R pkt buf) where
  client id c hc := by
    have hnew : c = .init (boot id) R (pkt id) := by
      unfold ApState.init at hc
      simp only [] at hc
      split at hc <;> cases hc
      rfl
    subst hnew
    exact {
      reachable := .init ⟨boot id, rfl⟩
      tx := {
        enqueued := fun e he => by cases he
        acked := fun a ha => by cases ha
        once := .nil
        expect := fun a ha => by cases ha }
      slot := fun type hfull => by cases type <;> cases hfull
      raw := {
        sent := fun r hr => by cases hr
        once := .nil
        expect := fun r hr => by cases hr }
      gps := ⟨[], rfl, {
        sent := fun g hg => by cases hg
        once := .nil
        le_prev := fun g hg => by cases hg }⟩ }
  net d hd := by cases hd
  control d hd := by cases hd

end ApInv

/-- The run lemma. -/
theorem apInv_of_reachable (hprobe : cfg.probePktSize + 1 ≤ PKT_SIZE)
    (h : ((apMachine cfg R).restrict ApState.Counted).Reachable s) : ApInv cfg R s := by
  refine h.invariant ?_ ?_
  · rintro s ⟨ids, boot, pkt, buf, rfl⟩
    exact .init cfg R ids boot pkt buf
  · intro s input s' _ hs hen hexec
    obtain ⟨s'', hrun, hinv⟩ := hs.step hprobe hen.1 hen.2
    cases hexec.symm.trans hrun
    exact hinv

/-- A full mailbox can be emptied by the thread of its client, and then `TxRcvCell` goes on. -/
theorem ApInv.unblock (h : ApInv cfg R s) {d : List UInt8} (hblocked : s.Blocked d) :
    ∃ input s', enabledAp cfg s input ∧ execAp cfg s input = .ok s' ∧ ¬s'.Blocked d := by
  obtain ⟨type, id, c, hdis, hc, hfull⟩ := hblocked
  have hinv := h.client id c hc
  have hopen : ∀ c', (c'.slot type).ackAvailable = false →
      ¬(s.setClient id c').Blocked d := by
    rintro c' hempty ⟨type', id', c'', hdis', hc'', hfull'⟩
    cases hdis.symm.trans hdis'
    have hself : (s.setClient id c').clients id = some c' := Function.update_self _ _ _
    cases hself.symm.trans hc''
    rw [hempty] at hfull'
    cases hfull'
  cases type with
  | dataAck =>
    obtain ⟨c', hrun, hinv', hempty, hle⟩ := hinv.handleAck hfull ⟨0, 0⟩ ⟨0, 0⟩
    obtain ⟨hrun', -⟩ := h.withClient (f := ClientState.handleAck cfg id ⟨0, 0⟩ ⟨0, 0⟩) hc hrun
      hinv' hle
    exact ⟨.handleAck id ⟨0, 0⟩ ⟨0, 0⟩, _, ⟨c, hc, hfull⟩, hrun', hopen c' hempty⟩
  | rawAck =>
    obtain ⟨c', hrun, hinv', hempty, htx⟩ := hinv.handleRawAck hfull
    obtain ⟨hrun', -⟩ := h.withClient (f := ClientState.handleRawAck cfg id) hc hrun hinv'
      (by rw [htx])
    exact ⟨.handleRawAck id, _, ⟨c, hc, hfull⟩, hrun', hopen c' hempty⟩

/-- Whatever the network does to honest datagrams, no assertion of `TxRcvCell`, `TxHandleAck`,
`RcvGPS` or of the transmit buffers fails and no context is missing; when `TxRcvCell` waits for a
mailbox, the thread of that client can empty it; and the buffer of every client is in a state of a
run of its own. -/
theorem apMachine_safe (hprobe : cfg.probePktSize + 1 ≤ PKT_SIZE)
    (h : ((apMachine cfg R).restrict ApState.Counted).Reachable s) :
    (∀ input, enabledAp cfg s input → s.Counted input → ∃ s', execAp cfg s input = .ok s') ∧
      (∀ d ∈ s.net, s.Blocked d →
        ∃ input s', enabledAp cfg s input ∧ execAp cfg s input = .ok s' ∧ ¬s'.Blocked d) ∧
      ∀ id c, s.clients id = some c → (txMachine cfg.ap R).Reachable c.tx := by
  have hs := apInv_of_reachable hprobe h
  refine ⟨fun input hen hcnt => ?_, fun d _ hblocked => hs.unblock hblocked,
    fun id c hc => (hs.client id c hc).reachable⟩
  obtain ⟨s', hrun, -⟩ := hs.step hprobe hen hcnt
  exact ⟨s', hrun⟩

/-- A packet of the controller for client 2, one for client 3, and the first data ack of client 2,
for its first packet. -/
def onePacket : List UInt8 := [9, 0, 0, 0, 2, 0, 0, 0, 1, 0, 0, 0]
def otherPacket : List UInt8 := [9, 0, 0, 0, 3, 0, 0, 0, 1, 0, 0, 0]
def oneAck : List UInt8 :=
  [3, 0, 0, 0, 0, 0, 0, 0, 1, 0, 0, 0, 0, 0, 0, 0, 1, 0, 0, 0, 2, 0, 0, 0, 1, 0, 0, 0]

theorem onePacket_isPacket : IsPacket 2 onePacket :=
  ⟨by decide, by decide, by decide, by decide⟩

theorem otherPacket_isPacket : IsPacket 3 otherPacket :=
  ⟨by decide, by decide, by decide, by decide⟩

theorem oneAck_isAck : ∃ args : AckPkt.Args, args.endSeq = 1 ∧
    IsAck 1 .dataAck 2 args [] 1 oneAck := by
  refine ⟨⟨DATA_ACK, 1, 0, 2, 1, by decide, by decide, by decide, by decide, by decide⟩, rfl,
    rfl, rfl, rfl, ⟨by decide, by simp, by simp⟩, AckPkt.zeros, _, rfl, by decide, _, rfl, ?_⟩
  decide

/-- The test for a step of a run with these datagrams. -/
def ApState.mayTake (s : ApState) (input : ApInput) : Bool :=
  ([2, 3].all fun id => (s.clients id).all fun c =>
    c.tx.history.enqueued.length + 1 < 4294967295) &&
  match input with
  | .send d =>
    d = onePacket && (s.clients 2).isSome || d = otherPacket && (s.clients 3).isSome ||
      d = oneAck && (s.clients 2).any fun c => 1 ≤ c.tx.history.highest
  | .rcvCell d => d ∈ s.net &&
    match dispatch (s.buf.write 0 (d.take TUN_PKT_SIZE)) with
    | .ack type id => (s.clients id).all fun c => !(c.slot type).ackAvailable
    | _ => true
  | .sendAth id _ => (s.clients id).any fun c => !c.tx.buf.isEmpty
  | .handleAck id _ _ => (s.clients id).any fun c => c.dataAck.ackAvailable
  | _ => false

/-- Clients 2 and 3 are the only ones. -/
def ApState.TwoClients (s : ApState) : Prop := ∀ id, s.clients id ≠ none → id = 2 ∨ id = 3

theorem ApState.mayTake_enabled {input : ApInput} (hs : s.TwoClients) (hbs : cfg.bsId = 1)
    (h : s.mayTake input = true) : enabledAp cfg s input ∧ s.Counted input := by
  obtain ⟨hcnt, hinput⟩ := Bool.and_eq_true_iff.mp h
  constructor
  · cases input with
    | send d =>
      simp only [Bool.or_eq_true, Bool.and_eq_true, decide_eq_true_eq, Option.any_eq_true] at hinput
      obtain (⟨rfl, hsome⟩ | ⟨rfl, hsome⟩) | ⟨rfl, c, hc, hhigh⟩ := hinput
      · obtain ⟨c, hc⟩ := Option.isSome_iff_exists.mp hsome
        exact .packet hc onePacket_isPacket
      · obtain ⟨c, hc⟩ := Option.isSome_iff_exists.mp hsome
        exact .packet hc otherPacket_isPacket
      · obtain ⟨args, hend, hack⟩ := oneAck_isAck
        refine .dataAck hc (hbs ▸ hack) (by decide) ⟨.nil, by simp, ?_⟩
        rwa [hend]
    | rcvCell d =>
      obtain ⟨hnet, hopen⟩ := Bool.and_eq_true_iff.mp hinput
      refine ⟨of_decide_eq_true hnet, ?_⟩
      rintro ⟨type, id, c, hdis, hc, hfull⟩
      rw [hdis] at hopen
      simp only [hc, Option.all_some, hfull] at hopen
      cases hopen
    | sendAth id now =>
      obtain ⟨c, hc, hpkt⟩ := Option.any_eq_true _ _ |>.mp hinput
      exact ⟨c, hc, by simpa using hpkt⟩
    | handleAck id now later => exact Option.any_eq_true _ _ |>.mp hinput
    | sendProbe | timeOut | handleRawAck => cases hinput
  · intro id c hc
    have hid : id = 2 ∨ id = 3 := hs id (by rw [hc]; exact Option.some_ne_none c)
    simp only [List.all_eq_true, Option.all_eq_true, decide_eq_true_eq] at hcnt
    exact hcnt id (by simpa using hid) c hc

theorem ApState.withClient_clients {f : ClientState → Except ApFault ClientState} {id' : Int}
    (h : s.withClient id f = .ok s') (hid : s'.clients id' ≠ none) : s.clients id' ≠ none := by
  unfold ApState.withClient at h
  split at h
  · cases h
  · next c hc =>
    cases hf : f c with
    | error e =>
      rw [hf] at h
      cases h
    | ok c' =>
      rw [hf] at h
      cases h
      by_cases heq : id' = id
      · rw [heq, hc]
        exact Option.some_ne_none c
      · simpa only [ApState.setClient, Function.update_of_ne heq] using hid

/-- No step adds a client. -/
theorem execAp_clients {input : ApInput} (h : execAp cfg s input = .ok s')
    (hid : s'.clients id ≠ none) : s.clients id ≠ none := by
  cases input with
  | send d =>
    cases h
    exact hid
  | rcvCell d =>
    simp only [execAp, ApState.rcvCell] at h
    split at h
    · cases h
    · next pkt _ =>
      have hwith : ∀ {id' f}, (s.received pkt).withClient id' f = .ok s' → s.clients id ≠ none :=
        fun hrun => (s.received pkt).withClient_clients hrun hid
      split at h
      · cases h
        exact hid
      · exact hwith h
      · split at h
        · cases h
        · exact hwith h
      · exact hwith h
      · cases h
  | sendProbe id' pktContent => exact s.withClient_clients h hid
  | sendAth id' now => exact s.withClient_clients h hid
  | handleAck id' now later => exact s.withClient_clients h hid
  | timeOut id' now => exact s.withClient_clients h hid
  | handleRawAck id' => exact s.withClient_clients h hid

/-- Both clients get a packet, client 2 gets its packet twice, and its ack comes twice. -/
def twoClientInputs : List ApInput :=
  [.send onePacket, .send otherPacket, .rcvCell onePacket, .rcvCell otherPacket,
    .rcvCell onePacket, .sendAth 2 ⟨1, 0⟩, .send oneAck, .rcvCell oneAck,
    .handleAck 2 ⟨2, 0⟩ ⟨2, 0⟩, .rcvCell oneAck, .handleAck 2 ⟨3, 0⟩ ⟨3, 0⟩]

/-- What has been stored for a client, and which acks have been handled. -/
structure ClientLog where
  enqueued : List (Nat × List UInt8)
  acked : List DataAck
  deriving DecidableEq

def ApState.log (s : ApState) (id : Int) : Option ClientLog :=
  (s.clients id).map fun c => ⟨c.tx.history.enqueued, c.tx.history.acked⟩

theorem twoClients_reachable : ∃ s : ApState,
    ((apMachine ⟨⟨2, 20, 5⟩, 1, 10⟩ 2).restrict ApState.Counted).Reachable s ∧
      s.net = [onePacket, otherPacket, oneAck] ∧
      s.log 2 = some ⟨[(1, onePacket), (2, onePacket)], [⟨1, 1, []⟩]⟩ ∧
      s.log 3 = some ⟨[(1, otherPacket)], []⟩ := by
  let s₀ : ApState := .init [2, 3] (fun _ _ => ⟨0, 0⟩) 2 (fun _ => AckPkt.zeros) fun _ => 0
  let M := (apMachine ⟨⟨2, 20, 5⟩, 1, 10⟩ 2).restrict ApState.Counted
  have hrun : (M.trace ApState.mayTake s₀ twoClientInputs).map
      (fun s => (s.net, s.log 2, s.log 3)) = some ([onePacket, otherPacket, oneAck],
        some ⟨[(1, onePacket), (2, onePacket)], [⟨1, 1, []⟩]⟩, some ⟨[(1, otherPacket)], []⟩) := by
    decide +kernel
  obtain ⟨s, htrace, hview⟩ := Option.map_eq_some_iff.mp hrun
  have hinit : M.Reachable s₀ := .init ⟨_, _, _, _, rfl⟩
  have htwo : s₀.TwoClients := by
    intro id hid
    by_contra hnot
    exact hid (if_neg (by simpa using hnot))
  have hreach := hinit.trace (I := ApState.TwoClients) htwo
    (fun s input hs h => s.mayTake_enabled hs rfl h)
    (fun s input s' hs h id hid => hs id (execAp_clients h hid)) htrace
  simp only [Prod.mk.injEq] at hview
  exact ⟨s, hreach, hview⟩

/-- The ack has been handled once, and the buffer is in a state of a run of its own. -/
theorem apMachine_safe_twoClients : ∃ c : ClientState,
    c.tx.history.enqueued = [(1, onePacket), (2, onePacket)] ∧
      c.tx.history.acked = [⟨1, 1, []⟩] ∧ (txMachine ⟨2, 20, 5⟩ 2).Reachable c.tx := by
  obtain ⟨s, hs, -, hlog, -⟩ := twoClients_reachable
  obtain ⟨c, hc, hview⟩ := Option.map_eq_some_iff.mp hlog
  simp only [ClientLog.mk.injEq] at hview
  exact ⟨c, hview.1, hview.2, (apMachine_safe (by decide) hs).2.2 2 c hc⟩

/-- Everything that is handled for a client has been sent by it or to it, unaltered: the packets in
its buffer, its acks of data packets and of raw packets, and its GPS readings; the network may
duplicate and reorder datagrams, but no ack and no reading is handled twice or after a later one;
and only packets of clients are forwarded to the controller. -/
theorem apMachine_integrity (hprobe : cfg.probePktSize + 1 ≤ PKT_SIZE)
    (h : ((apMachine cfg R).restrict ApState.Counted).Reachable s) :
    (∀ id c, s.clients id = some c →
      TxOk cfg s.net id c.tx ∧ RawOk cfg.bsId s.net id c.expectRawAckSeq c.rawAcks ∧
        ∃ log, c.gpsLog = some log ∧ GPSOk s.net id c.prevGPSSeq log) ∧
      ∀ d ∈ s.control, d ∈ s.net ∧ IsCellData d := by
  have hs := apInv_of_reachable hprobe h
  refine ⟨fun id c hc => ?_, hs.control⟩
  have hinv := hs.client id c hc
  exact ⟨hinv.tx, hinv.raw, hinv.gps⟩

/-- Either client has the controller's packet for it, and client 2 has sent the ack that has been
handled. -/
theorem apMachine_integrity_twoClients : ∃ c c' : ClientState,
    c.tx.history.acked = [⟨1, 1, []⟩] ∧ c'.tx.history.enqueued = [(1, otherPacket)] ∧
      TxOk ⟨⟨2, 20, 5⟩, 1, 10⟩ [onePacket, otherPacket, oneAck] 2 c.tx ∧
      TxOk ⟨⟨2, 20, 5⟩, 1, 10⟩ [onePacket, otherPacket, oneAck] 3 c'.tx := by
  obtain ⟨s, hs, hnet, hlog, hlog'⟩ := twoClients_reachable
  obtain ⟨c, hc, hview⟩ := Option.map_eq_some_iff.mp hlog
  obtain ⟨c', hc', hview'⟩ := Option.map_eq_some_iff.mp hlog'
  simp only [ClientLog.mk.injEq] at hview hview'
  have hok := (apMachine_integrity (by decide) hs).1
  rw [hnet] at hok
  exact ⟨c, c', hview.2, hview'.1, (hok 2 c hc).1, (hok 3 c' hc').1⟩

end Steps

end WspaceScout
