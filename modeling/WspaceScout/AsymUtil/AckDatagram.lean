import WspaceScout.AsymUtil.AckPkt

/-!
# Ack datagrams from the network

`RcvAck` copies a whole datagram over the ack packet of its context, and `ParseNack` reads as many
nacks as the header claims. Neither compares the length of the datagram with anything.

## Main definitions

- `AckPkt.SelfContained` — what handling a datagram must respect
- `AckPkt.claimedNacks` — the count in the header of a datagram

## Main results

- `AckPkt.selfContained_iff` — the datagrams that are handled safely
-/

namespace WspaceScout

open Foundation

namespace AckPkt

open AckHeader

/-- An object of zeros. -/
def zeros : AckPkt := ⟨fun _ => 0⟩

/-- The bytes of a datagram with zeros behind it. -/
def overZeros (d : List UInt8) : AckPkt := zeros.rcvAck d

/-- `num_nacks_` of a datagram. -/
def claimedNacks (d : List UInt8) : Nat := (overZeros d).get numNacks

/-- Receiving and parsing a datagram stays inside the objects, and what is parsed comes from the
datagram. -/
structure SelfContained (d : List UInt8) (wantNumPkts : Bool) : Prop where
  /-- `RcvAck` writes inside the `AckPkt` only. -/
  copy : ∀ (old : AckPkt) (a : Nat), ACK_PKT_SIZE ≤ a → (old.rcvAck d).mem a = old.mem a
  /-- The loop of `ParseNack` stays inside `rel_seq_arr_` and inside the `ACK_WINDOW` entries of
  its argument. -/
  loop : ∀ (old : AckPkt) (i : Nat), i < (old.rcvAck d).get numNacks →
    (relSeqArr i).offset + (relSeqArr i).width ≤ ACK_PKT_SIZE ∧ i < ACK_WINDOW
  /-- Earlier acks do not show. -/
  closed : ∀ old old' : AckPkt,
    (old.rcvAck d).parseNack wantNumPkts = (old'.rcvAck d).parseNack wantNumPkts

variable {d : List UInt8} {old old' : AckPkt} {f : Field} {wantNumPkts : Bool}

/-! ### What is inside the datagram -/

theorem rcvAck_inside (old : AckPkt) {a : Nat} (h : a < d.length) :
    (old.rcvAck d).mem a = d[a] := by
  have hin := old.mem.write_inside 0 d h
  rwa [Nat.zero_add] at hin

theorem rcvAck_outside (old : AckPkt) {a : Nat} (h : d.length ≤ a) :
    (old.rcvAck d).mem a = old.mem a :=
  old.mem.write_outside 0 d (x := a) (.inr (by omega))

theorem get_rcvAck (h : f.offset + f.width ≤ d.length) (old : AckPkt) :
    (old.rcvAck d).get f = (overZeros d).get f := Field.get_write_prefix h _ _

/-- A datagram that holds the nacks that it claims, and no more than an `AckPkt`, is safe. -/
theorem SelfContained.of_length (hlo : AckHeader.size + 2 * claimedNacks d ≤ d.length)
    (hhi : d.length ≤ ACK_PKT_SIZE) (wantNumPkts : Bool) : SelfContained d wantNumPkts := by
  have hhdr : ∀ f, InHeader f → ∀ old : AckPkt, (old.rcvAck d).get f = (overZeros d).get f := by
    intro f hf old
    apply get_rcvAck
    unfold InHeader at hf
    omega
  have hnum : ∀ old : AckPkt, (old.rcvAck d).get numNacks = claimedNacks d := hhdr _ (by decide)
  have hsize : ACK_PKT_SIZE = AckHeader.size + 2 * ACK_WINDOW := rfl
  constructor
  · intro old a ha
    exact rcvAck_outside old (hhi.trans ha)
  · intro old i hi
    rw [hnum] at hi
    simp only [relSeqArr]
    omega
  · -- every byte that `ParseNack` reads is one of the datagram
    intro old old'
    have hseqs : ∀ old : AckPkt, (List.range (claimedNacks d)).map (fun i =>
        uint32 ((old.rcvAck d).get (relSeqArr i) + (overZeros d).get startNackSeq)) =
        (List.range (claimedNacks d)).map fun i =>
          uint32 ((overZeros d).get (relSeqArr i) + (overZeros d).get startNackSeq) := by
      intro old
      apply List.map_congr_left
      intro i hi
      rw [get_rcvAck _ old]
      have := List.mem_range.mp hi
      simp only [relSeqArr]
      omega
    simp (disch := decide) only [parseNack, hnum, hhdr, hseqs]

/-! ### What is not -/

/-- Zeros but for the byte at `a`. -/
def marked (a : Nat) : AckPkt := ⟨fun x => if x = a then 1 else 0⟩

/-- A member with a byte behind the end of the datagram shows the earlier content. -/
theorem get_marked_ne {a i : Nat} (ha : d.length ≤ a) (hi : i < f.width) (hai : f.offset + i = a) :
    ((marked a).rcvAck d).get f ≠ (overZeros d).get f := by
  intro h
  have hbyte := Field.eq_of_get_eq h hi
  rw [hai, overZeros, rcvAck_outside _ ha, rcvAck_outside _ ha] at hbyte
  simp [marked, zeros] at hbyte

theorem int32_inj {m n : Nat} (hm : m < 4294967296) (hn : n < 4294967296)
    (h : int32 m = int32 n) : m = n := by
  unfold int32 at h
  split at h <;> split at h <;> omega

/-- Two 16-bit offsets from the same start give different numbers. -/
theorem uint32_add_inj {m n start : Nat} (hm : m < 256 ^ 2) (hn : n < 256 ^ 2)
    (h : uint32 (m + start) = uint32 (n + start)) : m = n := by
  unfold uint32 at h
  omega

/-- A datagram without a whole header shows the earlier `bs_id_`. -/
theorem SelfContained.header (h : SelfContained d wantNumPkts) : AckHeader.size ≤ d.length := by
  by_contra hshort
  have hsize : AckHeader.size = 28 := rfl
  have hbs := congrArg Parsed.bsId (h.closed (marked 27) zeros)
  have hget := int32_inj (Field.get_lt bsId _) (Field.get_lt bsId _) hbs
  exact get_marked_ne (f := bsId) (a := 27) (i := 3) (by omega) (by decide) rfl hget

/-- A datagram that claims more nacks than it holds shows earlier ones. -/
theorem SelfContained.nacks (h : SelfContained d wantNumPkts) :
    AckHeader.size + 2 * claimedNacks d ≤ d.length := by
  have hheader := h.header
  by_contra hshort
  obtain ⟨n, hn⟩ : ∃ n, claimedNacks d = n + 1 :=
    Nat.exists_eq_succ_of_ne_zero fun hzero => hshort (by rw [hzero]; exact hheader)
  rw [hn] at hshort
  -- the high byte of the last claimed entry
  have hlast := h.closed (marked (AckHeader.size + 2 * n + 1)) zeros
  have hnum : ∀ old : AckPkt, (old.rcvAck d).get numNacks = n + 1 := fun old =>
    (get_rcvAck (le_trans (by decide) hheader) old).trans hn
  have hstart : ∀ old : AckPkt, (old.rcvAck d).get startNackSeq = (overZeros d).get startNackSeq :=
    get_rcvAck (le_trans (by decide) hheader)
  have hseq := congrArg (fun r : Parsed => r.seqArr[n]?) hlast
  simp only [parseNack, hnum, hstart, List.getElem?_map, List.getElem?_range (Nat.lt_succ_self n),
    Option.map_some, Option.some.injEq] at hseq
  have hlt := Field.get_lt (relSeqArr n) ((marked (AckHeader.size + 2 * n + 1)).rcvAck d).mem
  have hlt' := Field.get_lt (relSeqArr n) (overZeros d).mem
  apply get_marked_ne (f := relSeqArr n) (d := d) (a := AckHeader.size + 2 * n + 1) (i := 1)
    (by omega) (by simp [relSeqArr]) rfl
  exact uint32_add_inj hlt hlt' hseq

/-- A datagram longer than an `AckPkt` is written behind it. -/
theorem SelfContained.room (h : SelfContained d wantNumPkts) : d.length ≤ ACK_PKT_SIZE := by
  by_contra hlong
  have hlt : ACK_PKT_SIZE < d.length := Nat.lt_of_not_le hlong
  have hsame := h.copy ⟨fun _ => d[ACK_PKT_SIZE] + 1⟩ ACK_PKT_SIZE (Nat.le_refl _)
  rw [rcvAck_inside _ hlt] at hsame
  simp at hsame

/-- A datagram is handled safely exactly if it holds the nacks that it claims and fits an
`AckPkt`. -/
theorem selfContained_iff (d : List UInt8) (wantNumPkts : Bool) :
    SelfContained d wantNumPkts ↔
      AckHeader.size + 2 * claimedNacks d ≤ d.length ∧ d.length ≤ ACK_PKT_SIZE :=
  ⟨fun h => ⟨h.nacks, h.room⟩, fun h => SelfContained.of_length h.1 h.2 wantNumPkts⟩

/-- A `RAW_ACK` header that claims one nack, without the nack. -/
def truncatedAck : List UInt8 :=
  [5, 0, 1, 0, 1, 0, 0, 0, 9, 0, 0, 0, 7, 0, 0, 0, 7, 0, 0, 0, 3, 0, 0, 0, 1, 0, 0, 0]

/-- The same header with a byte more behind it than an `AckPkt` has room for. -/
def oversizedAck : List UInt8 := truncatedAck ++ List.replicate 1441 5

/-- The truncated ack names packet 7 after one earlier ack and packet 8 after another, and the
oversized one is written behind the `AckPkt`. -/
theorem selfContained_broken :
    ((zeros.rcvAck truncatedAck).parseNack true).seqArr = [7] ∧
      (((marked 28).rcvAck truncatedAck).parseNack true).seqArr = [8] ∧
      (zeros.rcvAck oversizedAck).mem ACK_PKT_SIZE = 5 ∧ zeros.mem ACK_PKT_SIZE = 0 := by
  refine ⟨by decide, by decide, ?_, rfl⟩
  have hlt : ACK_PKT_SIZE < oversizedAck.length := by
    rw [oversizedAck, List.length_append, List.length_replicate]
    decide
  rw [rcvAck_inside _ hlt]
  exact (List.getElem_append_right (by decide)).trans (List.getElem_replicate _)

end AckPkt

end WspaceScout
