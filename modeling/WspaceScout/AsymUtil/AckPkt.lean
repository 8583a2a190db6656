import WspaceScout.AsymUtil.TxDataBuf
import WspaceScout.AsymUtil.TxRawBuf
import WspaceScout.Foundation.Consecutive
import WspaceScout.Foundation.LittleEndian

/-!
# Ack packets

An `AckPkt` is a header followed by an array of 16-bit offsets, the nacks relative to the first of
them. The object is its bytes, because only a prefix of it is sent and the receiver copies that
prefix over the ack that it had before.

## Main definitions

- `AckPkt.init`, `AckPkt.pushNack`, `AckPkt.getLen` — building an ack
- `AckPkt.parseNack` — what the AP reads out of it
- `AckPkt.Carries` — the nacks that a packet under construction has

## Main results

- `AckPkt.build_parse` — the round trip of one packet over any old content
- `AckPkt.roundTrip` — the round trip, and the numbering of successive packets
-/

namespace WspaceScout

open Foundation

/-- Nacks that an ack packet has room for. -/
def ACK_WINDOW : Nat := 720

/-- The packet types of acks. -/
def DATA_ACK : Nat := 3

def RAW_ACK : Nat := 5

/-- The assertions of `AckPkt`. -/
inductive AckFault where
  | pushNack
  | getLen
  deriving DecidableEq, Repr

/-- The 32-bit word of an `int`. -/
def intWord (i : Int) : Nat := (i % 4294967296).toNat

/-- The bytes of an `AckPkt`, from its own address on. -/
structure AckPkt where
  mem : Memory

namespace AckHeader

/-! ### Layout -/

def type : Field := ⟨0, 1⟩

def numNacks : Field := ⟨2, 2⟩

def numPkts : Field := ⟨4, 2⟩

def ackSeq : Field := ⟨8, 4⟩

def startNackSeq : Field := ⟨12, 4⟩

def endSeq : Field := ⟨16, 4⟩

def clientId : Field := ⟨20, 4⟩

def bsId : Field := ⟨24, 4⟩

/-- `sizeof(AckHeader)`. -/
def size : Nat := 28

end AckHeader

namespace AckPkt

open AckHeader

/-- The element `i` of `rel_seq_arr_`. -/
def relSeqArr (i : Nat) : Field := ⟨AckHeader.size + 2 * i, 2⟩

/-- `sizeof(AckPkt)`. -/
def ACK_PKT_SIZE : Nat := AckHeader.size + 2 * ACK_WINDOW

/-- The value of a member. -/
def get (p : AckPkt) (f : Field) : Nat := f.get p.mem

/-- Assignment to a member. -/
def set (p : AckPkt) (f : Field) (n : Nat) : AckPkt := ⟨f.set p.mem n⟩

/-! ### Building -/

/-- The constructor; the members that it does not set keep what the allocator left. -/
def new (mem : Memory) : AckPkt :=
  let p := (⟨mem⟩ : AckPkt).set ackSeq 0
  let p := (((p.set numNacks 0).set startNackSeq 0).set AckHeader.endSeq 0).set numPkts 0
  ⟨p.mem.write AckHeader.size (List.replicate (2 * ACK_WINDOW) 0)⟩

/-- `Init`. -/
def init (p : AckPkt) (type : Nat) : AckPkt :=
  let p := p.set AckHeader.type type
  let p := p.set ackSeq (p.get ackSeq + 1)
  (((p.set numNacks 0).set startNackSeq 0).set endSeq 0).set numPkts 0

/-- `PushNack`. -/
def pushNack (p : AckPkt) (seq : Nat) : Except AckFault AckPkt :=
  if p.get numNacks = 0 then
    let p := (p.set startNackSeq seq).set (relSeqArr 0) 0
    .ok (p.set numNacks (p.get numNacks + 1))
  else if p.get numNacks < ACK_WINDOW then
    let p := p.set (relSeqArr (p.get numNacks)) (uint32Sub seq (p.get startNackSeq))
    .ok (p.set numNacks (p.get numNacks + 1))
  else .error .pushNack

/-- A call of `PushNack` for each number. -/
def pushNacks (p : AckPkt) : List Nat → Except AckFault AckPkt
  | [] => .ok p
  | seq :: seqs =>
    match p.pushNack seq with
    | .error e => .error e
    | .ok p => p.pushNacks seqs

def setEndSeq (p : AckPkt) (seq : Nat) : AckPkt := p.set endSeq seq

def setNumPkts (p : AckPkt) (n : Nat) : AckPkt := p.set numPkts n

def setIds (p : AckPkt) (client bs : Int) : AckPkt :=
  (p.set clientId (intWord client)).set bsId (intWord bs)

/-- What the builder of an ack says about it besides the nacks, each value in the range of its
type. -/
structure Args where
  type : Nat
  endSeq : Nat
  numPkts : Nat
  clientId : Int
  bsId : Int
  type_lt : type < 256
  endSeq_lt : endSeq < 4294967296
  numPkts_lt : numPkts < 65536
  clientId_int : -2147483648 ≤ clientId ∧ clientId < 2147483648
  bsId_int : -2147483648 ≤ bsId ∧ bsId < 2147483648

/-- `Init`, a `PushNack` for each number, and the setters. -/
def build (p : AckPkt) (args : Args) (nacks : List Nat) : Except AckFault AckPkt :=
  match (p.init args.type).pushNacks nacks with
  | .error e => .error e
  | .ok p =>
    .ok (((p.setEndSeq args.endSeq).setNumPkts args.numPkts).setIds args.clientId args.bsId)

/-- Packets built one after the other with the same object. -/
def buildAll (p : AckPkt) : List (Args × List Nat) → Except AckFault (List AckPkt)
  | [] => .ok []
  | (args, nacks) :: rest =>
    match p.build args nacks with
    | .error e => .error e
    | .ok p =>
      match p.buildAll rest with
      | .error e => .error e
      | .ok ps => .ok (p :: ps)

/-- `GetLen`. -/
def getLen (p : AckPkt) : Except AckFault Nat :=
  let len := (AckHeader.size + 2 * p.get numNacks) % 65536
  if len ≤ PKT_SIZE ∧ len > 0 then .ok len else .error .getLen

/-! ### Receiving -/

/-- The copy in `RcvAck`: `buf` are the bytes of the datagram. -/
def rcvAck (p : AckPkt) (buf : List UInt8) : AckPkt := ⟨p.mem.write 0 buf⟩

/-- What `ParseNack` writes through its arguments; `seqArr` are the entries of `seq_arr` that it
writes. -/
structure Parsed where
  type : Nat
  ackSeq : Nat
  numNacks : Nat
  endSeq : Nat
  clientId : Int
  bsId : Int
  numPkts : Option Nat
  seqArr : List Nat
  deriving DecidableEq, Repr

/-- `ParseNack`; `wantNumPkts` says whether the caller passes a pointer for `num_pkts`. -/
def parseNack (p : AckPkt) (wantNumPkts : Bool) : Parsed where
  type := p.get type
  ackSeq := p.get ackSeq
  numNacks := p.get numNacks
  endSeq := p.get endSeq
  clientId := int32 (p.get clientId)
  bsId := int32 (p.get bsId)
  numPkts := if wantNumPkts then some (p.get numPkts) else none
  seqArr := (List.range (p.get numNacks)).map fun i =>
    uint32 (p.get (relSeqArr i) + p.get startNackSeq)

/-! ### Members -/

variable {p p' : AckPkt} {f g : Field} {nacks : List Nat} {seq n : Nat}

theorem get_set_self (p : AckPkt) (f : Field) (n : Nat) :
    (p.set f n).get f = n % 256 ^ f.width := f.get_set_self p.mem n

theorem get_set_of_disjoint (h : f.Disjoint g) : (p.set g n).get f = p.get f :=
  Field.get_set_of_disjoint h p.mem n

/-- The member lies in the header. -/
def InHeader (f : Field) : Prop := f.offset + f.width ≤ AckHeader.size

instance (f : Field) : Decidable (InHeader f) := inferInstanceAs (Decidable (_ ≤ _))

theorem get_set_relSeqArr (h : InHeader f) (i : Nat) : (p.set (relSeqArr i) n).get f = p.get f :=
  get_set_of_disjoint (.inl (by unfold InHeader at h; simp only [relSeqArr]; omega))

theorem relSeqArr_get_set (h : InHeader f) (i : Nat) :
    (p.set f n).get (relSeqArr i) = p.get (relSeqArr i) :=
  get_set_of_disjoint (.inr (by unfold InHeader at h; simp only [relSeqArr]; omega))

theorem relSeqArr_get_set_of_ne {i j : Nat} (h : i ≠ j) :
    (p.set (relSeqArr j) n).get (relSeqArr i) = p.get (relSeqArr i) :=
  get_set_of_disjoint (by simp only [Field.Disjoint, relSeqArr]; omega)

/-! ### The packet under construction -/

/-- The packet has the given nacks. -/
structure Carries (p : AckPkt) (nacks : List Nat) : Prop where
  numNacks : p.get numNacks = nacks.length
  start : ∀ seq, nacks.head? = some seq → p.get startNackSeq = seq
  rel : ∀ (i seq : Nat), nacks[i]? = some seq →
    p.get (relSeqArr i) = uint32Sub seq (p.get startNackSeq) % 65536

/-- A member that `PushNack` does not touch. -/
def Kept (f : Field) : Prop := InHeader f ∧ f.Disjoint startNackSeq ∧ f.Disjoint AckHeader.numNacks

instance (f : Field) : Decidable (Kept f) := inferInstanceAs (Decidable (_ ∧ _ ∧ _))

theorem init_carries (p : AckPkt) (type : Nat) : (p.init type).Carries [] := by
  refine ⟨?_, ?_, ?_⟩
  · simp (disch := decide) only [init, get_set_of_disjoint, get_set_self]
    rfl
  · intro seq h
    cases h
  · intro i seq h
    simp at h

theorem uint32Sub_self (h : seq < 4294967296) : uint32Sub seq seq = 0 := by
  rw [uint32Sub_of_le (Nat.le_refl seq) h, Nat.sub_self]

/-- The first nack sets the start. -/
theorem Carries.pushFirst (h : p.Carries []) (hseq : seq < 4294967296) :
    ∃ p', p.pushNack seq = .ok p' ∧ p'.Carries [seq] ∧ ∀ f, Kept f → p'.get f = p.get f := by
  have hzero : p.get AckHeader.numNacks = 0 := h.numNacks
  refine ⟨_, if_pos hzero, ⟨?_, ?_, ?_⟩, ?_⟩
  · simp (disch := decide) only [get_set_self, get_set_of_disjoint, hzero]
    rfl
  · intro first hfirst
    cases hfirst
    simp (disch := decide) only [get_set_self, get_set_of_disjoint]
    exact Nat.mod_eq_of_lt hseq
  · intro i first hi
    obtain ⟨hlt, rfl⟩ := List.getElem?_eq_some_iff.mp hi
    obtain rfl : i = 0 := by simpa using hlt
    have hmod : seq % 256 ^ startNackSeq.width = seq := Nat.mod_eq_of_lt hseq
    simp (disch := decide) only [get_set_self, get_set_of_disjoint, hmod, List.getElem_cons_zero,
      uint32Sub_self hseq]
    rfl
  · intro f ⟨hin, hstart, hnum⟩
    rw [get_set_of_disjoint hnum, get_set_relSeqArr hin, get_set_of_disjoint hstart]

/-- The other nacks are stored relative to the start. -/
theorem Carries.pushNext (h : p.Carries nacks) (hne : nacks ≠ [])
    (hroom : nacks.length < ACK_WINDOW) (seq : Nat) :
    ∃ p', p.pushNack seq = .ok p' ∧ p'.Carries (nacks ++ [seq]) ∧
      ∀ f, Kept f → p'.get f = p.get f := by
  have hnum := h.numNacks
  have hpos : ¬p.get AckHeader.numNacks = 0 := by
    rw [hnum]
    exact fun hnil => hne (List.length_eq_zero_iff.mp hnil)
  have hlt : p.get AckHeader.numNacks < ACK_WINDOW := by rwa [hnum]
  -- the new nack goes to the position that the counter gives, behind all others
  refine ⟨_, (if_neg hpos).trans (if_pos hlt), ⟨?_, ?_, ?_⟩, ?_⟩
  · have hwindow : ACK_WINDOW = 720 := rfl
    simp (disch := decide) only [get_set_self, get_set_relSeqArr, hnum, List.length_append,
      List.length_singleton]
    exact Nat.mod_eq_of_lt (show nacks.length + 1 < 65536 by omega)
  · intro first hfirst
    rw [List.head?_append_of_ne_nil _ hne] at hfirst
    simp (disch := decide) only [get_set_relSeqArr, get_set_of_disjoint]
    exact h.start first hfirst
  · intro i nack hi
    simp (disch := decide) only [relSeqArr_get_set, get_set_relSeqArr, get_set_of_disjoint]
    obtain ⟨hlt, hi⟩ | ⟨rfl, rfl⟩ := getElem?_snoc hi
    · rw [relSeqArr_get_set_of_ne (by omega)]
      exact h.rel i nack hi
    · rw [← hnum, get_set_self]
      rfl
  · intro f ⟨hin, _, hnum⟩
    rw [get_set_of_disjoint hnum, get_set_relSeqArr hin]

/-- `PushNack` adds a nack. -/
theorem Carries.push (h : p.Carries nacks) (hseq : seq < 4294967296)
    (hroom : nacks.length < ACK_WINDOW) :
    ∃ p', p.pushNack seq = .ok p' ∧ p'.Carries (nacks ++ [seq]) ∧
      ∀ f, Kept f → p'.get f = p.get f := by
  by_cases hnil : nacks = []
  · subst hnil
    exact h.pushFirst hseq
  · exact h.pushNext hnil hroom seq

/-- A sequence of `PushNack` adds all of them, as far as there is room. -/
theorem Carries.pushAll (h : p.Carries nacks) {seqs : List Nat}
    (hseqs : ∀ seq ∈ seqs, seq < 4294967296) (hroom : nacks.length + seqs.length ≤ ACK_WINDOW) :
    ∃ p', p.pushNacks seqs = .ok p' ∧ p'.Carries (nacks ++ seqs) ∧
      ∀ f, Kept f → p'.get f = p.get f := by
  induction seqs generalizing p nacks with
  | nil => exact ⟨p, rfl, by rwa [List.append_nil], fun _ _ => rfl⟩
  | cons seq seqs ih =>
    rw [List.length_cons] at hroom
    rw [List.forall_mem_cons] at hseqs
    obtain ⟨p₁, hpush, hcarries, hkept⟩ := h.push hseqs.1 (by omega)
    obtain ⟨p', hrun, hcarries', hkept'⟩ := ih hcarries hseqs.2 (by
      rw [List.length_append, List.length_singleton]
      omega)
    refine ⟨p', ?_, ?_, fun f hf => (hkept' f hf).trans (hkept f hf)⟩
    · simp only [pushNacks, hpush]
      exact hrun
    · rwa [List.append_assoc] at hcarries'

/-! ### The round trip -/

theorem int32_intWord {i : Int} (h : -2147483648 ≤ i ∧ i < 2147483648) : int32 (intWord i) = i := by
  unfold int32 intWord
  split <;> omega

/-- The numbers that fit an ack packet: 16 bits after the first one. -/
structure Fits (nacks : List Nat) : Prop where
  length_le : nacks.length ≤ ACK_WINDOW
  lt : ∀ seq ∈ nacks, seq < 4294967296
  near : ∀ first, nacks.head? = some first → ∀ seq ∈ nacks, uint32Sub seq first ≤ 65535

/-- What the receiver of a packet must see. -/
def Args.parsed (args : Args) (ackSeq : Nat) (nacks : List Nat) (wantNumPkts : Bool) : Parsed where
  type := args.type
  ackSeq := ackSeq
  numNacks := nacks.length
  endSeq := args.endSeq
  clientId := args.clientId
  bsId := args.bsId
  numPkts := if wantNumPkts then some args.numPkts else none
  seqArr := nacks

/-- A finished packet. -/
structure Built (p : AckPkt) (args : Args) (ackSeq : Nat) (nacks : List Nat) : Prop where
  carries : p.Carries nacks
  type : p.get AckHeader.type = args.type
  ackSeq : p.get AckHeader.ackSeq = ackSeq
  endSeq : p.get AckHeader.endSeq = args.endSeq
  numPkts : p.get AckHeader.numPkts = args.numPkts
  clientId : p.get AckHeader.clientId = intWord args.clientId
  bsId : p.get AckHeader.bsId = intWord args.bsId

theorem Carries.set {f : Field} (h : p.Carries nacks) (hf : InHeader f)
    (hnum : AckHeader.numNacks.Disjoint f) (hstart : startNackSeq.Disjoint f) (n : Nat) :
    (p.set f n).Carries nacks := by
  refine ⟨?_, ?_, ?_⟩
  · rw [get_set_of_disjoint hnum]
    exact h.numNacks
  · intro seq hseq
    rw [get_set_of_disjoint hstart]
    exact h.start seq hseq
  · intro i seq hi
    rw [relSeqArr_get_set hf, get_set_of_disjoint hstart]
    exact h.rel i seq hi

/-- Building succeeds and counts up `ack_seq_`. -/
theorem build_built (p : AckPkt) (args : Args) (hfits : Fits nacks) :
    ∃ p', p.build args nacks = .ok p' ∧
      p'.Built args (uint32 (p.get AckHeader.ackSeq + 1)) nacks := by
  obtain ⟨q, hrun, hcarries, hkept⟩ := (p.init_carries args.type).pushAll hfits.lt
    (by simpa using hfits.length_le)
  have htype : q.get AckHeader.type = args.type := by
    rw [hkept _ (by decide)]
    simp (disch := decide) only [init, get_set_of_disjoint, get_set_self]
    exact Nat.mod_eq_of_lt args.type_lt
  have hack : q.get AckHeader.ackSeq = uint32 (p.get AckHeader.ackSeq + 1) := by
    rw [hkept _ (by decide)]
    simp (disch := decide) only [init, get_set_of_disjoint, get_set_self]
    rfl
  have hword : ∀ i : Int, intWord i < 4294967296 := by
    intro i
    unfold intWord
    omega
  refine ⟨((q.setEndSeq args.endSeq).setNumPkts args.numPkts).setIds args.clientId args.bsId,
    ?_, ?_⟩
  · simp only [build, hrun]
  · rw [List.nil_append] at hcarries
    -- four members are still to be set, apart from the nacks and from each other
    refine ⟨(((hcarries.set ?_ ?_ ?_ _).set ?_ ?_ ?_ _).set ?_ ?_ ?_ _).set ?_ ?_ ?_ _,
      ?_, ?_, ?_, ?_, ?_, ?_⟩
    iterate 12 decide
    all_goals simp (disch := decide) only [setIds, setNumPkts, setEndSeq, get_set_of_disjoint,
      get_set_self, htype, hack]
    · exact Nat.mod_eq_of_lt args.endSeq_lt
    · exact Nat.mod_eq_of_lt args.numPkts_lt
    · exact Nat.mod_eq_of_lt (hword _)
    · exact Nat.mod_eq_of_lt (hword _)

/-- The members inside a copied prefix arrive. -/
theorem get_rcvAck_read {len : Nat} (hin : f.offset + f.width ≤ len) (p old : AckPkt) :
    (old.rcvAck (p.mem.read 0 len)).get f = p.get f := by
  have hlen : f.offset + f.width ≤ (p.mem.read 0 len).length := by rwa [Memory.length_read]
  have h := Field.get_write_prefix hlen old.mem p.mem
  rwa [Memory.write_read_self] at h

theorem Built.getLen {args : Args} {ackSeq : Nat} (h : p.Built args ackSeq nacks)
    (hfits : Fits nacks) : p.getLen = .ok (AckHeader.size + 2 * nacks.length) ∧
      AckHeader.size + 2 * nacks.length ≤ PKT_SIZE := by
  have hle := hfits.length_le
  have hroom : AckHeader.size + 2 * ACK_WINDOW ≤ PKT_SIZE := by decide
  have hpos : 0 < AckHeader.size := by decide
  have hsize : PKT_SIZE = 1472 := rfl
  have hword : (AckHeader.size + 2 * nacks.length) % 65536 = AckHeader.size + 2 * nacks.length :=
    Nat.mod_eq_of_lt (by omega)
  refine ⟨?_, by omega⟩
  simp only [AckPkt.getLen, h.carries.numNacks, hword]
  rw [if_pos ⟨by omega, by omega⟩]

/-- A number is its offset from the start, added to the start again. -/
theorem uint32_add_uint32Sub {first : Nat} (hfirst : first < 4294967296) (hseq : seq < 4294967296)
    (hnear : uint32Sub seq first ≤ 65535) :
    uint32 (uint32Sub seq first % 65536 + first) = seq := by
  rw [Nat.mod_eq_of_lt (by omega)]
  unfold uint32 uint32Sub
  omega

/-- The receiver of the first `GetLen()` bytes reads what the builder said. -/
theorem Built.parse {args : Args} {ackSeq : Nat} (h : p.Built args ackSeq nacks)
    (hfits : Fits nacks) (old : AckPkt) (wantNumPkts : Bool) :
    (old.rcvAck (p.mem.read 0 (AckHeader.size + 2 * nacks.length))).parseNack wantNumPkts =
      args.parsed ackSeq nacks wantNumPkts := by
  have hget : ∀ f, InHeader f →
      (old.rcvAck (p.mem.read 0 (AckHeader.size + 2 * nacks.length))).get f = p.get f :=
    fun f hf => get_rcvAck_read (Nat.le_add_right_of_le hf) p old
  -- the one part that is not a member of its own: offsets from the first nack
  have hseqs : (List.range nacks.length).map (fun i => uint32
      ((old.rcvAck (p.mem.read 0 (AckHeader.size + 2 * nacks.length))).get (relSeqArr i) +
        p.get startNackSeq)) = nacks := by
    apply List.ext_getElem
    · simp
    · intro i _ hi
      have hnack : nacks[i]? = some nacks[i] := List.getElem?_eq_getElem hi
      have hmem : nacks[i] ∈ nacks := List.getElem_mem hi
      obtain ⟨first, hfirst⟩ : ∃ first, nacks.head? = some first :=
        Option.isSome_iff_exists.mp (List.isSome_head?.mpr (List.ne_nil_of_mem hmem))
      have hrel := h.carries.rel i _ hnack
      rw [List.getElem_map, List.getElem_range, get_rcvAck_read (by simp only [relSeqArr]; omega),
        hrel, h.carries.start first hfirst]
      exact uint32_add_uint32Sub (hfits.lt _ (List.mem_of_mem_head? hfirst)) (hfits.lt _ hmem)
        (hfits.near first hfirst _ hmem)
  simp (disch := decide) only [parseNack, hget, h.carries.numNacks, h.type, h.ackSeq, h.endSeq,
    h.numPkts, h.clientId, h.bsId, int32_intWord args.clientId_int, int32_intWord args.bsId_int,
    hseqs, Args.parsed]

/-- Packets built one after the other are numbered from the old number on. -/
theorem buildAll_ackSeq {series : List (Args × List Nat)} (p : AckPkt)
    (hfits : ∀ a ∈ series, Fits a.2)
    (hlt : p.get AckHeader.ackSeq + series.length < 4294967296) :
    ∃ ps, p.buildAll series = .ok ps ∧
      ps.map (·.get AckHeader.ackSeq) = List.range' (p.get AckHeader.ackSeq + 1) series.length := by
  induction series generalizing p with
  | nil => exact ⟨[], rfl, rfl⟩
  | cons a series ih =>
    rw [List.forall_mem_cons] at hfits
    rw [List.length_cons] at hlt
    obtain ⟨q, hbuild, hq⟩ := p.build_built a.1 hfits.1
    have hack : q.get AckHeader.ackSeq = p.get AckHeader.ackSeq + 1 := by
      rw [hq.ackSeq]
      exact uint32_of_lt (by omega)
    obtain ⟨ps, hrun, hnums⟩ := ih q hfits.2 (by rw [hack]; omega)
    refine ⟨q :: ps, ?_, ?_⟩
    · simp only [buildAll, hbuild, hrun]
    · rw [List.map_cons, hnums, hack, List.length_cons, List.range'_succ]

theorem new_ackSeq (mem : Memory) : (new mem).get AckHeader.ackSeq = 0 := by
  have hzeros : (new mem).get AckHeader.ackSeq =
      ((((((⟨mem⟩ : AckPkt).set AckHeader.ackSeq 0).set AckHeader.numNacks 0).set
        startNackSeq 0).set AckHeader.endSeq 0).set AckHeader.numPkts 0).get AckHeader.ackSeq :=
    congrArg leValue (Memory.read_write_of_disjoint _ _ (.inl (by decide)))
  rw [hzeros]
  simp (disch := decide) only [get_set_of_disjoint, get_set_self]
  rfl

/-- A packet survives the way to the AP over whatever ack was received before, and packets built one
after the other carry increasing numbers, from 1 on if the object is new. -/
theorem roundTrip :
    (∀ (p : AckPkt) (args : Args) (nacks : List Nat), Fits nacks →
      ∃ q len, p.build args nacks = .ok q ∧ q.getLen = .ok len ∧ len ≤ PKT_SIZE ∧
        ∀ (old : AckPkt) (wantNumPkts : Bool),
          (old.rcvAck (q.mem.read 0 len)).parseNack wantNumPkts =
            args.parsed (uint32 (p.get AckHeader.ackSeq + 1)) nacks wantNumPkts) ∧
    (∀ (p : AckPkt) (series : List (Args × List Nat)), (∀ a ∈ series, Fits a.2) →
      p.get AckHeader.ackSeq + series.length < 4294967296 →
      ∃ ps, p.buildAll series = .ok ps ∧
        (ps.map (·.get AckHeader.ackSeq)).Pairwise (· < ·)) ∧
    ∀ mem, (new mem).get AckHeader.ackSeq = 0 := by
  refine ⟨?_, ?_, new_ackSeq⟩
  · intro p args nacks hfits
    obtain ⟨q, hbuild, hq⟩ := p.build_built args hfits
    obtain ⟨hlen, hle⟩ := hq.getLen hfits
    exact ⟨q, _, hbuild, hlen, hle, hq.parse hfits⟩
  · intro p series hfits hlt
    obtain ⟨ps, hrun, hnums⟩ := p.buildAll_ackSeq hfits hlt
    refine ⟨ps, hrun, ?_⟩
    rw [hnums]
    exact List.pairwise_lt_range'

/-- A raw ack for client 3. -/
def threeNacks : Args where
  type := RAW_ACK
  endSeq := 12
  numPkts := 9
  clientId := 3
  bsId := -1
  type_lt := by decide
  endSeq_lt := by decide
  numPkts_lt := by decide
  clientId_int := by decide
  bsId_int := by decide

theorem threeNacks_fits : Fits [4294967295, 2, 0] :=
  ⟨by decide, by decide, by intro first h; cases h; decide⟩

/-- What the allocator left. -/
def oldBytes : Memory := fun _ => 7

/-- The raw ack with three nacks across the end of the number range, and two such acks. -/
theorem roundTrip_threeNacks :
    (∃ q len, (new oldBytes).build threeNacks [4294967295, 2, 0] = .ok q ∧ q.getLen = .ok len ∧
      len ≤ PKT_SIZE ∧ ∀ (old : AckPkt) (wantNumPkts : Bool),
        (old.rcvAck (q.mem.read 0 len)).parseNack wantNumPkts = threeNacks.parsed
          (uint32 ((new oldBytes).get AckHeader.ackSeq + 1)) [4294967295, 2, 0] wantNumPkts) ∧
    ∃ ps, (new oldBytes).buildAll
        [(threeNacks, [4294967295, 2, 0]), (threeNacks, [4294967295, 2, 0])] = .ok ps ∧
      (ps.map (·.get AckHeader.ackSeq)).Pairwise (· < ·) := by
  refine ⟨roundTrip.1 _ _ _ threeNacks_fits, roundTrip.2.1 _ _ ?_ ?_⟩
  · intro a ha
    obtain rfl : a = (threeNacks, [4294967295, 2, 0]) := by simpa using ha
    exact threeNacks_fits
  · rw [roundTrip.2.2]
    decide

end AckPkt

end WspaceScout
