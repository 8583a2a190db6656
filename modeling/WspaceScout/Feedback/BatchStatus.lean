import WspaceScout.DataPath.SendCodedBatch
import WspaceScout.Feedback.Threads

/-!
# What is recorded about the frames of a batch

`SendCodedBatch` makes the status of a frame from the header that it has just written, and pushes it
before the next frame. The machine of the three threads has pushes of any rates and lengths; here
they are those of the frames.

## Main definitions

- `SentFrame.status` — the status for a frame
- `Records` — runs of the three threads in which the frames of one batch are recorded

## Main results

- `sendCodedBatch_frames` — the headers of the frames that are sent
- `sendCodedBatch_records` — what the log has after a batch
-/

namespace WspaceScout

open Foundation

/-- The rate in units of 100 kbit/s, `AthHeader::GetRate`. -/
def rateOfCode : Nat → Option Nat
  | 0x1B => some 10
  | 0x1A => some 20
  | 0x19 => some 55
  | 0x18 => some 110
  | 0x0B => some 60
  | 0x0F => some 90
  | 0x0A => some 120
  | 0x0E => some 180
  | 0x09 => some 240
  | 0x0D => some 360
  | 0x08 => some 480
  | 0x0C => some 540
  | _ => none

/-- `GetRate` undoes `SetRate`. -/
theorem rateOfCode_rateCode {rate code : Nat} (h : rateCode rate = some code) :
    rateOfCode code = some rate := by
  unfold rateCode at h
  split at h <;> cases h <;> rfl

/-- The status that `SendCodedBatch` makes of a frame; `sendTime` is when it is pushed. -/
def SentFrame.status (f : SentFrame) (sendTime : MonotonicTimer) : Option RawPktSendStatus :=
  (rateOfCode f.frame.hdr.rate).map fun rate =>
    ⟨f.frame.hdr.rawSeq, rate, f.len, .unknown, sendTime⟩

/-- Frames with consecutive raw sequence numbers from `rawSeq` on, and these rates. -/
def Framed (rawSeq : Nat) (rateArr : List Nat) (frames : List SentFrame) : Prop :=
  ∀ (j : Nat) (f : SentFrame), frames[j]? = some f →
    f.frame.hdr.rawSeq = uint32 (rawSeq + j) ∧
      rateOfCode f.frame.hdr.rate = some (rateArr.getD j 0)

section Batch

variable {ids : BatchIds} {scratch hdr : Frame} {c : CodeInfo} {rateArr : List Nat}

theorem buildHeader_rate {rate j : Nat} (h : buildHeader ids scratch c rate j = .ok hdr) :
    hdr.hdr.rawSeq = ids.rawSeq ∧ rateOfCode hdr.hdr.rate = some rate := by
  unfold buildHeader Frame.setHeader Frame.setRate at h
  split at h
  · cases h
  · next heq =>
    split at heq
    · cases heq
      split at h
      · next hcode =>
        cases h
        exact ⟨rfl, rateOfCode_rateCode hcode⟩
      · cases h
    · cases heq

/-- The headers of the frames of a batch, and the counter after it. -/
theorem sendCodedBatch_frames {r : BatchIds × CodeInfo × List SentFrame}
    (hraw : ids.rawSeq < 4294967296) (h : sendCodedBatch ids scratch c rateArr = .ok r) :
    Framed ids.rawSeq rateArr r.2.2 ∧ r.2.2.length = c.n ∧
      r.1.rawSeq = uint32 (ids.rawSeq + c.n) := by
  have hloop := countUp_ends
    (I := fun j (s : SendLoop) => s.ids.rawSeq = uint32 (ids.rawSeq + j) ∧ s.sent.length = j ∧
      Framed ids.rawSeq rateArr s.sent)
    (Q := fun s => s.ids.rawSeq = uint32 (ids.rawSeq + c.n) ∧ s.sent.length = c.n ∧
      Framed ids.rawSeq rateArr s.sent)
    (F := fun _ => True) (SendLoop.visit rateArr) 0 c.n ⟨ids, c, scratch, []⟩
    ⟨(uint32_of_lt hraw).symm, rfl, fun i f hf => by cases hf⟩
    (fun j s _ _ hs => ?_) (fun s hs => by rwa [Nat.zero_add] at hs)
  · unfold sendCodedBatch at h
    split at h
    · split at h
      · cases h
      · next s hrun =>
        rw [hrun] at hloop
        cases h
        exact ⟨hloop.2.2, hloop.2.1, hloop.1⟩
    · cases h
  · obtain ⟨hseq, hlen, hsent⟩ := hs
    unfold SendLoop.visit
    split
    · trivial
    · next hdr hhdr =>
      obtain ⟨hraw', hrate⟩ := buildHeader_rate hhdr
      split
      · trivial
      · refine ⟨fun _ => ⟨?_, by simp [hlen], fun i f hf => ?_⟩, fun hbrk => by cases hbrk⟩
        · simp only [hseq, uint32, Nat.mod_add_mod, Nat.add_assoc]
        · obtain ⟨-, hf⟩ | ⟨hi, rfl⟩ := getElem?_snoc hf
          · exact hsent i f hf
          · -- the frame just sent
            obtain rfl : i = j := hi.trans hlen
            exact ⟨hraw'.trans hseq, hrate⟩

end Batch

/-- Steps of `SendCodedBatch` outside `InsertFeedback`. -/
def FeedbackInput.IsBatch : FeedbackInput → Prop
  | .sendCodedBatch _ => True
  | .pushPktStatus _ _ _ => True
  | _ => False

/-- A run of the threads in which the statuses of these frames are pushed in their order. Other
steps, of this thread or another one, come at any time. -/
inductive Records : List SentFrame → FeedbackState → FeedbackState → Prop where
  | done (s : FeedbackState) : Records [] s s
  | push {f : SentFrame} {frames : List SentFrame} {s s₁ s' : FeedbackState} {rate : Nat}
      {sendTime : MonotonicTimer} (hrate : rateOfCode f.frame.hdr.rate = some rate)
      (hen : enabledFeedback s (.pushPktStatus rate f.len sendTime))
      (hexec : execFeedback s (.pushPktStatus rate f.len sendTime) = .ok s₁)
      (hrest : Records frames s₁ s') : Records (f :: frames) s s'
  | other {frames : List SentFrame} {s s₁ s' : FeedbackState} {input : FeedbackInput}
      (hother : ¬input.IsBatch) (hen : enabledFeedback s input)
      (hexec : execFeedback s input = .ok s₁) (hrest : Records frames s₁ s') :
      Records frames s s'

section Records

variable {s s' : FeedbackState} {frames : List SentFrame}

theorem Records.reachable (h : Records frames s s') (hs : feedbackMachine.Reachable s) :
    feedbackMachine.Reachable s' := by
  induction h with
  | done s => exact hs
  | push hrate hen hexec _ ih => exact ih (.step (i := .pushPktStatus _ _ _) hs hen hexec)
  | other hother hen hexec _ ih => exact ih (hs.step hen hexec)

/-- Only `SendCodedBatch` changes the counter and the log of what has been sent. -/
theorem execFeedback_other {input : FeedbackInput} (hother : ¬input.IsBatch)
    (h : execFeedback s input = .ok s') : s'.rawSeq = s.rawSeq ∧ s'.sentLog = s.sentLog := by
  cases input with
  | sendCodedBatch n => exact absurd trivial hother
  | pushPktStatus rate len sendTime => exact absurd trivial hother
  | popPktStatus ack =>
    simp only [execFeedback] at h
    split at h
    · cases h
    · cases h
      exact ⟨rfl, rfl⟩
  | clearPktStatus =>
    cases h
    exact ⟨rfl, rfl⟩
  | insertFeedback who clock =>
    simp only [execFeedback] at h
    split at h
    · cases h
      exact ⟨rfl, rfl⟩
    · split at h
      · cases h
      · cases h
        exact ⟨rfl, rfl⟩

/-- The log has the statuses of frames with consecutive numbers. -/
theorem records_sentLog (h : Records frames s s') {n : Nat} (hs : s.rawSeq = uint32 n)
    (hframes : ∀ (j : Nat) (f : SentFrame), frames[j]? = some f →
      f.frame.hdr.rawSeq = uint32 (n + j)) :
    ∃ statuses, s'.sentLog = s.sentLog ++ statuses ∧
      List.Forall₂ (fun f r => ∃ sendTime, f.status sendTime = some r) frames statuses ∧
      s'.rawSeq = uint32 (n + frames.length) := by
  induction h generalizing n with
  | done s => exact ⟨[], (List.append_nil _).symm, .nil, hs⟩
  | @push f frames s s₁ s' rate sendTime hrate hen hexec _ ih =>
    have hseq : f.frame.hdr.rawSeq = s.rawSeq := (hframes 0 f rfl).trans hs.symm
    have hstatus : f.status sendTime = some ⟨s.rawSeq, rate, f.len, .unknown, sendTime⟩ := by
      rw [SentFrame.status, hrate, hseq]
      rfl
    cases hexec
    obtain ⟨statuses, hlog, hall, hnext⟩ := ih (n := n + 1)
      (by simp only [hs, uint32, Nat.mod_add_mod])
      fun j g hg => by
        rw [hframes (j + 1) g hg, Nat.add_right_comm, Nat.add_assoc]
    refine ⟨⟨s.rawSeq, rate, f.len, .unknown, sendTime⟩ :: statuses, ?_,
      .cons ⟨sendTime, hstatus⟩ hall, ?_⟩
    · rw [hlog, List.append_assoc]
      rfl
    · rw [hnext, List.length_cons, Nat.add_right_comm, Nat.add_assoc]
  | other hother hen hexec _ ih =>
    obtain ⟨hseq, hlog⟩ := execFeedback_other hother hexec
    rw [← hlog]
    exact ih (hseq.trans hs) hframes

/-- The statuses that a batch adds to `sentLog` are those of its frames: with the raw sequence
numbers and rates of their headers and with their lengths, whatever the other threads do meanwhile.
The counter of the threads is then that of the next batch. -/
theorem sendCodedBatch_records {ids : BatchIds} {scratch : Frame} {c : CodeInfo}
    {rateArr : List Nat} {r : BatchIds × CodeInfo × List SentFrame}
    (hraw : ids.rawSeq < 4294967296) (hsend : sendCodedBatch ids scratch c rateArr = .ok r)
    (hreach : feedbackMachine.Reachable s) (hs : s.rawSeq = ids.rawSeq)
    (hrecords : Records r.2.2 s s') :
    feedbackMachine.Reachable s' ∧ s'.rawSeq = r.1.rawSeq ∧
      ∃ statuses, s'.sentLog = s.sentLog ++ statuses ∧ statuses.length = c.n ∧
        ∀ j status, statuses[j]? = some status → ∃ f, r.2.2[j]? = some f ∧
          status.seq = f.frame.hdr.rawSeq ∧ status.seq = uint32 (ids.rawSeq + j) ∧
          status.rate = rateArr.getD j 0 ∧ status.len = f.len ∧ status.status = .unknown := by
  obtain ⟨hframed, hlen, hnext⟩ := sendCodedBatch_frames hraw hsend
  obtain ⟨statuses, hlog, hall, hseq⟩ := records_sentLog hrecords
    (hs.trans (uint32_of_lt hraw).symm) fun j f hf => (hframed j f hf).1
  refine ⟨hrecords.reachable hreach, ?_, statuses, hlog, hall.length_eq.symm.trans hlen, ?_⟩
  · rw [hseq, hnext, hlen]
  · intro j status hstatus
    obtain ⟨hj, rfl⟩ := List.getElem?_eq_some_iff.mp hstatus
    have hj' : j < r.2.2.length := by rwa [hall.length_eq]
    have hf : r.2.2[j]? = some r.2.2[j] := List.getElem?_eq_getElem hj'
    obtain ⟨hrawSeq, hrate⟩ := hframed j _ hf
    obtain ⟨sendTime, hmade⟩ := hall.get hj' hj
    simp only [List.get_eq_getElem, SentFrame.status, hrate, Option.map_some,
      Option.some.injEq] at hmade
    rw [← hmade]
    exact ⟨_, hf, rfl, hrawSeq, rfl, rfl, rfl⟩

/-- An encoder with two packets of three bytes and a parity block. -/
def threeBlocks : CodeInfo where
  maxBatchSize := 2
  pktSize := 10
  codecType := .encoder
  k := 2
  n := 3
  sz := 3
  startSeq := 1
  inds _ := 0
  lens _ := 3
  curInd := 0
  originalBatch _ _ := 0
  codedBatch _ _ := 0

def blankFrame : Frame := ⟨⟨0, 0, 0, 0, 0, 0, 0, 0, 0, 0⟩, fun _ => 0⟩

/-- The threads before the first push of that batch. -/
def threeLeft : FeedbackState := { FeedbackState.init ⟨10, 0⟩ with left := 3 }

/-- A batch at three rates, the first one of a client; a timeout clears the buffer after the first
frame. -/
theorem sendCodedBatch_records_threeBlocks :
    ∃ (r : BatchIds × CodeInfo × List SentFrame) (s' : FeedbackState),
      sendCodedBatch ⟨1, 1, 1, 2⟩ blankFrame threeBlocks [10, 60, 110] = .ok r ∧
        s'.rawSeq = r.1.rawSeq ∧ s'.sentLog.map RawPktSendStatus.seq = [1, 2, 3] ∧
        s'.sentLog.map RawPktSendStatus.rate = [10, 60, 110] ∧
        s'.buf.infoDeq.map RawPktSendStatus.seq = [2, 3] := by
  obtain ⟨r, hr, -⟩ : ∃ r, sendCodedBatch ⟨1, 1, 1, 2⟩ blankFrame threeBlocks [10, 60, 110] =
      .ok r ∧ r.1 = BatchIds.after ⟨1, 1, 1, 2⟩ threeBlocks.n :=
    sendCodedBatch_ok blankFrame rfl (by decide) rfl rfl (by decide) (by decide) (by decide)
      (by decide) (by decide) (by decide)
  obtain ⟨hframed, hlen, -⟩ := sendCodedBatch_frames (by decide) hr
  obtain ⟨f₁, f₂, f₃, hf⟩ := List.length_eq_three.mp hlen
  rw [hf] at hframed
  have hreach : feedbackMachine.Reachable threeLeft :=
    .step (i := .sendCodedBatch 3) (.init ⟨_, rfl⟩) ⟨rfl, rfl⟩ rfl
  have hrecords : Records [f₁, f₂, f₃] threeLeft _ :=
    @Records.push _ _ _ _ _ _ ⟨1, 0⟩ (hframed 0 f₁ rfl).2 ⟨by decide, rfl⟩ rfl
      (@Records.other _ _ _ _ .clearPktStatus id rfl rfl
        (@Records.push _ _ _ _ _ _ ⟨1, 1⟩ (hframed 1 f₂ rfl).2 ⟨(by decide : 0 < 2), rfl⟩ rfl
          (@Records.push _ _ _ _ _ _ ⟨1, 2⟩ (hframed 2 f₃ rfl).2 ⟨(by decide : 0 < 1), rfl⟩ rfl
            (.done _))))
  rw [← hf] at hrecords
  obtain ⟨-, hnext, statuses, hlog, hcount, hall⟩ :=
    sendCodedBatch_records (by decide) hr hreach rfl hrecords
  obtain ⟨a, b, c, rfl⟩ := List.length_eq_three.mp hcount
  obtain ⟨-, -, -, ha, ha', -⟩ := hall 0 a rfl
  obtain ⟨-, -, -, hb, hb', -⟩ := hall 1 b rfl
  obtain ⟨-, -, -, hc, hc', -⟩ := hall 2 c rfl
  refine ⟨r, _, hr, hnext, ?_, ?_, rfl⟩
  · rw [hlog]
    simp [threeLeft, FeedbackState.init, ha, hb, hc, uint32]
  · rw [hlog]
    simp [threeLeft, FeedbackState.init, ha', hb', hc']

end Records

end WspaceScout
