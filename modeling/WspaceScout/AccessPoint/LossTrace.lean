import Mathlib.Data.Rat.Defs
import Mathlib.Data.List.Nodup
import Mathlib.Logic.Function.Basic
import Mathlib.Tactic.Linarith
import WspaceScout.Foundation.CountedLoop
import WspaceScout.Foundation.Machine

/-!
# Loss traces

For experiments, `SendCodedBatch` marks frames as lost with the probabilities of a trace: a file for
each client, with a line for each second and a loss for each rate on it. `UpdateLossRates` moves all
clients on to their next line once a second.

## Main definitions

- `PacketDropManager.parseLine`, `PacketDropManager.parseLossRates`
- `replayMachine` — the seconds of an experiment

## Main results

- `PacketDropManager.parseLine_iff` — which lines are accepted, and what they say
- `parseLossRates_accepts` — which files are accepted
- `replayMachine_replays` — the losses are those of the current line
-/

namespace WspaceScout

open Foundation

/-- `while (getline(input, s, sep))`: the values of `s`. A delimiter at the end starts no further
one. -/
def getlines (sep : Char) : List Char → List (List Char)
  | [] => []
  | c :: cs =>
    if c = sep then [] :: getlines sep cs
    else
      match getlines sep cs with
      | [] => [[c]]
      | s :: rest => (c :: s) :: rest

example : getlines ' ' ['a', 'b', ' ', ' ', 'c', ' '] = [['a', 'b'], [], ['c']] := by decide

/-- Where the replay of a trace stops. -/
inductive DropFault where
  /-- `ParseLossRates`: the sizes of its arguments -/
  | sizes
  /-- `ParseLine`: a loss is not between 0 and 1 -/
  | lossRange
  /-- `ParseLine`: `rate_arr_` is read beyond its end -/
  | rateIndex
  /-- `ParseLine`: losses are missing -/
  | numRates
  /-- `GetLossRate` -/
  | noRate
  /-- `UpdateLossRates` -/
  | outOfData
  deriving DecidableEq, Repr

/-- `map<int, queue<LossTable>>` is given by its keys and the queue of each key. -/
structure PacketDropManager where
  rateArr : List Int
  clients : List Int
  lossQueues : Int → List (Int → Option ℚ)

namespace PacketDropManager

/-- A loss for each rate. -/
abbrev LossTable := Int → Option ℚ

/-- The constructor. -/
def init (rates : List Int) : PacketDropManager := ⟨rates, [], fun _ => []⟩

/-! ### Lines -/

/-- The locals of the loop in `ParseLine`. -/
structure LineState where
  cnt : Nat
  i : Nat
  table : LossTable

variable (atof : List Char → ℚ) (rateArr : List Int)

/-- One pass; the first three words of a line are no losses. -/
def parseWord (p : LineState) (s : List Char) : Except DropFault LineState :=
  let cnt := p.cnt + 1
  if cnt ≤ 3 then .ok { p with cnt := cnt }
  else
    let loss := atof s
    if loss ≤ 1 ∧ 0 ≤ loss then
      match rateArr[p.i]? with
      | some rate => .ok ⟨cnt, p.i + 1, Function.update p.table rate (some loss)⟩
      | none => .error .rateIndex
    else .error .lossRange

/-- `ParseLine`. -/
def parseLine (line : List Char) : Except DropFault LossTable := do
  let p ← (getlines ' ' line).foldlM (parseWord atof rateArr) ⟨0, 0, fun _ => none⟩
  if (p.cnt : Int) - 3 = rateArr.length then .ok p.table else .error .numRates

/-- The table of losses in the order of the rates, on top of another one. -/
def addLosses (table : LossTable) (rates : List Int) (losses : List ℚ) : LossTable :=
  (rates.zip losses).foldl (fun table p => Function.update table p.1 (some p.2)) table

variable {atof rateArr}

/-- The words before the losses. -/
theorem parseWords_skip {l : List (List Char)} {p : LineState} (h : p.cnt + l.length ≤ 3) :
    l.foldlM (parseWord atof rateArr) p = .ok { p with cnt := p.cnt + l.length } := by
  induction l generalizing p with
  | nil => rfl
  | cons s l ih =>
    rw [List.length_cons] at h
    have hskip : parseWord atof rateArr p s = .ok { p with cnt := p.cnt + 1 } := by
      rw [parseWord, if_pos (by omega)]
    rw [List.foldlM_cons, hskip]
    simp only [bind, Except.bind]
    rw [ih (by simp only; omega), List.length_cons, Nat.add_right_comm, Nat.add_assoc]

/-- The losses. -/
theorem parseWords_losses {l : List (List Char)} {p p' : LineState} (hcnt : 3 ≤ p.cnt)
    (hi : p.i ≤ rateArr.length) :
    l.foldlM (parseWord atof rateArr) p = .ok p' ↔
      (∀ s ∈ l, 0 ≤ atof s ∧ atof s ≤ 1) ∧ p.i + l.length ≤ rateArr.length ∧
        p' = ⟨p.cnt + l.length, p.i + l.length,
          addLosses p.table (rateArr.drop p.i) (l.map atof)⟩ := by
  induction l generalizing p with
  | nil =>
    have hnone : addLosses p.table (rateArr.drop p.i) [] = p.table := by
      rw [addLosses, List.zip_nil_right]
      rfl
    constructor
    · intro h
      cases h
      refine ⟨fun s hs => absurd hs List.not_mem_nil, hi, ?_⟩
      rw [List.map_nil, hnone]
      rfl
    · rintro ⟨-, -, rfl⟩
      rw [List.map_nil, hnone]
      rfl
  | cons s l ih =>
    rw [List.foldlM_cons, bind_eq_ok]
    by_cases hrange : atof s ≤ 1 ∧ 0 ≤ atof s
    · by_cases hlt : p.i < rateArr.length
      · -- the word is the loss of the next rate
        have hword : parseWord atof rateArr p s = .ok ⟨p.cnt + 1, p.i + 1,
            Function.update p.table rateArr[p.i] (some (atof s))⟩ := by
          rw [parseWord, if_neg (by omega), if_pos hrange, List.getElem?_eq_getElem hlt]
        have htable : addLosses p.table (rateArr.drop p.i) ((s :: l).map atof) =
            addLosses (Function.update p.table rateArr[p.i] (some (atof s)))
              (rateArr.drop (p.i + 1)) (l.map atof) := by
          rw [List.drop_eq_getElem_cons hlt]
          rfl
        have hih := ih (p := ⟨p.cnt + 1, p.i + 1,
          Function.update p.table rateArr[p.i] (some (atof s))⟩)
          (Nat.le_succ_of_le hcnt) hlt
        simp only [hword, Except.ok.injEq, exists_eq_left', hih, List.forall_mem_cons, htable,
          List.length_cons, Nat.add_assoc, Nat.add_comm 1]
        tauto
      · have hword : parseWord atof rateArr p s = .error .rateIndex := by
          rw [parseWord, if_neg (by omega), if_pos hrange, List.getElem?_eq_none (by omega)]
        constructor
        · rintro ⟨p₁, hp₁, -⟩
          cases hword.symm.trans hp₁
        · rintro ⟨-, hle, -⟩
          rw [List.length_cons] at hle
          omega
    · have hword : parseWord atof rateArr p s = .error .lossRange := by
        rw [parseWord, if_neg (by omega), if_neg hrange]
      constructor
      · rintro ⟨p₁, hp₁, -⟩
        cases hword.symm.trans hp₁
      · rintro ⟨hall, -, -⟩
        exact absurd (hall s List.mem_cons_self).symm hrange

/-- A line is accepted if it has three words and then a loss for each rate. -/
theorem parseLine_iff {line : List Char} {table : LossTable} :
    parseLine atof rateArr line = .ok table ↔
      (getlines ' ' line).length = 3 + rateArr.length ∧
        (∀ s ∈ (getlines ' ' line).drop 3, 0 ≤ atof s ∧ atof s ≤ 1) ∧
        table = addLosses (fun _ => none) rateArr (((getlines ' ' line).drop 3).map atof) := by
  obtain ⟨words, hwords⟩ : ∃ words, getlines ' ' line = words := ⟨_, rfl⟩
  have hhead : (words.take 3).foldlM (parseWord atof rateArr) ⟨0, 0, fun _ => none⟩ =
      .ok ⟨(words.take 3).length, 0, fun _ => none⟩ := by
    rw [parseWords_skip (by simp), Nat.zero_add]
  have hloop : ∀ p, words.foldlM (parseWord atof rateArr) ⟨0, 0, fun _ => none⟩ = .ok p ↔
      (words.drop 3).foldlM (parseWord atof rateArr)
        ⟨(words.take 3).length, 0, fun _ => none⟩ = .ok p := by
    intro p
    conv_lhs => rw [← List.take_append_drop 3 words, List.foldlM_append, hhead]
    rfl
  unfold parseLine
  rw [hwords, bind_eq_ok]
  simp only [hloop]
  by_cases hlen : 3 ≤ words.length
  · have htake : (words.take 3).length = 3 := by
      rw [List.length_take]
      omega
    simp only [htake, parseWords_losses (p := ⟨3, 0, fun _ => none⟩) (Nat.le_refl 3)
      (Nat.zero_le _), List.length_drop, List.drop_zero]
    constructor
    · rintro ⟨p, ⟨hrange, hle, rfl⟩, h⟩
      split at h
      · next hnum =>
        cases h
        refine ⟨?_, hrange, rfl⟩
        simp only at hnum
        omega
      · cases h
    · rintro ⟨hnum, hrange, rfl⟩
      refine ⟨_, ⟨hrange, by omega, rfl⟩, if_pos ?_⟩
      simp only
      omega
  · -- a short line ends before the first loss
    have hdrop : words.drop 3 = [] := List.drop_eq_nil_of_le (by omega)
    rw [hdrop]
    constructor
    · rintro ⟨p, hp, h⟩
      cases hp
      split at h
      · next hnum =>
        simp only [List.length_take] at hnum
        omega
      · cases h
    · rintro ⟨hnum, -, -⟩
      omega

theorem addLosses_of_not_mem {rates : List Int} {rate : Int} (h : rate ∉ rates)
    (table : LossTable) (losses : List ℚ) : addLosses table rates losses rate = table rate := by
  induction rates generalizing table losses with
  | nil => rfl
  | cons r rates ih =>
    rw [List.mem_cons, not_or] at h
    cases losses with
    | nil => rfl
    | cons x losses =>
      have hnext := ih h.2 (Function.update table r (some x)) losses
      rw [Function.update_of_ne h.1] at hnext
      exact hnext

/-- What the table has for a rate. -/
theorem addLosses_get {rates : List Int} (hnodup : rates.Nodup) (table : LossTable)
    {losses : List ℚ} (hlen : losses.length = rates.length) {j : Nat} (hj : j < rates.length) :
    addLosses table rates losses rates[j] = losses[j]? := by
  induction rates generalizing table losses j with
  | nil => exact absurd hj (Nat.not_lt_zero j)
  | cons r rates ih =>
    obtain ⟨hnew, hnodup⟩ := List.nodup_cons.mp hnodup
    cases losses with
    | nil => cases hlen
    | cons x losses =>
      cases j with
      | zero =>
        have hfirst := addLosses_of_not_mem hnew (Function.update table r (some x)) losses
        rw [Function.update_self] at hfirst
        exact hfirst
      | succ j =>
        exact ih hnodup (Function.update table r (some x)) (Nat.succ.inj hlen)
          (Nat.lt_of_succ_lt_succ hj)

/-- The losses of an accepted line. -/
theorem parseLine_get {line : List Char} {table : LossTable} (hnodup : rateArr.Nodup)
    (h : parseLine atof rateArr line = .ok table) {j : Nat} (hj : j < rateArr.length) :
    ∃ s, (getlines ' ' line)[3 + j]? = some s ∧ table rateArr[j] = some (atof s) ∧
      0 ≤ atof s ∧ atof s ≤ 1 := by
  obtain ⟨hlen, hrange, rfl⟩ := parseLine_iff.mp h
  have hget : 3 + j < (getlines ' ' line).length := by omega
  have hdrop : ((getlines ' ' line).drop 3)[j]? = some (getlines ' ' line)[3 + j] := by
    rw [List.getElem?_drop, List.getElem?_eq_getElem hget]
  refine ⟨_, List.getElem?_eq_getElem hget, ?_, hrange _ (List.mem_of_getElem? hdrop)⟩
  rw [addLosses_get hnodup _ (by simp [hlen]) hj, List.getElem?_map, hdrop]
  rfl

/-! ### Files -/

/-- `loss_queues_[client_id]` makes an empty queue for a new key. -/
def touch (m : PacketDropManager) (clientId : Int) : PacketDropManager :=
  if clientId ∈ m.clients then m else { m with clients := m.clients ++ [clientId] }

/-- `loss_queues_[client_id].push(table)`. -/
def push (m : PacketDropManager) (clientId : Int) (table : LossTable) : PacketDropManager :=
  { m.touch clientId with
    lossQueues := Function.update m.lossQueues clientId (m.lossQueues clientId ++ [table]) }

variable (atof) in
/-- The body of the loop over the lines of a file. -/
def pushLine (clientId : Int) (m : PacketDropManager) (line : List Char) :
    Except DropFault PacketDropManager := do
  let table ← parseLine atof m.rateArr line
  .ok (m.push clientId table)

variable (atof) in
/-- The body of the loop over the files. -/
def parseFile (m : PacketDropManager) (clientId : Int) (content : List Char) :
    Except DropFault PacketDropManager := do
  let m ← (getlines '\n' content).foldlM (pushLine atof clientId) m
  -- `printf` takes the size of the queue
  .ok (m.touch clientId)

variable (atof) in
/-- `ParseLossRates` for files with these contents. -/
def parseLossRates (m : PacketDropManager) (contents : List (List Char)) (clientIds : List Int) :
    Except DropFault PacketDropManager :=
  if contents.length = clientIds.length then
    (clientIds.zip contents).foldlM (fun m p => m.parseFile atof p.1 p.2) m
  else .error .sizes

/-- The tables of a file, pushed one after the other. -/
def addFile (m : PacketDropManager) (clientId : Int) (tables : List LossTable) :
    PacketDropManager :=
  (tables.foldl (fun m table => m.push clientId table) m).touch clientId

section Files

variable {m m' : PacketDropManager} {clientId id : Int}

@[simp] theorem touch_rateArr : (m.touch clientId).rateArr = m.rateArr := by
  unfold touch
  split <;> rfl

@[simp] theorem touch_lossQueues : (m.touch clientId).lossQueues = m.lossQueues := by
  unfold touch
  split <;> rfl

@[simp] theorem mem_touch_clients :
    id ∈ (m.touch clientId).clients ↔ id ∈ m.clients ∨ id = clientId := by
  unfold touch
  split
  · next hmem =>
    constructor
    · exact .inl
    · rintro (hid | rfl)
      · exact hid
      · exact hmem
  · rw [List.mem_append, List.mem_singleton]

theorem addFile_rateArr (tables : List LossTable) :
    (m.addFile clientId tables).rateArr = m.rateArr := by
  induction tables generalizing m with
  | nil => exact touch_rateArr
  | cons table tables ih => exact (ih (m := m.push clientId table)).trans touch_rateArr

theorem addFile_lossQueues (tables : List LossTable) : (m.addFile clientId tables).lossQueues =
    Function.update m.lossQueues clientId (m.lossQueues clientId ++ tables) := by
  induction tables generalizing m with
  | nil => rw [List.append_nil, Function.update_eq_self]; exact touch_lossQueues
  | cons table tables ih =>
    refine (ih (m := m.push clientId table)).trans ?_
    simp only [push, Function.update_self, Function.update_idem, List.append_assoc,
      List.singleton_append]

theorem mem_addFile_clients (tables : List LossTable) :
    id ∈ (m.addFile clientId tables).clients ↔ id ∈ m.clients ∨ id = clientId := by
  induction tables generalizing m with
  | nil => exact mem_touch_clients
  | cons table tables ih =>
    refine (ih (m := m.push clientId table)).trans ?_
    rw [show (m.push clientId table).clients = (m.touch clientId).clients from rfl,
      mem_touch_clients, or_assoc, or_self]

/-- A file is accepted if all its lines are. -/
theorem parseFile_iff {content : List Char} : m.parseFile atof clientId content = .ok m' ↔
    ∃ tables, List.Forall₂ (fun line table => parseLine atof m.rateArr line = .ok table)
      (getlines '\n' content) tables ∧ m' = m.addFile clientId tables := by
  obtain ⟨lines, hlines⟩ : ∃ lines, getlines '\n' content = lines := ⟨_, rfl⟩
  unfold parseFile
  rw [hlines]
  clear hlines
  induction lines generalizing m with
  | nil =>
    constructor
    · intro h
      cases h
      exact ⟨[], .nil, rfl⟩
    · rintro ⟨tables, hall, rfl⟩
      cases hall
      rfl
  | cons line lines ih =>
    rw [List.foldlM_cons, bind_assoc, bind_eq_ok]
    constructor
    · rintro ⟨m₁, hline, hrest⟩
      obtain ⟨table, htable, hpush⟩ := bind_eq_ok.mp hline
      cases hpush
      obtain ⟨tables, hall, rfl⟩ := ih.mp hrest
      have hrates : (m.push clientId table).rateArr = m.rateArr := touch_rateArr
      rw [hrates] at hall
      exact ⟨table :: tables, .cons htable hall, rfl⟩
    · rintro ⟨tables, hall, rfl⟩
      cases hall with
      | @cons _ table _ tables htable hall =>
        have hrates : (m.push clientId table).rateArr = m.rateArr := touch_rateArr
        rw [← hrates] at hall
        exact ⟨_, bind_eq_ok.mpr ⟨table, htable, rfl⟩, ih.mpr ⟨tables, hall, rfl⟩⟩

end Files

/-! ### Replay -/

/-- `PopLossRates`. -/
def popLossRates (m : PacketDropManager) : Bool × PacketDropManager :=
  (decide (∀ id ∈ m.clients, m.lossQueues id ≠ []),
    { m with lossQueues := fun id => (m.lossQueues id).tail })

/-- `GetLossRate`: none if there is no line for the client. -/
def getLossRate (m : PacketDropManager) (clientId rate : Int) : Except DropFault (Option ℚ) :=
  match m.lossQueues clientId with
  | [] => .ok none
  | table :: _ =>
    if clientId ∈ m.clients then
      match table rate with
      | some loss => .ok (some loss)
      | none => .error .noRate
    else .ok none

/-- `IsDrop`, with the result of `rand()`. -/
def isDrop (m : PacketDropManager) (clientId rate : Int) (rand : Nat) : Except DropFault Bool := do
  match ← m.getLossRate clientId rate with
  | some lossRate => .ok (decide (((rand % 100 : Nat) : ℚ) / 100 < lossRate))
  | none => .ok false

/-- One pass of `UpdateLossRates`. -/
def updateLossRates (m : PacketDropManager) : Except DropFault PacketDropManager :=
  let (successful, m) := m.popLossRates
  if successful then .ok m else .error .outOfData

end PacketDropManager

open PacketDropManager

/-- The replay; `seconds` counts the lines that are over. -/
structure ReplayState where
  manager : PacketDropManager
  seconds : Nat

/-- `UpdateLossRates` after `ParseLossRates`. -/
def replayMachine (atof : List Char → ℚ) (rates : List Int) (contents : List (List Char))
    (clientIds : List Int) : Machine ReplayState Unit DropFault where
  init s := (PacketDropManager.init rates).parseLossRates atof contents clientIds =
    .ok s.manager ∧ s.seconds = 0
  enabled _ _ := True
  exec s _ := do
    let m ← s.manager.updateLossRates
    .ok ⟨m, s.seconds + 1⟩

/-- The loss on a line of a trace for the rate number `j`. -/
def lossOnLine (atof : List Char → ℚ) (content : List Char) (n j : Nat) : Option ℚ := do
  let line ← (getlines '\n' content)[n]?
  let s ← (getlines ' ' line)[3 + j]?
  some (atof s)

/-- The queue of a client has the tables of its file from line `n` on. -/
def PacketDropManager.Holds (atof : List Char → ℚ) (m : PacketDropManager) (n : Nat)
    (p : Int × List Char) : Prop :=
  ∃ tables, List.Forall₂ (fun line table => parseLine atof m.rateArr line = .ok table)
      (getlines '\n' p.2) tables ∧
    m.lossQueues p.1 = tables.drop n ∧ n ≤ tables.length

section Replay

variable {atof : List Char → ℚ} {rates clientIds : List Int} {contents : List (List Char)}
  {m m' : PacketDropManager} {s : ReplayState}

/-- The loop over the files of different clients. -/
theorem parseFiles_holds {l : List (Int × List Char)}
    (h : l.foldlM (fun m p => m.parseFile atof p.1 p.2) m = .ok m')
    (hnodup : (l.map Prod.fst).Nodup) (hempty : ∀ p ∈ l, m.lossQueues p.1 = []) :
    m'.rateArr = m.rateArr ∧
      (∀ id, id ∈ m'.clients ↔ id ∈ m.clients ∨ id ∈ l.map Prod.fst) ∧
      (∀ id, id ∉ l.map Prod.fst → m'.lossQueues id = m.lossQueues id) ∧
      ∀ p ∈ l, m'.Holds atof 0 p := by
  induction l generalizing m with
  | nil =>
    cases h
    exact ⟨rfl, by simp, fun _ _ => rfl, fun p hp => absurd hp List.not_mem_nil⟩
  | cons p l ih =>
    obtain ⟨m₁, hfile, hrest⟩ := bind_eq_ok.mp h
    obtain ⟨tables, hall, rfl⟩ := parseFile_iff.mp hfile
    rw [List.map_cons, List.nodup_cons] at hnodup
    obtain ⟨hnew, hnodup⟩ := hnodup
    -- the file does not touch the queues of the files that follow
    have hother : ∀ id, id ≠ p.1 → (m.addFile p.1 tables).lossQueues id = m.lossQueues id := by
      intro id hid
      rw [addFile_lossQueues, Function.update_of_ne hid]
    obtain ⟨hrates, hclients, hqueues, hholds⟩ := ih hrest hnodup fun q hq => by
      have hne : q.1 ≠ p.1 := fun heq => hnew (heq ▸ List.mem_map_of_mem hq)
      rw [hother q.1 hne]
      exact hempty q (List.mem_cons_of_mem p hq)
    have hself : m'.lossQueues p.1 = tables := by
      rw [hqueues p.1 hnew, addFile_lossQueues, Function.update_self,
        hempty p List.mem_cons_self, List.nil_append]
    refine ⟨hrates.trans (addFile_rateArr tables), fun id => ?_, fun id hid => ?_, ?_⟩
    · rw [hclients, mem_addFile_clients, List.map_cons, List.mem_cons, or_assoc]
    · rw [List.map_cons, List.mem_cons, not_or] at hid
      rw [hqueues id hid.2, hother id hid.1]
    · intro q hq
      obtain rfl | hq := List.mem_cons.mp hq
      · refine ⟨tables, ?_, hself, Nat.zero_le _⟩
        rw [hrates, addFile_rateArr]
        exact hall
      · exact hholds q hq

/-- What the queues have while a trace is replayed. -/
structure ReplayInv (atof : List Char → ℚ) (rates : List Int) (contents : List (List Char))
    (clientIds : List Int) (s : ReplayState) : Prop where
  rateArr : s.manager.rateArr = rates
  sizes : contents.length = clientIds.length
  clients : ∀ id, id ∈ s.manager.clients ↔ id ∈ clientIds
  holds : ∀ p ∈ clientIds.zip contents, s.manager.Holds atof s.seconds p

theorem replayInv_init (hids : clientIds.Nodup)
    (h : (PacketDropManager.init rates).parseLossRates atof contents clientIds = .ok m) :
    ReplayInv atof rates contents clientIds ⟨m, 0⟩ := by
  unfold parseLossRates at h
  split at h
  · next hsizes =>
    have hfst : (clientIds.zip contents).map Prod.fst = clientIds :=
      List.map_fst_zip hsizes.ge
    obtain ⟨hrates, hclients, -, hholds⟩ :=
      parseFiles_holds h (by rwa [hfst]) fun _ _ => rfl
    refine ⟨hrates, hsizes, fun id => ?_, hholds⟩
    rw [hclients, hfst]
    simp [PacketDropManager.init]
  · cases h

/-- There is a line for a client as long as its file has one. -/
theorem PacketDropManager.Holds.nonempty_iff {n : Nat} {p : Int × List Char}
    (h : m.Holds atof n p) : m.lossQueues p.1 ≠ [] ↔ n < (getlines '\n' p.2).length := by
  obtain ⟨tables, hall, hqueue, -⟩ := h
  rw [hqueue, hall.length_eq, ne_eq, List.drop_eq_nil_iff, not_le]

theorem ReplayInv.updateLossRates_iff (hs : ReplayInv atof rates contents clientIds s) :
    (∃ m, s.manager.updateLossRates = .ok m) ↔
      ∀ content ∈ contents, s.seconds < (getlines '\n' content).length := by
  have hall : (∀ id ∈ s.manager.clients, s.manager.lossQueues id ≠ []) ↔
      ∀ content ∈ contents, s.seconds < (getlines '\n' content).length := by
    constructor
    · intro h content hcontent
      rw [← List.map_snd_zip hs.sizes.le] at hcontent
      obtain ⟨p, hp, rfl⟩ := List.mem_map.mp hcontent
      exact (hs.holds p hp).nonempty_iff.mp
        (h p.1 ((hs.clients p.1).mpr (List.of_mem_zip hp).1))
    · intro h id hid
      have hmem := (hs.clients id).mp hid
      rw [← List.map_fst_zip hs.sizes.ge] at hmem
      obtain ⟨p, hp, rfl⟩ := List.mem_map.mp hmem
      exact (hs.holds p hp).nonempty_iff.mpr (h p.2 (List.of_mem_zip hp).2)
  rw [← hall]
  unfold updateLossRates popLossRates
  simp only [decide_eq_true_eq]
  split
  · next hok => exact ⟨fun _ => hok, fun _ => ⟨_, rfl⟩⟩
  · next hno =>
    constructor
    · rintro ⟨m, hm⟩
      cases hm
    · intro hok
      exact absurd hok hno

/-- The step lemma. -/
theorem ReplayInv.step (hs : ReplayInv atof rates contents clientIds s)
    (h : s.manager.updateLossRates = .ok m) :
    ReplayInv atof rates contents clientIds ⟨m, s.seconds + 1⟩ := by
  have hlines := hs.updateLossRates_iff.mp ⟨m, h⟩
  have hm : m = s.manager.popLossRates.2 := by
    unfold updateLossRates at h
    simp only at h
    split at h <;> cases h
    rfl
  subst hm
  refine ⟨hs.rateArr, hs.sizes, hs.clients, fun p hp => ?_⟩
  obtain ⟨tables, hall, hqueue, -⟩ := hs.holds p hp
  have hlt := hlines p.2 (List.of_mem_zip hp).2
  refine ⟨tables, hall, ?_, hall.length_eq ▸ hlt⟩
  show (s.manager.lossQueues p.1).tail = _
  rw [hqueue, List.tail_drop]

/-- The run lemma. -/
theorem replayInv_of_reachable (hids : clientIds.Nodup)
    (h : (replayMachine atof rates contents clientIds).Reachable s) :
    ReplayInv atof rates contents clientIds s := by
  refine h.invariant ?_ ?_
  · rintro ⟨m, seconds⟩ ⟨hparse, rfl⟩
    exact replayInv_init hids hparse
  · intro s input s' _ hs _ hexec
    obtain ⟨m, hupdate, hs'⟩ := bind_eq_ok.mp hexec
    cases hs'
    exact hs.step hupdate

/-- The loss of a rate is that of the current line. -/
theorem ReplayInv.getLossRate_eq (hs : ReplayInv atof rates contents clientIds s)
    (hrates : rates.Nodup) {p : Int × List Char} (hp : p ∈ clientIds.zip contents) {j : Nat}
    (hj : j < rates.length) :
    s.manager.getLossRate p.1 rates[j] = .ok (lossOnLine atof p.2 s.seconds j) ∧
      ∀ loss ∈ lossOnLine atof p.2 s.seconds j, 0 ≤ loss ∧ loss ≤ 1 := by
  obtain ⟨tables, hall, hqueue, hle⟩ := hs.holds p hp
  have hclient := (hs.clients p.1).mpr (List.of_mem_zip hp).1
  rw [hs.rateArr] at hall
  by_cases hlt : s.seconds < tables.length
  · have hline : s.seconds < (getlines '\n' p.2).length := hall.length_eq.symm ▸ hlt
    obtain ⟨word, hword, htable, hrange⟩ :=
      parseLine_get hrates (hall.get hline hlt) hj
    have hloss : lossOnLine atof p.2 s.seconds j = some (atof word) := by
      unfold lossOnLine
      rw [List.getElem?_eq_getElem hline]
      simp only [Option.bind_eq_bind, Option.bind_some]
      rw [show (getlines '\n' p.2)[s.seconds] = (getlines '\n' p.2).get ⟨s.seconds, hline⟩
        from rfl, hword]
      rfl
    rw [List.drop_eq_getElem_cons hlt] at hqueue
    refine ⟨?_, fun loss hmem => ?_⟩
    · unfold PacketDropManager.getLossRate
      rw [hqueue, hloss]
      simp only [if_pos hclient]
      rw [show tables[s.seconds] = tables.get ⟨s.seconds, hlt⟩ from rfl, htable]
    · rw [hloss] at hmem
      cases hmem
      exact hrange
  · have hend : (getlines '\n' p.2)[s.seconds]? = none :=
      List.getElem?_eq_none (by rw [hall.length_eq]; omega)
    have hloss : lossOnLine atof p.2 s.seconds j = none := by
      unfold lossOnLine
      rw [hend]
      rfl
    rw [List.drop_eq_nil_of_le (by omega)] at hqueue
    refine ⟨?_, fun loss hmem => ?_⟩
    · unfold PacketDropManager.getLossRate
      rw [hqueue, hloss]
    · rw [hloss] at hmem
      cases hmem

/-- A line of a trace that `ParseLine` accepts. -/
def LineOk (atof : List Char → ℚ) (rates : List Int) (line : List Char) : Prop :=
  (getlines ' ' line).length = 3 + rates.length ∧
    ∀ s ∈ (getlines ' ' line).drop 3, 0 ≤ atof s ∧ atof s ≤ 1

instance (atof : List Char → ℚ) (rates : List Int) (line : List Char) :
    Decidable (LineOk atof rates line) :=
  inferInstanceAs (Decidable (_ ∧ _))

theorem parseLine_ok_iff {line : List Char} :
    (∃ table, parseLine atof rates line = .ok table) ↔ LineOk atof rates line := by
  constructor
  · rintro ⟨table, htable⟩
    obtain ⟨hlen, hrange, -⟩ := parseLine_iff.mp htable
    exact ⟨hlen, hrange⟩
  · rintro ⟨hlen, hrange⟩
    exact ⟨_, parseLine_iff.mpr ⟨hlen, hrange, rfl⟩⟩

theorem parseLines_ok_iff {lines : List (List Char)} :
    (∃ tables, List.Forall₂ (fun line table => parseLine atof rates line = .ok table)
      lines tables) ↔ ∀ line ∈ lines, LineOk atof rates line := by
  induction lines with
  | nil => exact ⟨fun _ line hline => absurd hline List.not_mem_nil, fun _ => ⟨[], .nil⟩⟩
  | cons line lines ih =>
    rw [List.forall_mem_cons, ← ih, ← parseLine_ok_iff]
    constructor
    · rintro ⟨tables, hall⟩
      cases hall with
      | cons htable hall => exact ⟨⟨_, htable⟩, _, hall⟩
    · rintro ⟨⟨table, htable⟩, tables, hall⟩
      exact ⟨table :: tables, .cons htable hall⟩

theorem parseFiles_ok_iff {l : List (Int × List Char)} :
    (∃ m', l.foldlM (fun m p => m.parseFile atof p.1 p.2) m = .ok m') ↔
      ∀ p ∈ l, ∀ line ∈ getlines '\n' p.2, LineOk atof m.rateArr line := by
  induction l generalizing m with
  | nil => exact ⟨fun _ p hp => absurd hp List.not_mem_nil, fun _ => ⟨m, rfl⟩⟩
  | cons p l ih =>
    rw [List.forall_mem_cons, List.foldlM_cons, ← parseLines_ok_iff]
    constructor
    · rintro ⟨m', h⟩
      obtain ⟨m₁, hfile, hrest⟩ := bind_eq_ok.mp h
      obtain ⟨tables, hall, rfl⟩ := parseFile_iff.mp hfile
      have hl := ih.mp ⟨m', hrest⟩
      rw [addFile_rateArr] at hl
      exact ⟨⟨tables, hall⟩, hl⟩
    · rintro ⟨⟨tables, hall⟩, hl⟩
      rw [← addFile_rateArr (m := m) tables] at hl
      obtain ⟨m', hrest⟩ := ih.mpr hl
      exact ⟨m', bind_eq_ok.mpr ⟨_, parseFile_iff.mpr ⟨tables, hall, rfl⟩, hrest⟩⟩

/-- The files are accepted if there is one for each client and every line has three words and then
a loss for each rate. -/
theorem parseLossRates_accepts (atof : List Char → ℚ) (rates clientIds : List Int)
    (contents : List (List Char)) :
    (∃ m, (PacketDropManager.init rates).parseLossRates atof contents clientIds = .ok m) ↔
      contents.length = clientIds.length ∧
        ∀ content ∈ contents, ∀ line ∈ getlines '\n' content, LineOk atof rates line := by
  unfold parseLossRates
  split
  · next hsizes =>
    rw [parseFiles_ok_iff]
    have hsnd : (clientIds.zip contents).map Prod.snd = contents := List.map_snd_zip hsizes.le
    conv_rhs => rw [← hsnd]
    rw [List.forall_mem_map, hsnd]
    exact ⟨fun h => ⟨hsizes, h⟩, fun h => h.2⟩
  · next hsizes =>
    constructor
    · rintro ⟨m, hm⟩
      cases hm
    · rintro ⟨hsame, -⟩
      exact absurd hsame hsizes

/-- Each client is served from its own file: in second `n` of the replay the frames to a client are
dropped with the loss that line `n` of its file has for their rate, as long as there is such a line,
and never after that. The replay goes on exactly as long as every file has a line. -/
theorem replayMachine_replays (hrates : rates.Nodup) (hids : clientIds.Nodup)
    (h : (replayMachine atof rates contents clientIds).Reachable s) :
    (∀ p ∈ clientIds.zip contents, ∀ (j : Nat) (hj : j < rates.length),
      (∀ loss ∈ lossOnLine atof p.2 s.seconds j, 0 ≤ loss ∧ loss ≤ 1) ∧
        ∀ rand, s.manager.isDrop p.1 rates[j] rand =
          .ok ((lossOnLine atof p.2 s.seconds j).elim false fun loss =>
            decide (((rand % 100 : Nat) : ℚ) / 100 < loss))) ∧
      ((∃ m, s.manager.updateLossRates = .ok m) ↔
        ∀ content ∈ contents, s.seconds < (getlines '\n' content).length) := by
  have hs := replayInv_of_reachable hids h
  refine ⟨fun p hp j hj => ?_, hs.updateLossRates_iff⟩
  obtain ⟨hget, hrange⟩ := hs.getLossRate_eq hrates hp hj
  refine ⟨hrange, fun rand => ?_⟩
  unfold PacketDropManager.isDrop
  rw [hget]
  cases lossOnLine atof p.2 s.seconds j with
  | none => rfl
  | some loss => rfl

/-- Two seconds of one rate: everything is lost, then nothing. -/
def lossyFirst : List Char :=
  ['t', ' ', 'x', ' ', 'y', ' ', '1', '\n', 't', ' ', 'x', ' ', 'y', ' ', '0', '\n']

/-- Two seconds of one rate: nothing is lost, then everything. -/
def lossyLast : List Char :=
  ['t', ' ', 'x', ' ', 'y', ' ', '0', '\n', 't', ' ', 'x', ' ', 'y', ' ', '1', '\n']

/-- What `atof` returns for the losses. -/
def bitValue (s : List Char) : ℚ := if s = ['1'] then 1 else 0

theorem twoFiles_parsed : ∃ m, (PacketDropManager.init [10]).parseLossRates bitValue
    [lossyFirst, lossyLast] [2, 3] = .ok m := by
  have hlines : ∀ p ∈ [((2 : Int), lossyFirst), (3, lossyLast)], ∀ line ∈ getlines '\n' p.2,
      LineOk bitValue (PacketDropManager.init [10]).rateArr line := by decide
  obtain ⟨m, hm⟩ := parseFiles_ok_iff.mpr hlines
  exact ⟨m, hm⟩

/-- After one second no frame to the first client is dropped, and every frame to the other one
is. -/
theorem replayMachine_replays_twoClients :
    ∃ m m', (PacketDropManager.init [10]).parseLossRates bitValue [lossyFirst, lossyLast] [2, 3] =
        .ok m ∧
      m.updateLossRates = .ok m' ∧
        ∀ rand, m'.isDrop 2 10 rand = .ok false ∧ m'.isDrop 3 10 rand = .ok true := by
  obtain ⟨m, hm⟩ := twoFiles_parsed
  have hinit : (replayMachine bitValue [10] [lossyFirst, lossyLast] [2, 3]).Reachable ⟨m, 0⟩ :=
    .init ⟨hm, rfl⟩
  obtain ⟨m', hm'⟩ := (replayMachine_replays (by decide) (by decide) hinit).2.mpr
    (show ∀ content ∈ [lossyFirst, lossyLast], 0 < (getlines '\n' content).length by decide)
  have hreach := hinit.step (i := ()) trivial (bind_eq_ok.mpr ⟨m', hm', rfl⟩)
  obtain ⟨hdrop, -⟩ := replayMachine_replays (by decide) (by decide) hreach
  refine ⟨m, m', hm, hm', fun rand => ⟨?_, ?_⟩⟩
  · obtain ⟨-, hresult⟩ := hdrop (2, lossyFirst) (by decide) 0 (by decide)
    have hloss : lossOnLine bitValue lossyFirst 1 0 = some 0 := rfl
    have hrand : ¬((rand % 100 : Nat) : ℚ) / 100 < 0 :=
      not_lt.mpr (div_nonneg (Nat.cast_nonneg _) (by norm_num))
    simpa [hloss, hrand] using hresult rand
  · obtain ⟨-, hresult⟩ := hdrop (3, lossyLast) (by decide) 0 (by decide)
    have hloss : lossOnLine bitValue lossyLast 1 0 = some 1 := rfl
    have hrand : ((rand % 100 : Nat) : ℚ) / 100 < 1 := by
      have hlt : ((rand % 100 : Nat) : ℚ) < 100 := by
        exact_mod_cast Nat.mod_lt rand (by decide)
      linarith
    simpa [hloss, hrand] using hresult rand

end Replay

end WspaceScout
