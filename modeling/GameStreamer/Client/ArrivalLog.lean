import GameStreamer.Client.Arrivals
import GameStreamer.Core.EventRun
import GameStreamer.Core.SerialOrder

/-!
# What the receive task asks for and acknowledges

The requests and the feedback batches of a whole run, beside the arrivals that
caused them.  As long as all seqs are within half of the number space, the
highest seq of the receiver is ahead of everything that arrived or was
requested, so every request is new.
-/

namespace GameStreamer.ArrivalLog

open EventRun SerialNumber Receiver

/-- A seq that was requested, at a time in a budget window. -/
structure Request where
  seq : UInt32
  time : ℕ
  window : ℕ
  deriving DecidableEq, Repr

/-- The receive task with all that came in and went out: the arrivals with
their times, the requests with their windows, and the batches that were
sent. -/
structure Log where
  receiver : Receiver
  arrivals : List (UInt32 × ℕ)
  requests : List Request
  sent : List PacketFeedback

def start : Log := ⟨.new, [], [], []⟩

/-- The seqs that arrived. -/
def Log.seen (log : Log) : List UInt32 := log.arrivals.map Prod.fst

/-- The requests of one budget window. -/
def Log.spent (log : Log) (window : ℕ) : ℕ :=
  (log.requests.filter fun request => request.window = window).length

/-- What is requested at an arrival. -/
def requested (log : Log) (arrival : UInt32 × ℕ) : List UInt32 :=
  (log.receiver.recordArrival arrival.1 arrival.2 true).2.1

/-- One arrival, with a control writer. -/
def step (log : Log) (arrival : UInt32 × ℕ) : Log :=
  let (receiver, nack, batch) :=
    log.receiver.recordArrival arrival.1 arrival.2 true
  { receiver
    arrivals := log.arrivals ++ [arrival]
    requests := log.requests ++
      nack.map fun seq => ⟨seq, arrival.2, receiver.nackWindow.1⟩
    sent := log.sent ++ batch.toList }

/-- The arrivals of a batch, as the agent computes them. -/
def decodeBatch (batch : PacketFeedback) : List (UInt32 × ℕ) :=
  batch.samples.map fun sample =>
    (sample.1, batch.baseArrivalUs + sample.2.toNat)

/-- What the sent batches say, followed by the pending batch. -/
def Log.acknowledged (log : Log) : List (UInt32 × ℕ) :=
  log.sent.flatMap decodeBatch ++ log.receiver.feedbackBatch

/-- The budget window that a gap at this time is charged to. -/
def windowAt (receiver : Receiver) (now : ℕ) : ℕ × ℕ :=
  if 1000000 ≤ now - receiver.nackWindow.1 then (now, 0)
  else receiver.nackWindow

/-- The arrival joins samples that are less than `2 ^ 32` older. -/
def NearBatch (log : Log) (arrival : UInt32 × ℕ) : Prop :=
  ∀ sample ∈ log.receiver.feedbackBatch, arrival.2 - sample.2 < 2 ^ 32

instance (log : Log) (arrival : UInt32 × ℕ) :
    Decidable (NearBatch log arrival) :=
  inferInstanceAs (Decidable (∀ sample ∈ log.receiver.feedbackBatch, _))

/-- The requests after an arrival, in a half space.  A seq is requested at most
once, only when it is missing, and within the budget of its window; and a small
gap is requested whole. -/
structure Disciplined (base : UInt32) (log : Log) (arrival : UInt32 × ℕ) :
    Prop where
  /-- No seq is requested twice. -/
  once : ((step log arrival).requests.map Request.seq).Nodup
  /-- Only seqs that never arrived, below one that did. -/
  lost : ∀ seq ∈ requested log arrival,
    seq ∉ (step log arrival).seen ∧
      ∃ seen ∈ (step log arrival).seen, place base seq < place base seen
  /-- No budget window exceeds its budget. -/
  budget : ∀ window, (step log arrival).spent window ≤ nackBudgetPerSec
  /-- A budget window lasts one second. -/
  within : ∀ request ∈ (step log arrival).requests,
    request.window ≤ request.time ∧ request.time < request.window + 1000000
  /-- A gap that fits the rest of the budget is requested whole. -/
  complete : ∀ high ∈ log.seen,
    (∀ seen ∈ log.seen, place base seen ≤ place base high) →
    place base arrival.1 - place base high - 1 ≤ 63 →
    log.spent (windowAt log.receiver arrival.2).1 +
        (place base arrival.1 - place base high - 1) ≤ nackBudgetPerSec →
    ∀ seq, place base high < place base seq →
      place base seq < place base arrival.1 → seq ∈ requested log arrival

/-- In the half space, and not before an earlier arrival. -/
def Orderly (base : UInt32) (log : Log) (arrival : UInt32 × ℕ) : Prop :=
  InHalf base arrival.1 ∧ ∀ earlier ∈ log.arrivals, earlier.2 ≤ arrival.2

/-! ## One arrival in the code's terms -/

/-- The seqs strictly between two seqs so far apart. -/
def between (high ahead : UInt32) : List UInt32 :=
  (List.range' 1 (ahead.toNat - 1)).map fun i => high + UInt32.ofNat i

/-- The arrival is ahead by a gap that is looked at. -/
def IsGap (high seq : UInt32) : Prop := 1 < seq - high ∧ seq - high ≤ 64

theorem detectGap_withBatch (receiver : Receiver)
    (batch : List (UInt32 × ℕ)) (seq : UInt32) (now : ℕ) :
    detectGap { receiver with feedbackBatch := batch } seq now =
      ({ (receiver.detectGap seq now).1 with feedbackBatch := batch },
        (receiver.detectGap seq now).2) := by
  rw [detectGap, detectGap]
  dsimp only
  cases receiver.highestSeq with
  | none => rfl
  | some high =>
      dsimp only
      split_ifs <;> rfl

theorem detectGap_of_none {receiver : Receiver}
    (h : receiver.highestSeq = none) (seq : UInt32) (now : ℕ) :
    receiver.detectGap seq now =
      ({ receiver with highestSeq := some seq }, []) := by
  rw [detectGap, h]

theorem detectGap_of_not_gap {receiver : Receiver} {high seq : UInt32}
    (h : receiver.highestSeq = some high) (hgap : ¬IsGap high seq) (now : ℕ) :
    receiver.detectGap seq now =
      ({ receiver with
          highestSeq := if 1 ≤ seq - high ∧ seq - high < halfRange
            then some seq else some high }, []) := by
  rw [detectGap, h]
  dsimp only
  rw [if_neg (show ¬(1 < seq - high ∧ seq - high ≤ 64) from hgap)]

theorem detectGap_of_gap {receiver : Receiver} {high seq : UInt32}
    (h : receiver.highestSeq = some high) (hgap : IsGap high seq) (now : ℕ) :
    receiver.detectGap seq now =
      ({ receiver with
          highestSeq := some seq
          nacked := (receiver.missing high (seq - high)
            (nackBudgetPerSec - (windowAt receiver now).2)).foldl remember
              receiver.nacked
          nackWindow := ((windowAt receiver now).1,
            (windowAt receiver now).2 + (receiver.missing high (seq - high)
              (nackBudgetPerSec - (windowAt receiver now).2)).length) },
        receiver.missing high (seq - high)
          (nackBudgetPerSec - (windowAt receiver now).2)) := by
  have hadvance : 1 ≤ seq - high ∧ seq - high < halfRange :=
    ⟨UInt32.le_of_lt hgap.1, UInt32.lt_of_le_of_lt hgap.2 (by decide)⟩
  rw [detectGap, h]
  dsimp only
  rw [if_pos (show 1 < seq - high ∧ seq - high ≤ 64 from hgap)]
  dsimp only
  rw [if_pos hadvance]
  rfl

theorem requested_eq (log : Log) (arrival : UInt32 × ℕ) :
    requested log arrival =
      (log.receiver.detectGap arrival.1 arrival.2).2 := by
  simp only [requested, recordArrival, detectGap_withBatch, if_true]
  split_ifs <;> rfl

/-- What the batch does not concern. -/
theorem receiver_step (log : Log) (arrival : UInt32 × ℕ) :
    (step log arrival).receiver.highestSeq =
        (log.receiver.detectGap arrival.1 arrival.2).1.highestSeq ∧
      (step log arrival).receiver.nacked =
        (log.receiver.detectGap arrival.1 arrival.2).1.nacked ∧
      (step log arrival).receiver.nackWindow =
        (log.receiver.detectGap arrival.1 arrival.2).1.nackWindow := by
  simp only [step, recordArrival, detectGap_withBatch]
  split_ifs <;> exact ⟨rfl, rfl, rfl⟩

theorem requests_step (log : Log) (arrival : UInt32 × ℕ) :
    (step log arrival).requests = log.requests ++
      (requested log arrival).map fun seq =>
        ⟨seq, arrival.2, (step log arrival).receiver.nackWindow.1⟩ := rfl

theorem seqs_step (log : Log) (arrival : UInt32 × ℕ) :
    (step log arrival).requests.map Request.seq =
      log.requests.map Request.seq ++ requested log arrival := by
  rw [requests_step, List.map_append, List.map_map]
  exact congrArg _ (List.map_id _)

@[simp]
theorem seen_step (log : Log) (arrival : UInt32 × ℕ) :
    (step log arrival).seen = log.seen ++ [arrival.1] :=
  List.map_append

/-! ## Places -/

section Places

variable {base high seq : UInt32}

theorem isGap_iff (hhigh : InHalf base high) (hseq : InHalf base seq) :
    IsGap high seq ↔ place base high + 1 < place base seq ∧
      place base seq ≤ place base high + 64 := by
  have hone : (1 : UInt32).toNat = 1 := rfl
  have hmost : (64 : UInt32).toNat = 64 := rfl
  rw [IsGap, UInt32.lt_iff_toNat_lt, UInt32.le_iff_toNat_le, hone, hmost]
  obtain ⟨hle, hdistance⟩ | ⟨hlt, hfar⟩ := toNat_sub_of_inHalf hhigh hseq
  · rw [hdistance]
    omega
  · omega

/-- The highest seq moves on unless the arrival is late or as far ahead as a
half space reaches. -/
theorem advances_iff (hhigh : InHalf base high) (hseq : InHalf base seq) :
    1 ≤ seq - high ∧ seq - high < halfRange ↔
      place base high < place base seq ∧
        place base seq < place base high + (2 ^ 31 - 1) := by
  have hone : (1 : UInt32).toNat = 1 := rfl
  have hmost : halfRange.toNat = 2 ^ 31 - 1 := rfl
  rw [UInt32.le_iff_toNat_le, UInt32.lt_iff_toNat_lt, hone, hmost]
  obtain ⟨hle, hdistance⟩ | ⟨hlt, hfar⟩ := toNat_sub_of_inHalf hhigh hseq
  · rw [hdistance]
    omega
  · omega

variable (hhigh : InHalf base high) (hseq : InHalf base seq)
  (hgap : IsGap high seq)

include hhigh hseq hgap

theorem map_place_between :
    (between high (seq - high)).map (place base) =
      List.range' (place base high + 1)
        (place base seq - place base high - 1) := by
  obtain ⟨hlt, hle⟩ := (isGap_iff hhigh hseq).mp hgap
  have hbehind : place base high ≤ place base seq := by omega
  rw [InHalf] at hhigh
  calc (between high (seq - high)).map (place base)
      = (List.range' 1 (place base seq - place base high - 1)).map
          fun i => place base (high + wire i) := by
        rw [between, List.map_map, toNat_sub_of_place_le hbehind]
        rfl
    _ = (List.range' 1 (place base seq - place base high - 1)).map
          (place base high + ·) := by
        apply List.map_congr_left
        intro i hi
        have hbound := List.mem_range'_1.mp hi
        exact place_add_wire (by omega)
    _ = List.range' (place base high + 1)
          (place base seq - place base high - 1) := List.map_add_range' _ _ _

theorem mem_between_iff {other : UInt32} :
    other ∈ between high (seq - high) ↔
      place base high < place base other ∧
        place base other < place base seq := by
  have hlt := ((isGap_iff hhigh hseq).mp hgap).1
  rw [← List.mem_map_of_injective (place_injective base),
    map_place_between hhigh hseq hgap, List.mem_range'_1]
  omega

theorem nodup_between : (between high (seq - high)).Nodup := by
  apply List.Nodup.of_map (place base)
  rw [map_place_between hhigh hseq hgap]
  exact List.nodup_range'

theorem length_between :
    (between high (seq - high)).length =
      place base seq - place base high - 1 := by
  rw [← List.length_map (place base), map_place_between hhigh hseq hgap,
    List.length_range']

end Places

/-! ## The highest seq is ahead -/

/-- The highest seq arrived and is ahead of all that arrived, but for one that
is as far ahead as a half space reaches, and of all that was requested. -/
structure Ahead (base : UInt32) (log : Log) : Prop where
  inHalf : ∀ seq ∈ log.seen, InHalf base seq
  fresh : log.receiver.highestSeq = none → log.seen = [] ∧ log.requests = []
  arrived : ∀ high, log.receiver.highestSeq = some high → high ∈ log.seen
  seen : ∀ high, log.receiver.highestSeq = some high → ∀ seq ∈ log.seen,
    place base seq ≤ place base high ∨ place base seq = 2 ^ 31 - 1
  requests : ∀ high, log.receiver.highestSeq = some high →
    ∀ seq ∈ log.requests.map Request.seq, place base seq < place base high
  remembered : ∀ seq ∈ log.receiver.nacked,
    seq ∈ log.requests.map Request.seq
  once : (log.requests.map Request.seq).Nodup

theorem mem_foldl_remember {seqs nacked : List UInt32} {seq : UInt32}
    (h : seq ∈ seqs.foldl remember nacked) : seq ∈ nacked ∨ seq ∈ seqs := by
  induction seqs generalizing nacked with
  | nil => exact Or.inl h
  | cons next seqs ih =>
      obtain hold | hin := ih h
      · rw [remember, List.mem_append, List.mem_singleton] at hold
        obtain hkept | rfl := hold
        · left
          split_ifs at hkept
          · exact List.mem_of_mem_tail hkept
          · exact hkept
        · exact Or.inr List.mem_cons_self
      · exact Or.inr (List.mem_cons_of_mem _ hin)

section Step

variable {base : UInt32} {log : Log} (h : Ahead base log)

include h

/-- Nothing in a gap was requested before, so only the budget limits what is
requested of it. -/
theorem Ahead.missing_eq {high seq : UInt32}
    (hhigh : log.receiver.highestSeq = some high) (hseq : InHalf base seq)
    (hgap : IsGap high seq) (budget : ℕ) :
    log.receiver.missing high (seq - high) budget =
      (between high (seq - high)).take budget := by
  have hin := h.inHalf high (h.arrived high hhigh)
  have hnew : ∀ other ∈ between high (seq - high),
      (!log.receiver.nacked.contains other) = true := by
    intro other hother
    have hplace := ((mem_between_iff hin hseq hgap).mp hother).1
    rw [Bool.not_eq_true', List.contains_eq_mem, decide_eq_false_iff_not]
    intro hnacked
    have hbehind := h.requests high hhigh other (h.remembered other hnacked)
    omega
  calc log.receiver.missing high (seq - high) budget
      = ((between high (seq - high)).filter fun other =>
          !log.receiver.nacked.contains other).take budget := rfl
    _ = (between high (seq - high)).take budget := by
        rw [List.filter_eq_self.mpr hnew]

theorem Ahead.requested_of_gap {high : UInt32} {arrival : UInt32 × ℕ}
    (hhigh : log.receiver.highestSeq = some high)
    (hseq : InHalf base arrival.1) (hgap : IsGap high arrival.1) :
    requested log arrival = (between high (arrival.1 - high)).take
      (nackBudgetPerSec - (windowAt log.receiver arrival.2).2) := by
  rw [requested_eq, detectGap_of_gap hhigh hgap,
    h.missing_eq hhigh hseq hgap]

/-- Requested seqs are in the gap before the arrival. -/
theorem Ahead.mem_requested {arrival : UInt32 × ℕ}
    (hseq : InHalf base arrival.1) {seq : UInt32}
    (hin : seq ∈ requested log arrival) :
    ∃ high, log.receiver.highestSeq = some high ∧
      place base high < place base seq ∧
      place base seq < place base arrival.1 := by
  cases hhigh : log.receiver.highestSeq with
  | none =>
      rw [requested_eq, detectGap_of_none hhigh] at hin
      cases hin
  | some high =>
      by_cases hgap : IsGap high arrival.1
      · rw [h.requested_of_gap hhigh hseq hgap] at hin
        exact ⟨high, rfl, (mem_between_iff (h.inHalf _ (h.arrived _ hhigh))
          hseq hgap).mp (List.mem_of_mem_take hin)⟩
      · rw [requested_eq, detectGap_of_not_gap hhigh hgap] at hin
        cases hin

theorem Ahead.nodup_requested {arrival : UInt32 × ℕ}
    (hseq : InHalf base arrival.1) : (requested log arrival).Nodup := by
  cases hhigh : log.receiver.highestSeq with
  | none =>
      rw [requested_eq, detectGap_of_none hhigh]
      exact List.nodup_nil
  | some high =>
      by_cases hgap : IsGap high arrival.1
      · rw [h.requested_of_gap hhigh hseq hgap]
        exact (List.take_sublist _ _).nodup
          (nodup_between (h.inHalf _ (h.arrived _ hhigh)) hseq hgap)
      · rw [requested_eq, detectGap_of_not_gap hhigh hgap]
        exact List.nodup_nil

/-- The next highest seq: the arrival, unless it is late or too far ahead. -/
theorem Ahead.highestSeq_step {arrival : UInt32 × ℕ}
    (hseq : InHalf base arrival.1) :
    ((step log arrival).receiver.highestSeq = some arrival.1 ∧
      ∀ high, log.receiver.highestSeq = some high →
        place base high < place base arrival.1) ∨
    ∃ high, log.receiver.highestSeq = some high ∧
      (step log arrival).receiver.highestSeq = some high ∧
      requested log arrival = [] ∧
      (place base arrival.1 ≤ place base high ∨
        place base arrival.1 = 2 ^ 31 - 1) := by
  rw [(receiver_step log arrival).1, requested_eq]
  cases hhigh : log.receiver.highestSeq with
  | none =>
      left
      rw [detectGap_of_none hhigh]
      exact ⟨rfl, nofun⟩
  | some high =>
      have hin := h.inHalf _ (h.arrived _ hhigh)
      by_cases hgap : IsGap high arrival.1
      · left
        rw [detectGap_of_gap hhigh hgap]
        refine ⟨rfl, ?_⟩
        rintro _ ⟨⟩
        have hahead := ((isGap_iff hin hseq).mp hgap).1
        omega
      · rw [detectGap_of_not_gap hhigh hgap]
        by_cases hadvance : 1 ≤ arrival.1 - high ∧ arrival.1 - high < halfRange
        · left
          rw [if_pos hadvance]
          refine ⟨rfl, ?_⟩
          rintro _ ⟨⟩
          exact ((advances_iff hin hseq).mp hadvance).1
        · right
          refine ⟨high, rfl, if_neg hadvance, rfl, ?_⟩
          rw [advances_iff hin hseq] at hadvance
          rw [InHalf] at hseq
          omega

/-- The seqs that are requested are ahead of all requested before. -/
theorem Ahead.once_step {arrival : UInt32 × ℕ}
    (hseq : InHalf base arrival.1) :
    ((step log arrival).requests.map Request.seq).Nodup := by
  rw [seqs_step]
  apply h.once.append (h.nodup_requested hseq)
  intro seq hold hnew
  obtain ⟨high, hhigh, hahead, -⟩ := h.mem_requested hseq hnew
  have hbehind := h.requests high hhigh seq hold
  omega

/-- What is ahead of the highest seq is ahead of all that arrived. -/
theorem Ahead.seen_behind {next : UInt32}
    (hahead : ∀ high, log.receiver.highestSeq = some high →
      place base high < place base next) {seq : UInt32}
    (hin : seq ∈ log.seen) :
    place base seq ≤ place base next ∨ place base seq = 2 ^ 31 - 1 := by
  cases hhigh : log.receiver.highestSeq with
  | none =>
      rw [(h.fresh hhigh).1] at hin
      cases hin
  | some high =>
      have hmoves := (hahead high hhigh).le
      exact (h.seen high hhigh seq hin).imp_left fun hle => hle.trans hmoves

/-- And of all that was requested. -/
theorem Ahead.requests_behind {next : UInt32}
    (hahead : ∀ high, log.receiver.highestSeq = some high →
      place base high < place base next) {seq : UInt32}
    (hin : seq ∈ log.requests.map Request.seq) :
    place base seq < place base next := by
  cases hhigh : log.receiver.highestSeq with
  | none =>
      rw [(h.fresh hhigh).2] at hin
      cases hin
  | some high =>
      exact lt_trans (h.requests high hhigh seq hin) (hahead high hhigh)

/-- Only requested seqs are remembered. -/
theorem Ahead.remembered_step (arrival : UInt32 × ℕ) :
    ∀ seq ∈ (ArrivalLog.step log arrival).receiver.nacked,
      seq ∈ (ArrivalLog.step log arrival).requests.map Request.seq := by
  intro seq hin
  rw [seqs_step, List.mem_append]
  rw [(receiver_step log arrival).2.1] at hin
  cases hhigh : log.receiver.highestSeq with
  | none =>
      rw [detectGap_of_none hhigh] at hin
      exact Or.inl (h.remembered seq hin)
  | some high =>
      by_cases hgap : IsGap high arrival.1
      · rw [requested_eq]
        rw [detectGap_of_gap hhigh hgap] at hin ⊢
        exact (mem_foldl_remember hin).imp_left (h.remembered seq)
      · rw [detectGap_of_not_gap hhigh hgap] at hin
        exact Or.inl (h.remembered seq hin)

theorem Ahead.step {arrival : UInt32 × ℕ} (hseq : InHalf base arrival.1) :
    Ahead base (step log arrival) where
  inHalf := by
    intro seq hin
    rw [seen_step, List.mem_append, List.mem_singleton] at hin
    obtain hin | rfl := hin
    · exact h.inHalf seq hin
    · exact hseq
  fresh := by
    intro hnone
    obtain ⟨hsome, -⟩ | ⟨high, -, hsome, -⟩ := h.highestSeq_step hseq
    all_goals
      rw [hsome] at hnone
      cases hnone
  arrived := by
    intro next hnext
    rw [seen_step, List.mem_append, List.mem_singleton]
    obtain ⟨hsome, -⟩ | ⟨high, hhigh, hsome, -⟩ := h.highestSeq_step hseq
    · exact Or.inr (Option.some.inj (hnext.symm.trans hsome))
    · rw [Option.some.inj (hnext.symm.trans hsome)]
      exact Or.inl (h.arrived high hhigh)
  seen := by
    intro next hnext seq hin
    rw [seen_step, List.mem_append, List.mem_singleton] at hin
    obtain ⟨hsome, hahead⟩ | ⟨high, hhigh, hsome, -, hlate⟩ :=
      h.highestSeq_step hseq
    · obtain rfl := Option.some.inj (hnext.symm.trans hsome)
      obtain hin | rfl := hin
      · exact h.seen_behind hahead hin
      · exact Or.inl le_rfl
    · obtain rfl := Option.some.inj (hnext.symm.trans hsome)
      obtain hin | rfl := hin
      · exact h.seen next hhigh seq hin
      · exact hlate
  requests := by
    intro next hnext seq hin
    rw [seqs_step, List.mem_append] at hin
    obtain ⟨hsome, hahead⟩ | ⟨high, hhigh, hsome, hnone, -⟩ :=
      h.highestSeq_step hseq
    · obtain rfl := Option.some.inj (hnext.symm.trans hsome)
      obtain hin | hin := hin
      · exact h.requests_behind hahead hin
      · obtain ⟨-, -, -, hbefore⟩ := h.mem_requested hseq hin
        exact hbefore
    · obtain rfl := Option.some.inj (hnext.symm.trans hsome)
      rw [hnone] at hin
      obtain hin | hin := hin
      · exact h.requests next hhigh seq hin
      · cases hin
  remembered := h.remembered_step arrival
  once := h.once_step hseq

theorem Ahead.lost {arrival : UInt32 × ℕ} (hseq : InHalf base arrival.1)
    {seq : UInt32} (hin : seq ∈ requested log arrival) :
    seq ∉ (ArrivalLog.step log arrival).seen ∧
      ∃ seen ∈ (ArrivalLog.step log arrival).seen,
        place base seq < place base seen := by
  obtain ⟨high, hhigh, hafter, hbefore⟩ := h.mem_requested hseq hin
  rw [seen_step]
  refine ⟨?_, arrival.1, List.mem_append_right _ List.mem_cons_self, hbefore⟩
  rw [List.mem_append, List.mem_singleton]
  rintro (hseen | rfl)
  · have hold := h.seen high hhigh seq hseen
    rw [InHalf] at hseq
    omega
  · exact lt_irrefl _ hbefore

/-- Where something lies between them, the receiver's highest seq is the
highest that arrived. -/
theorem Ahead.highestSeq_eq {high : UInt32} (hin : high ∈ log.seen)
    (hmax : ∀ seen ∈ log.seen, place base seen ≤ place base high)
    (hroom : place base high < 2 ^ 31 - 1) :
    log.receiver.highestSeq = some high := by
  cases hnext : log.receiver.highestSeq with
  | none =>
      rw [(h.fresh hnext).1] at hin
      cases hin
  | some next =>
      have hle := hmax next (h.arrived next hnext)
      have hge := h.seen next hnext high hin
      have hsame : place base next = place base high := by omega
      rw [place_injective base hsame]

end Step

/-! ## The budget -/

/-- The receiver counts the requests of its budget window, which starts at zero
or at an arrival. -/
structure Charged (log : Log) : Prop where
  counted : log.spent log.receiver.nackWindow.1 = log.receiver.nackWindow.2
  budget : ∀ window, log.spent window ≤ nackBudgetPerSec
  past : ∀ request ∈ log.requests,
    request.window ≤ log.receiver.nackWindow.1
  within : ∀ request ∈ log.requests,
    request.window ≤ request.time ∧ request.time < request.window + 1000000
  opened : log.receiver.nackWindow.1 = 0 ∨
    ∃ arrival ∈ log.arrivals, arrival.2 = log.receiver.nackWindow.1

/-- An arrival leaves window and requests alone, or charges the window of its
time. -/
theorem window_step (log : Log) (arrival : UInt32 × ℕ) :
    (requested log arrival = [] ∧
      (step log arrival).receiver.nackWindow = log.receiver.nackWindow) ∨
    ((requested log arrival).length ≤
        nackBudgetPerSec - (windowAt log.receiver arrival.2).2 ∧
      (step log arrival).receiver.nackWindow =
        ((windowAt log.receiver arrival.2).1,
          (windowAt log.receiver arrival.2).2 +
            (requested log arrival).length)) := by
  rw [(receiver_step log arrival).2.2, requested_eq]
  cases hhigh : log.receiver.highestSeq with
  | none =>
      rw [detectGap_of_none hhigh]
      exact Or.inl ⟨rfl, rfl⟩
  | some high =>
      by_cases hgap : IsGap high arrival.1
      · rw [detectGap_of_gap hhigh hgap]
        exact Or.inr ⟨List.length_take_le _ _, rfl⟩
      · rw [detectGap_of_not_gap hhigh hgap]
        exact Or.inl ⟨rfl, rfl⟩

theorem spent_step (log : Log) (arrival : UInt32 × ℕ) (window : ℕ) :
    (step log arrival).spent window = log.spent window +
      if (step log arrival).receiver.nackWindow.1 = window
        then (requested log arrival).length else 0 := by
  rw [Log.spent, requests_step, List.filter_append, List.length_append,
    Log.spent]
  congr 1
  rw [List.filter_map, List.length_map]
  split_ifs with hwindow
  · rw [List.filter_eq_self.mpr]
    exact fun _ _ => decide_eq_true hwindow
  · rw [List.filter_eq_nil_iff.mpr, List.length_nil]
    exact fun _ _ hsame => hwindow (of_decide_eq_true hsame)

section Budget

variable {log : Log} (h : Charged log)

include h

/-- The window of a time lasts one second, and its count is right. -/
theorem Charged.windowAt {now : ℕ}
    (hnow : ∀ earlier ∈ log.arrivals, earlier.2 ≤ now) :
    log.receiver.nackWindow.1 ≤ (windowAt log.receiver now).1 ∧
      (ArrivalLog.windowAt log.receiver now).1 ≤ now ∧
      now < (ArrivalLog.windowAt log.receiver now).1 + 1000000 ∧
      log.spent (ArrivalLog.windowAt log.receiver now).1 =
        (ArrivalLog.windowAt log.receiver now).2 := by
  have hstart : log.receiver.nackWindow.1 ≤ now := by
    obtain hzero | ⟨arrival, hin, hsame⟩ := h.opened
    · rw [hzero]
      exact Nat.zero_le _
    · rw [← hsame]
      exact hnow arrival hin
  rw [ArrivalLog.windowAt]
  split_ifs with hover
  · refine ⟨hstart, le_rfl, Nat.lt_add_of_pos_right (by decide), ?_⟩
    rw [Log.spent, List.filter_eq_nil_iff.mpr, List.length_nil]
    intro request hin hsame
    have hpast := h.past request hin
    rw [of_decide_eq_true hsame] at hpast
    omega
  · exact ⟨le_rfl, hstart, by omega, h.counted⟩

theorem Charged.step {arrival : UInt32 × ℕ}
    (hnow : ∀ earlier ∈ log.arrivals, earlier.2 ≤ arrival.2) :
    Charged (step log arrival) := by
  obtain ⟨hlater, hopen, hclose, hcount⟩ := h.windowAt hnow
  obtain ⟨hnone, hkept⟩ | ⟨hfits, hmoved⟩ := window_step log arrival
  · have hrequests : (ArrivalLog.step log arrival).requests = log.requests := by
      rw [requests_step, hnone, List.map_nil, List.append_nil]
    have hspent : (ArrivalLog.step log arrival).spent = log.spent := by
      funext window
      rw [Log.spent, hrequests, Log.spent]
    refine ⟨?_, ?_, ?_, ?_, ?_⟩
    · rw [hspent, hkept, h.counted]
    · rw [hspent]
      exact h.budget
    · rw [hrequests, hkept]
      exact h.past
    · rw [hrequests]
      exact h.within
    · rw [hkept]
      exact h.opened.imp_right fun ⟨earlier, hin, hsame⟩ =>
        ⟨earlier, List.mem_append_left _ hin, hsame⟩
  · have hnew : ∀ request ∈ (requested log arrival).map (fun seq =>
        (⟨seq, arrival.2, (ArrivalLog.step log arrival).receiver.nackWindow.1⟩ :
          Request)), request.time = arrival.2 ∧
        request.window = (ArrivalLog.windowAt log.receiver arrival.2).1 := by
      intro request hin
      obtain ⟨seq, -, rfl⟩ := List.mem_map.mp hin
      refine ⟨rfl, ?_⟩
      rw [hmoved]
    refine ⟨?_, ?_, ?_, ?_, ?_⟩
    · rw [spent_step, if_pos rfl, hmoved, hcount]
    · intro window
      have hold := h.budget window
      rw [spent_step, hmoved]
      split_ifs with hsame
      · rw [← hsame, hcount] at hold ⊢
        omega
      · exact hold
    · intro request hin
      rw [hmoved]
      rw [requests_step] at hin
      obtain hin | hin := List.mem_append.mp hin
      · exact le_trans (h.past request hin) hlater
      · exact (hnew request hin).2.le
    · intro request hin
      rw [requests_step] at hin
      obtain hin | hin := List.mem_append.mp hin
      · exact h.within request hin
      · rw [(hnew request hin).1, (hnew request hin).2]
        exact ⟨hopen, hclose⟩
    · rw [hmoved, ArrivalLog.windowAt]
      split_ifs
      · exact Or.inr ⟨arrival,
          List.mem_append_right _ List.mem_cons_self, rfl⟩
      · exact h.opened.imp_right fun ⟨earlier, hin, hsame⟩ =>
          ⟨earlier, List.mem_append_left _ hin, hsame⟩

end Budget

/-- A gap that fits what is left of the budget is requested whole. -/
theorem Ahead.complete {base : UInt32} {log : Log} (h : Ahead base log)
    (hcharged : Charged log) {arrival : UInt32 × ℕ}
    (horderly : Orderly base log arrival) {high : UInt32}
    (hin : high ∈ log.seen)
    (hmax : ∀ seen ∈ log.seen, place base seen ≤ place base high)
    (hgap : place base arrival.1 - place base high - 1 ≤ 63)
    (hbudget : log.spent (windowAt log.receiver arrival.2).1 +
      (place base arrival.1 - place base high - 1) ≤ nackBudgetPerSec)
    {seq : UInt32} (hafter : place base high < place base seq)
    (hbefore : place base seq < place base arrival.1) :
    seq ∈ requested log arrival := by
  obtain ⟨hseq, hnow⟩ := horderly
  have hseq' : place base arrival.1 < 2 ^ 31 := hseq
  have hhigh := h.highestSeq_eq hin hmax (by omega)
  have hhighIn := h.inHalf high hin
  have hlooked : IsGap high arrival.1 :=
    (isGap_iff hhighIn hseq).mpr ⟨by omega, by omega⟩
  rw [(hcharged.windowAt hnow).2.2.2] at hbudget
  have hwhole : (between high (arrival.1 - high)).length ≤
      nackBudgetPerSec - (windowAt log.receiver arrival.2).2 := by
    rw [length_between hhighIn hseq hlooked]
    exact Nat.le_sub_of_add_le' hbudget
  rw [h.requested_of_gap hhigh hseq hlooked, List.take_of_length_le hwhole]
  exact (mem_between_iff hhighIn hseq hlooked).mpr ⟨hafter, hbefore⟩

/-! ## The batches -/

/-- An arrival joins the pending batch or is sent with it. -/
theorem batch_step (log : Log) (arrival : UInt32 × ℕ) :
    ((step log arrival).receiver.feedbackBatch =
        log.receiver.feedbackBatch ++ [arrival] ∧
      (step log arrival).sent = log.sent ∧
      (log.receiver.feedbackBatch ++ [arrival]).length < maxBatch) ∨
    ((step log arrival).receiver.feedbackBatch = [] ∧
      (step log arrival).sent = log.sent ++ [batchMessage
        (log.receiver.feedbackBatch ++ [arrival]) arrival.2]) := by
  simp only [step, recordArrival, detectGap_withBatch, if_true]
  split_ifs with hkept
  · exact Or.inl ⟨rfl, List.append_nil _, hkept.1⟩
  · exact Or.inr ⟨rfl, rfl⟩

/-- No batch outgrows the message. -/
structure Batched (log : Log) : Prop where
  pending : log.receiver.feedbackBatch.length < maxBatch
  sent : ∀ batch ∈ log.sent, batch.samples.length ≤ maxBatch

theorem Batched.step {log : Log} (h : Batched log) (arrival : UInt32 × ℕ) :
    Batched (step log arrival) := by
  obtain ⟨hpending, hsent, hroom⟩ | ⟨hpending, hsent⟩ := batch_step log arrival
  · refine ⟨?_, ?_⟩
    · rw [hpending]
      exact hroom
    · rw [hsent]
      exact h.sent
  · refine ⟨?_, ?_⟩
    · rw [hpending]
      decide
    · intro batch hin
      rw [hsent, List.mem_append, List.mem_singleton] at hin
      obtain hin | rfl := hin
      · exact h.sent batch hin
      · rw [length_samples_batchMessage, List.length_append,
          List.length_singleton]
        exact h.pending

/-- A batch says when its samples arrived, unless they are too far apart. -/
theorem decodeBatch_batchMessage {batch : List (UInt32 × ℕ)} {now : ℕ}
    (hbatch : ∀ first ∈ batch.head?, ∀ sample ∈ batch,
      first.2 ≤ sample.2 ∧ sample.2 - first.2 < 2 ^ 32) :
    decodeBatch (batchMessage batch now) = batch := by
  cases batch with
  | nil => rfl
  | cons first rest =>
      rw [decodeBatch, batchMessage, List.map_map]
      calc (first :: rest).map _
          = (first :: rest).map id := by
            apply List.map_congr_left
            intro sample hsample
            obtain ⟨hle, hnear⟩ := hbatch first rfl sample hsample
            apply Prod.ext
            · rfl
            · change first.2 + (UInt32.ofNat (sample.2 - first.2)).toNat =
                sample.2
              rw [UInt32.toNat_ofNat', Nat.mod_eq_of_lt hnear,
                Nat.add_sub_cancel' hle]
        _ = first :: rest := List.map_id _

/-- The pending batch is made of arrivals, in order; and what the sent batches
and the pending one say is all that arrived, with its times. -/
structure Acknowledging (log : Log) : Prop where
  ordered : log.receiver.feedbackBatch.Pairwise
    fun earlier later => earlier.2 ≤ later.2
  arrived : ∀ sample ∈ log.receiver.feedbackBatch, sample ∈ log.arrivals
  whole : log.acknowledged = log.arrivals

section Batch

variable {base : UInt32} {log : Log} (h : Acknowledging log)
  {arrival : UInt32 × ℕ} (horderly : Orderly base log arrival)

include h horderly

/-- The batch stays sorted with the arrival behind it. -/
theorem Acknowledging.ordered_concat :
    (log.receiver.feedbackBatch ++ [arrival]).Pairwise
      fun earlier later => earlier.2 ≤ later.2 := by
  rw [List.pairwise_append]
  refine ⟨h.ordered, List.pairwise_singleton _ _, ?_⟩
  intro sample hin _ hlast
  rw [List.mem_singleton.mp hlast]
  exact horderly.2 sample (h.arrived sample hin)

/-- The agent reads the samples of the batch as they were recorded. -/
theorem Acknowledging.decode_concat (hnear : NearBatch log arrival) :
    decodeBatch (batchMessage
      (log.receiver.feedbackBatch ++ [arrival]) arrival.2) =
        log.receiver.feedbackBatch ++ [arrival] := by
  apply decodeBatch_batchMessage
  intro first hfirst sample hin
  have hordered := h.ordered_concat horderly
  have hlast : sample.2 ≤ arrival.2 := by
    obtain hold | hnew := List.mem_append.mp hin
    · exact horderly.2 sample (h.arrived sample hold)
    · exact (congrArg Prod.snd (List.mem_singleton.mp hnew)).le
  have hspan : arrival.2 - first.2 < 2 ^ 32 := by
    obtain hold | hnew := List.mem_append.mp (List.mem_of_mem_head? hfirst)
    · exact hnear first hold
    · rw [List.mem_singleton.mp hnew, Nat.sub_self]
      decide
  have hle : first.2 ≤ sample.2 := by
    obtain ⟨rest, hcons⟩ := List.head?_eq_some_iff.mp hfirst
    rw [hcons] at hordered hin
    obtain rfl | hin := List.mem_cons.mp hin
    · exact le_rfl
    · exact (List.pairwise_cons.mp hordered).1 sample hin
  exact ⟨hle, by omega⟩

theorem Acknowledging.step (hnear : NearBatch log arrival) :
    Acknowledging (step log arrival) := by
  have harrivals : (ArrivalLog.step log arrival).arrivals =
      log.arrivals ++ [arrival] := rfl
  obtain ⟨hpending, hsent, -⟩ | ⟨hpending, hsent⟩ := batch_step log arrival
  · refine ⟨?_, ?_, ?_⟩
    · rw [hpending]
      exact h.ordered_concat horderly
    · intro sample hin
      rw [hpending, List.mem_append] at hin
      rw [harrivals, List.mem_append]
      exact hin.imp_left (h.arrived sample)
    · rw [Log.acknowledged, hpending, hsent, harrivals, ← List.append_assoc,
        ← Log.acknowledged, h.whole]
  · refine ⟨?_, ?_, ?_⟩
    · rw [hpending]
      exact List.Pairwise.nil
    · rw [hpending]
      exact nofun
    · have hdecode := h.decode_concat horderly hnear
      rw [Log.acknowledged, hpending, hsent, harrivals, List.flatMap_append,
        List.flatMap_singleton, hdecode, List.append_nil, ← List.append_assoc,
        ← Log.acknowledged, h.whole]

end Batch

/-! ## Every run -/

/-- Sorted arrivals of a half space are orderly, one by one. -/
theorem along_orderly {base : UInt32} {arrivals : List (UInt32 × ℕ)}
    {log : Log} (hhalf : AllInHalf base (arrivals.map Prod.fst))
    (hsorted : (arrivals.map Prod.snd).Pairwise (· ≤ ·))
    (hlog : ∀ earlier ∈ log.arrivals, ∀ later ∈ arrivals,
      earlier.2 ≤ later.2) :
    Along step (Orderly base) log arrivals := by
  induction arrivals generalizing log with
  | nil => trivial
  | cons arrival arrivals ih =>
      rw [List.map_cons, List.pairwise_cons] at hsorted
      refine ⟨⟨hhalf _ List.mem_cons_self,
        fun earlier hin => hlog earlier hin _ List.mem_cons_self⟩, ?_⟩
      apply ih (fun seq hin => hhalf seq (List.mem_cons_of_mem _ hin))
        hsorted.2
      intro earlier hin later hlater
      obtain hin | hin := List.mem_append.mp hin
      · exact hlog earlier hin later (List.mem_cons_of_mem _ hlater)
      · rw [List.mem_singleton.mp hin]
        exact hsorted.1 _ (List.mem_map_of_mem hlater)

theorem arrivals_foldl (arrivals : List (UInt32 × ℕ)) (log : Log) :
    (arrivals.foldl step log).arrivals = log.arrivals ++ arrivals := by
  induction arrivals generalizing log with
  | nil => exact (List.append_nil _).symm
  | cons arrival arrivals ih =>
      rw [List.foldl_cons, ih]
      exact List.append_assoc _ [arrival] arrivals

theorem disciplined {base : UInt32} {log : Log} (h : Ahead base log)
    (hcharged : Charged log) {arrival : UInt32 × ℕ}
    (horderly : Orderly base log arrival) : Disciplined base log arrival where
  once := h.once_step horderly.1
  lost := fun _ hin => h.lost horderly.1 hin
  budget := (hcharged.step horderly.2).budget
  within := (hcharged.step horderly.2).within
  complete := fun _ hin hmax hgap hbudget _ hafter hbefore =>
    h.complete hcharged horderly hin hmax hgap hbudget hafter hbefore

/-- Arrivals around the wrap, with a gap and late arrivals. -/
def wrapping : List (UInt32 × ℕ) :=
  [(4294967293, 1000000), (4294967294, 1000100), (2, 1000900),
    (4294967295, 1001500), (0, 1052000), (3, 1060000)]

example : (wrapping.foldl step start).requests.map Request.seq =
    [4294967295, 0, 1] := by decide

theorem ahead_start (base : UInt32) : Ahead base start :=
  ⟨nofun, fun _ => ⟨rfl, rfl⟩, nofun, nofun, nofun, nofun, List.nodup_nil⟩

theorem charged_start : Charged start :=
  ⟨rfl, fun _ => Nat.zero_le _, nofun, nofun, Or.inl rfl⟩

/-- In every run within a half space and with the clock going forward, each
loss is requested at most once and within the budget, small gaps are requested
whole, and the batches say what arrived when. -/
theorem arrivals_disciplined {base : UInt32} {arrivals : List (UInt32 × ℕ)}
    (hhalf : AllInHalf base (arrivals.map Prod.fst))
    (hsorted : (arrivals.map Prod.snd).Pairwise (· ≤ ·)) :
    Along step (Disciplined base) start arrivals ∧
      (∀ batch ∈ (arrivals.foldl step start).sent,
        batch.samples.length ≤ maxBatch) ∧
      (Along step NearBatch start arrivals →
        (arrivals.foldl step start).acknowledged = arrivals) := by
  have horderly : Along step (Orderly base) start arrivals :=
    along_orderly hhalf hsorted nofun
  refine ⟨?_, ?_, ?_⟩
  · exact along_of_along (fun log => Ahead base log ∧ Charged log)
      (fun _ _ h horder => ⟨h.1.step horder.1, h.2.step horder.2⟩)
      (fun _ _ h horder => disciplined h.1 h.2 horder)
      ⟨ahead_start base, charged_start⟩ horderly
  · have hstart : Batched start := ⟨by decide, nofun⟩
    exact (foldl_preserves (fun _ arrival h => h.step arrival) arrivals
      hstart).sent
  · intro hnear
    have hstart : Acknowledging start := ⟨List.Pairwise.nil, nofun, rfl⟩
    have hboth := (along_and (Orderly base) NearBatch start arrivals).mpr
      ⟨horderly, hnear⟩
    have hacknowledging : Acknowledging (arrivals.foldl step start) := by
      apply foldl_invariant _ hstart hboth
      exact fun _ _ h hcond => h.step hcond.1 hcond.2
    rw [hacknowledging.whole, arrivals_foldl, start, List.nil_append]

/-- Across the wrap: two of three lost datagrams arrive late, a batch is sent
when it is due, and it says when its six samples arrived. -/
theorem arrivals_disciplined_wrapping :
    Along step (Disciplined 4294967290) start wrapping ∧
      (∀ batch ∈ (wrapping.foldl step start).sent,
        batch.samples.length ≤ maxBatch) ∧
      (wrapping.foldl step start).acknowledged = wrapping := by
  have hhalf : AllInHalf 4294967290 (wrapping.map Prod.fst) := by decide
  have hsorted : (wrapping.map Prod.snd).Pairwise (· ≤ ·) := by decide
  have hnear : Along step NearBatch start wrapping := by decide
  obtain ⟨hdisciplined, hbatches, hwhole⟩ := arrivals_disciplined hhalf hsorted
  exact ⟨hdisciplined, hbatches, hwhole hnear⟩

end GameStreamer.ArrivalLog
