import GameStreamer.Protocol.Control
import GameStreamer.Session.SendHistory

/-!
# The bandwidth-estimator driver

The driver joins the receiver's per-packet feedback against the send records
and feeds the result to the bandwidth estimator.  Records that a batch does
not mention stay pending, because reordering must not read as loss; one that
is still unmatched after the grace window is reported as lost.

Instants are microseconds since the driver's epoch.  The estimator is known
here by the calls that it receives.
-/

namespace GameStreamer

/-- One packet as the estimator hears of it. -/
structure TwccSendRecord where
  record : SendRecord
  sentAt : ℕ
  /-- When the feedback was processed, and the receiver's arrival time;
  nothing for a lost packet. -/
  received : Option (ℕ × ℕ)
  deriving DecidableEq, Repr

inductive BweCall where
  | mediaSent (bytes : UInt32) (sentAt : ℕ)
  | update (records : List TwccSendRecord) (now : ℕ)
  deriving DecidableEq, Repr

/-- The driver between the session and the estimator.  What the estimator was
told is recorded; its answer does not influence these calls. -/
structure BweDriver where
  /-- The calls the estimator received, oldest first. -/
  calls : List BweCall
  lastNow : ℕ
  epochAgentUs : ℕ
  /-- Sent records awaiting arrival, a map with ascending sequence numbers. -/
  pending : List SendRecord
  deriving DecidableEq, Repr

namespace BweDriver

def new (nowAgentUs : ℕ) : BweDriver where
  calls := []
  lastNow := 0
  epochAgentUs := nowAgentUs
  pending := []

def instantAt (driver : BweDriver) (us : ℕ) : ℕ := us - driver.epochAgentUs

/-- Estimator-internal time must never run backwards. -/
def mono (driver : BweDriver) (instant : ℕ) : BweDriver :=
  { driver with lastNow := max driver.lastNow instant }

/-- Media bytes handed to the wire. -/
def onMediaSent (driver : BweDriver) (bytes : UInt32) (sentUs : ℕ) :
    BweDriver :=
  let driver := driver.mono (driver.instantAt sentUs)
  { driver with calls := driver.calls ++ [.mediaSent bytes driver.lastNow] }

/-- `BTreeMap::insert`: a record under the same sequence number is
replaced. -/
def insertPending (record : SendRecord) (pending : List SendRecord) :
    List SendRecord :=
  pending.filter (fun other => decide (other.seq < record.seq)) ++
    record :: pending.filter (fun other => decide (record.seq < other.seq))

/-- A newly drained record starts to wait for its arrival. -/
def await (driver : BweDriver) (record : SendRecord) : BweDriver :=
  let driver := if record.padding then driver
    else driver.onMediaSent record.bytes record.sentUs
  { driver with pending := insertPending record driver.pending }

/-- The arrival time that a batch gives for a sequence number; of several
samples the last one counts. -/
def arrivalOf (feedback : PacketFeedback) (seq : UInt32) : Option ℕ :=
  (feedback.samples.reverse.find? fun sample => decide (sample.1 = seq)).map
    fun sample => feedback.baseArrivalUs + sample.2.toNat

def lostGraceUs : ℕ := 500000

/-- The driver's report about one record. -/
def report (driver : BweDriver) (received : Option (ℕ × ℕ))
    (record : SendRecord) : TwccSendRecord where
  record := record
  sentAt := driver.instantAt record.sentUs
  received := received

/-- Tell the estimator, unless there is nothing to tell. -/
def update (driver : BweDriver) (records : List TwccSendRecord) : BweDriver :=
  if records.isEmpty then driver
  else { driver with calls := driver.calls ++ [.update records driver.lastNow] }

/-- Feed one feedback batch.  `sent` holds the newly drained send records;
arrivals match against these plus earlier still-pending ones. -/
def onFeedback (driver : BweDriver) (sent : List SendRecord)
    (feedback : PacketFeedback) (nowAgentUs : ℕ) : BweDriver :=
  let driver := sent.foldl await driver
  let driver := driver.mono (driver.instantAt nowAgentUs)
  let matched := driver.pending.filterMap fun record =>
    (arrivalOf feedback record.seq).map fun remote =>
      driver.report (some (driver.lastNow, remote)) record
  let unmatched := driver.pending.filter fun record =>
    (arrivalOf feedback record.seq).isNone
  -- expire the truly lost: unmatched well past their send time
  let isExpired := fun record : SendRecord =>
    decide (lostGraceUs < nowAgentUs - record.sentUs)
  let expired := (unmatched.filter isExpired).map (driver.report none)
  { driver with
    pending := unmatched.filter fun record => !isExpired record }.update
      (matched ++ expired)

/-- Everything the estimator was told about single packets. -/
def reports (driver : BweDriver) : List TwccSendRecord :=
  driver.calls.flatMap fun
    | .mediaSent _ _ => []
    | .update records _ => records

/-! ## The pending map -/

theorem mem_insertPending {record other : SendRecord}
    {pending : List SendRecord} :
    other ∈ insertPending record pending ↔
      other = record ∨ other ∈ pending ∧ other.seq ≠ record.seq := by
  have hne : other.seq ≠ record.seq ↔
      other.seq < record.seq ∨ record.seq < other.seq :=
    ⟨UInt32.lt_or_lt_of_ne, fun h => h.elim UInt32.ne_of_lt
      fun h => (UInt32.ne_of_lt h).symm⟩
  simp only [insertPending, List.mem_append, List.mem_cons, List.mem_filter,
    decide_eq_true_eq]
  rw [hne]
  tauto

theorem sorted_insertPending {pending : List SendRecord}
    (hsorted : pending.Pairwise (·.seq < ·.seq)) (record : SendRecord) :
    (insertPending record pending).Pairwise (·.seq < ·.seq) := by
  rw [insertPending, List.pairwise_append, List.pairwise_cons]
  simp only [List.mem_cons, List.mem_filter, decide_eq_true_eq]
  refine ⟨hsorted.filter _, ⟨fun other hother => hother.2,
    hsorted.filter _⟩, ?_⟩
  rintro left ⟨-, hleft⟩ right (rfl | ⟨-, hright⟩)
  · exact hleft
  · exact UInt32.lt_trans hleft hright

@[simp]
theorem reports_await (driver : BweDriver) (record : SendRecord) :
    (driver.await record).reports = driver.reports := by
  rw [await]
  split <;> simp [reports, onMediaSent, mono]

@[simp]
theorem pending_await (driver : BweDriver) (record : SendRecord) :
    (driver.await record).pending = insertPending record driver.pending := by
  rw [await]
  split <;> rfl

@[simp]
theorem reports_update (driver : BweDriver) (records : List TwccSendRecord) :
    (driver.update records).reports = driver.reports ++ records := by
  rw [update]
  split
  case isTrue hempty => simp [List.isEmpty_iff.mp hempty]
  case isFalse => simp [reports]

@[simp]
theorem pending_update (driver : BweDriver) (records : List TwccSendRecord) :
    (driver.update records).pending = driver.pending := by
  rw [update]
  split <;> rfl

@[simp]
theorem reports_foldl_await (driver : BweDriver) (sent : List SendRecord) :
    (sent.foldl await driver).reports = driver.reports := by
  induction sent generalizing driver with
  | nil => rfl
  | cons record sent ih => rw [List.foldl_cons, ih, reports_await]

theorem pending_foldl_await (driver : BweDriver) (sent : List SendRecord) :
    (sent.foldl await driver).pending =
      sent.foldl (fun pending record => insertPending record pending)
        driver.pending := by
  induction sent generalizing driver with
  | nil => rfl
  | cons record sent ih => rw [List.foldl_cons, ih, pending_await]; rfl

theorem sorted_foldl_insert {pending : List SendRecord}
    (hsorted : pending.Pairwise (·.seq < ·.seq)) (sent : List SendRecord) :
    (sent.foldl (fun pending record => insertPending record pending)
      pending).Pairwise (·.seq < ·.seq) := by
  induction sent generalizing pending with
  | nil => exact hsorted
  | cons record sent ih => exact ih (sorted_insertPending hsorted record)

/-- After distinct records were inserted, the map holds them and the old
records that none of them replaced. -/
theorem mem_foldl_insert {sent : List SendRecord}
    (hdistinct : sent.Pairwise (·.seq ≠ ·.seq)) {pending : List SendRecord}
    {other : SendRecord} :
    other ∈ sent.foldl (fun pending record => insertPending record pending)
        pending ↔
      other ∈ sent ∨
        other ∈ pending ∧ ∀ record ∈ sent, other.seq ≠ record.seq := by
  induction sent generalizing pending with
  | nil => simp
  | cons record sent ih =>
      obtain ⟨hrecord, hsent⟩ := List.pairwise_cons.mp hdistinct
      rw [List.foldl_cons, ih hsent, mem_insertPending]
      simp only [List.mem_cons, forall_eq_or_imp]
      constructor
      · rintro (hin | ⟨rfl | ⟨hold, hne⟩, hnone⟩)
        · exact Or.inl (Or.inr hin)
        · exact Or.inl (Or.inl rfl)
        · exact Or.inr ⟨hold, hne, hnone⟩
      · rintro ((rfl | hin) | ⟨hold, hne, hnone⟩)
        · exact Or.inr ⟨Or.inl rfl, hrecord⟩
        · exact Or.inl hin
        · exact Or.inr ⟨Or.inr ⟨hold, hne⟩, hnone⟩

end BweDriver

end GameStreamer
