import GameStreamer.Core.EventRun
import GameStreamer.Session.BweDriver

/-!
# Exactly-once feedback accounting

Send records move from the send history into the driver's pending map under a
high-water mark, and leave it when their arrival is reported or when they
expire.  `serve_inner` takes the mark from the *last* sample of a batch, which
need not be the highest: the samples are in arrival order.  This module proves
when every reported arrival still meets its record.
-/

namespace GameStreamer

namespace SendHistory

/-- The drained part of a window is older than what is left. -/
theorem Window.front_lt {front back : List SendRecord} {stamped : ℕ}
    (hwindow : Window (front ++ back) stamped) {record : SendRecord}
    (hrecord : record ∈ front) : record.serial + back.length < stamped := by
  have hserials := hwindow.serials
  have havailable := hwindow.available
  rw [List.length_append] at hserials havailable
  rw [List.map_append, ← List.range'_append_1] at hserials
  have hfront := (List.append_inj hserials (by simp)).1
  have hmem : record.serial ∈ front.map SendRecord.serial :=
    List.mem_map_of_mem hrecord
  rw [hfront, List.mem_range'_1] at hmem
  omega

/-- Records of one window carry distinct sequence numbers. -/
theorem Window.distinct {history : List SendRecord} {stamped : ℕ}
    (hwindow : Window history stamped) :
    history.Pairwise (·.seq ≠ ·.seq) := by
  refine hwindow.increasing.imp_of_mem ?_
  intro left right hleft hright hlt heq
  exact hlt.ne (hwindow.seq_injOn hleft hright heq)

end SendHistory

namespace BweDriver

/-- The driver's records while a batch is processed: the pending ones and the
newly drained ones. -/
def awaiting (driver : BweDriver) (sent : List SendRecord) :
    List SendRecord :=
  sent.foldl (fun pending record => insertPending record pending)
    driver.pending

/-- What is still unmatched and within the grace window keeps waiting. -/
theorem pending_onFeedback (driver : BweDriver) (sent : List SendRecord)
    (feedback : PacketFeedback) (nowUs : ℕ) :
    (driver.onFeedback sent feedback nowUs).pending =
      ((driver.awaiting sent).filter fun record =>
        (arrivalOf feedback record.seq).isNone).filter fun record =>
          !decide (lostGraceUs < nowUs - record.sentUs) := by
  simp only [onFeedback, pending_update, mono, pending_foldl_await]
  rfl

/-- What one batch adds to the reports: one entry for every awaited record
whose arrival it gives, and one for every expired record. -/
theorem reports_onFeedback (driver : BweDriver) (sent : List SendRecord)
    (feedback : PacketFeedback) (nowUs : ℕ) :
    ∃ driver' : BweDriver,
      (driver.onFeedback sent feedback nowUs).reports =
        driver.reports ++
          ((driver.awaiting sent).filterMap (fun record =>
            (arrivalOf feedback record.seq).map fun remote =>
              driver'.report (some (driver'.lastNow, remote)) record) ++
          (((driver.awaiting sent).filter fun record =>
              (arrivalOf feedback record.seq).isNone).filter fun record =>
            decide (lostGraceUs < nowUs - record.sentUs)).map
              (driver'.report none)) := by
  refine ⟨(sent.foldl await driver).mono
    ((sent.foldl await driver).instantAt nowUs), ?_⟩
  have hreports := reports_foldl_await driver sent
  simp only [onFeedback, reports_update, mono, pending_foldl_await]
  rw [← hreports]
  rfl

/-- What a driver told the estimator about single packets on the way from
`first` to `second`. -/
def newReports (first second : BweDriver) : List TwccSendRecord :=
  second.reports.drop first.reports.length

@[simp]
theorem newReports_self (driver : BweDriver) :
    newReports driver driver = [] := List.drop_length

/-- What is reported as received: the awaited records that the batch gives an
arrival for. -/
theorem received_newReports_iff (driver : BweDriver) (sent : List SendRecord)
    (batch : PacketFeedback) (nowUs : ℕ) (record : SendRecord) :
    (∃ report ∈ newReports driver (driver.onFeedback sent batch nowUs),
        report.received.isSome ∧ report.record = record) ↔
      record ∈ driver.awaiting sent ∧ (arrivalOf batch record.seq).isSome := by
  obtain ⟨driver', hreports⟩ := reports_onFeedback driver sent batch nowUs
  rw [newReports, hreports, List.drop_left]
  constructor
  · rintro ⟨report, hreport, hreceived, rfl⟩
    rcases List.mem_append.mp hreport with hmatched | hexpired
    · obtain ⟨record, hrecord, hmap⟩ := List.mem_filterMap.mp hmatched
      obtain ⟨remote, hremote, rfl⟩ := Option.map_eq_some_iff.mp hmap
      exact ⟨hrecord, Option.isSome_of_eq_some hremote⟩
    · obtain ⟨record, -, rfl⟩ := List.mem_map.mp hexpired
      cases hreceived
  · rintro ⟨hrecord, harrival⟩
    obtain ⟨remote, hremote⟩ := Option.isSome_iff_exists.mp harrival
    refine ⟨driver'.report (some (driver'.lastNow, remote)) record,
      List.mem_append_left _ (List.mem_filterMap.mpr ⟨record, hrecord, ?_⟩),
      rfl, rfl⟩
    rw [hremote]
    rfl

/-- What is known of the sample that gives a seq's arrival; of several samples
the last one counts. -/
def originOf {Origin : Type} (batch : PacketFeedback)
    (origins : List Origin) (seq : UInt32) : Option Origin :=
  ((batch.samples.zip origins).reverse.find? fun entry =>
    decide (entry.1.1 = seq)).map Prod.snd

/-- Every sample comes with its origin. -/
theorem isSome_originOf {Origin : Type} {batch : PacketFeedback}
    {origins : List Origin}
    (hlength : batch.samples.length = origins.length) (seq : UInt32) :
    (originOf batch origins seq).isSome = (arrivalOf batch seq).isSome := by
  have hsamples : batch.samples.reverse =
      (batch.samples.zip origins).reverse.map Prod.fst := by
    rw [List.map_reverse, List.map_fst_zip (le_of_eq hlength)]
  rw [originOf, arrivalOf, hsamples, List.find?_map, Option.isSome_map,
    Option.isSome_map, Option.isSome_map]
  rfl

theorem mem_of_originOf {Origin : Type} {batch : PacketFeedback}
    {origins : List Origin} {seq : UInt32} {origin : Origin}
    (h : originOf batch origins seq = some origin) : origin ∈ origins := by
  obtain ⟨entry, hfind, rfl⟩ := Option.map_eq_some_iff.mp h
  exact (List.of_mem_zip
    (List.mem_reverse.mp (List.mem_of_find?_eq_some hfind))).2

end BweDriver

namespace Feedback

open SerialNumber SendHistory BweDriver

/-! ## The join over a whole session -/

/-- The send history and the driver of a session.  The arrivals that the
batches owe to known records are recorded beside them. -/
structure State where
  history : List SendRecord
  driver : BweDriver
  stamped : ℕ
  /-- Serial and arrival time of every datagram whose arrival a batch gave
  while its record was in the history or pending. -/
  owed : List (ℕ × ℕ)
  deriving DecidableEq, Repr

def start (nowAgentUs : ℕ) : State := ⟨[], BweDriver.new nowAgentUs, 0, []⟩

inductive Event where
  /-- The sender task stamps, records and sends a datagram. -/
  | send (sentUs : ℕ) (bytes : UInt32) (padding : Bool)
      (cluster : Option ℕ)
  /-- `serve_inner` receives a feedback batch. -/
  | feedback (batch : PacketFeedback) (nowUs : ℕ)
  deriving DecidableEq, Repr

/-- The arrivals that a batch gives for known records. -/
def arrivals (batch : PacketFeedback) (records : List SendRecord) :
    List (ℕ × ℕ) :=
  records.filterMap fun record =>
    (arrivalOf batch record.seq).map fun arrival => (record.serial, arrival)

/-- A datagram is stamped and recorded, or a batch is read: the history is
drained up to the batch's last sample and the records go to the driver. -/
def step (state : State) : Event → State
  | .send sentUs bytes padding cluster =>
      { state with
        history := SendHistory.push state.history
          ⟨state.stamped, sentUs, bytes, padding, cluster⟩
        stamped := state.stamped + 1 }
  | .feedback batch nowUs =>
      match batch.samples.getLast? with
      | none => state
      | some (maxSeq, _) =>
          let (sent, left) := takeUpto state.history maxSeq
          { state with
            history := left
            driver := state.driver.onFeedback sent batch nowUs
            owed := state.owed ++
              arrivals batch (state.history ++ state.driver.pending) }

/-- Every arrival that was given for a known record was reported to the
estimator once, with its time, and never as a loss. -/
def ExactlyOnce (state : State) : Prop :=
  ∀ owed ∈ state.owed,
    (state.driver.reports.filter fun report =>
        decide (report.record.serial = owed.1)).map
      (fun report => report.received.map Prod.snd) = [some owed.2]

instance (state : State) : Decidable (ExactlyOnce state) :=
  inferInstanceAs (Decidable (∀ _ ∈ _, _))

/-- For every record of the history whose arrival the batch gives, no record
up to it is above the batch's last sample, and no pending record carries the
same sequence number. -/
def Covered (state : State) : Event → Prop
  | .send _ _ _ _ => True
  | .feedback batch _ =>
      ∀ last ∈ batch.samples.getLast?, ∀ record ∈ state.history,
        (arrivalOf batch record.seq).isSome →
          Reached state.history last.1 record ∧
            ∀ pending ∈ state.driver.pending, pending.seq ≠ record.seq

instance (state : State) : (event : Event) → Decidable (Covered state event)
  | .send _ _ _ _ => inferInstanceAs (Decidable True)
  | .feedback _ _ =>
      -- By the last sample, not by the finitely many values it could have.
      @Option.decidableForallMem _ _
        (fun _ => inferInstanceAs (Decidable (∀ _ ∈ _, _ → _ ∧ ∀ _ ∈ _, _))) _

/-- Where the records are: the history holds the newest ones, the pending map
older ones, and the reports older ones that are in neither. -/
structure Accounted (state : State) : Prop where
  window : Window state.history state.stamped
  sorted : state.driver.pending.Pairwise (·.seq < ·.seq)
  older : ∀ record ∈ state.driver.pending,
    record.serial + state.history.length < state.stamped
  reported : ∀ report ∈ state.driver.reports,
    report.record.serial + state.history.length < state.stamped
  apart : ∀ record ∈ state.driver.pending, ∀ report ∈ state.driver.reports,
    record.serial ≠ report.record.serial
  once : state.driver.reports.Pairwise (·.record.serial ≠ ·.record.serial)

/-- Every arrival that was given is among the reports. -/
def Reported (state : State) : Prop :=
  ∀ owed ∈ state.owed, ∃ report ∈ state.driver.reports,
    report.record.serial = owed.1 ∧
      report.received.map Prod.snd = some owed.2

/-- In a list with distinct keys, a key picks out one element. -/
theorem filter_key_eq_singleton {α β : Type*} [DecidableEq β] (key : α → β)
    {list : List α} (hdistinct : list.Pairwise (key · ≠ key ·)) {elem : α}
    (hmem : elem ∈ list) :
    list.filter (fun other => decide (key other = key elem)) = [elem] := by
  induction list with
  | nil => cases hmem
  | cons first rest ih =>
      obtain ⟨hfirst, hrest⟩ := List.pairwise_cons.mp hdistinct
      rcases List.mem_cons.mp hmem with rfl | hin
      · have hnone : rest.filter
            (fun other => decide (key other = key elem)) = [] := by
          rw [List.filter_eq_nil_iff]
          intro other hother heq
          exact hfirst other hother (of_decide_eq_true heq).symm
        simp [hnone]
      · rw [List.filter_cons_of_neg (by simpa using hfirst elem hin),
          ih hrest hin]

theorem exactlyOnce_of_reported {state : State} (haccounted : Accounted state)
    (hreported : Reported state) : ExactlyOnce state := by
  intro owed howed
  obtain ⟨report, hreport, hserial, hreceived⟩ := hreported owed howed
  have hsingle := filter_key_eq_singleton
    (fun report : TwccSendRecord => report.record.serial) haccounted.once
    hreport
  rw [hserial] at hsingle
  rw [hsingle, List.map_singleton, hreceived]

theorem accounted_start (nowAgentUs : ℕ) : Accounted (start nowAgentUs) where
  window := window_nil
  sorted := List.Pairwise.nil
  older := by simp [start, BweDriver.new]
  reported := by simp [start, BweDriver.new, reports]
  apart := by simp [start, BweDriver.new]
  once := List.Pairwise.nil

theorem length_push_le (history : List SendRecord) (record : SendRecord) :
    (SendHistory.push history record).length ≤ history.length + 1 := by
  rw [SendHistory.push]
  split <;> simp

theorem accounted_send {state : State} (haccounted : Accounted state)
    (sentUs : ℕ) (bytes : UInt32) (padding : Bool) (cluster : Option ℕ) :
    Accounted (step state (.send sentUs bytes padding cluster)) := by
  have hlength := length_push_le state.history
    ⟨state.stamped, sentUs, bytes, padding, cluster⟩
  exact
    { window := haccounted.window.push rfl
      sorted := haccounted.sorted
      older := fun record hrecord => by
        have := haccounted.older record hrecord
        simp only [step]
        omega
      reported := fun report hreport => by
        have := haccounted.reported report hreport
        simp only [step]
        omega
      apart := haccounted.apart
      once := haccounted.once }

/-- While a batch is processed, the records that wait are the drained ones and
pending ones, all older than what is left in the history. -/
theorem awaiting_cases {state : State} (haccounted : Accounted state)
    (maxSeq : UInt32) {record : SendRecord}
    (hrecord : record ∈ state.driver.awaiting
      (takeUpto state.history maxSeq).1) :
    (record ∈ (takeUpto state.history maxSeq).1 ∨
        record ∈ state.driver.pending) ∧
      record.serial + (takeUpto state.history maxSeq).2.length <
        state.stamped := by
  have hwindow := haccounted.window
  rw [← takeUpto_append state.history maxSeq] at hwindow
  have hlength : (takeUpto state.history maxSeq).2.length ≤
      state.history.length := (List.dropWhile_suffix _).length_le
  have hdistinct : (takeUpto state.history maxSeq).1.Pairwise
      (·.seq ≠ ·.seq) :=
    haccounted.window.distinct.sublist (List.takeWhile_prefix _).sublist
  rcases (mem_foldl_insert hdistinct).mp hrecord with hdrained | ⟨hold, -⟩
  · exact ⟨Or.inl hdrained, hwindow.front_lt hdrained⟩
  · have := haccounted.older record hold
    exact ⟨Or.inr hold, by omega⟩

/-- Records that wait together are told apart by their serials. -/
theorem awaiting_distinct {state : State} (haccounted : Accounted state)
    (sent : List SendRecord) :
    (state.driver.awaiting sent).Pairwise (·.serial ≠ ·.serial) := by
  refine (sorted_foldl_insert haccounted.sorted sent).imp ?_
  intro left right hlt heq
  exact UInt32.ne_of_lt hlt (congrArg wire heq)

/-- A record that waits has not been reported yet. -/
theorem awaiting_apart {state : State} (haccounted : Accounted state)
    (maxSeq : UInt32) {record : SendRecord}
    (hrecord : record ∈ state.driver.awaiting
      (takeUpto state.history maxSeq).1) :
    ∀ report ∈ state.driver.reports, record.serial ≠ report.record.serial := by
  intro report hreport
  rcases (awaiting_cases haccounted maxSeq hrecord).1 with hdrained | hold
  · have hmem := (List.takeWhile_prefix _).subset hdrained
    have hrecent := haccounted.window.recent hmem
    have hreported := haccounted.reported report hreport
    omega
  · exact haccounted.apart record hold report hreport

/-- The record of a new report waited, and does not wait any longer. -/
theorem new_report_cases {driver : BweDriver} {sent : List SendRecord}
    {batch : PacketFeedback} {nowUs : ℕ} {report : TwccSendRecord}
    (hreport : report ∈ (driver.onFeedback sent batch nowUs).reports) :
    report ∈ driver.reports ∨
      report.record ∈ driver.awaiting sent ∧
        ∀ record ∈ (driver.onFeedback sent batch nowUs).pending,
          record ≠ report.record := by
  obtain ⟨driver', hreports⟩ := reports_onFeedback driver sent batch nowUs
  rw [hreports] at hreport
  rw [pending_onFeedback]
  simp only [List.mem_append, List.mem_filterMap, List.mem_map,
    List.mem_filter] at hreport ⊢
  rcases hreport with hold | ⟨record, hrecord, hfound⟩ |
    ⟨record, ⟨⟨hrecord, hnone⟩, hexpired⟩, rfl⟩
  · exact Or.inl hold
  · obtain ⟨remote, hremote, rfl⟩ := Option.map_eq_some_iff.mp hfound
    refine Or.inr ⟨hrecord, ?_⟩
    rintro other ⟨⟨-, hnone⟩, -⟩ rfl
    simp [hremote] at hnone
  · refine Or.inr ⟨hrecord, ?_⟩
    rintro other ⟨-, hfresh⟩ heq
    rw [show other = record from heq, hexpired] at hfresh
    cases hfresh

/-- One batch reports no record twice. -/
theorem once_onFeedback {state : State} (haccounted : Accounted state)
    (maxSeq : UInt32) (batch : PacketFeedback) (nowUs : ℕ) :
    (state.driver.onFeedback (takeUpto state.history maxSeq).1 batch
      nowUs).reports.Pairwise (·.record.serial ≠ ·.record.serial) := by
  have hdistinct := awaiting_distinct haccounted
    (takeUpto state.history maxSeq).1
  have hapart : ∀ record ∈ state.driver.awaiting
      (takeUpto state.history maxSeq).1, ∀ report ∈ state.driver.reports,
      record.serial ≠ report.record.serial :=
    fun record hrecord => awaiting_apart haccounted maxSeq hrecord
  obtain ⟨driver', hreports⟩ := reports_onFeedback state.driver
    (takeUpto state.history maxSeq).1 batch nowUs
  rw [hreports]
  generalize state.driver.awaiting (takeUpto state.history maxSeq).1 =
    waiting at hdistinct hapart
  rw [List.pairwise_append, List.pairwise_append, List.pairwise_filterMap,
    List.pairwise_map]
  refine ⟨haccounted.once, ⟨?_, ?_, ?_⟩, ?_⟩
  · refine hdistinct.imp ?_
    intro left right hne report hreport report' hreport'
    obtain ⟨remote, -, rfl⟩ := Option.map_eq_some_iff.mp hreport
    obtain ⟨remote', -, rfl⟩ := Option.map_eq_some_iff.mp hreport'
    exact hne
  · exact (hdistinct.filter _).filter _
  · intro report hreport report' hreport' heq
    obtain ⟨record, hrecord, hfound⟩ := List.mem_filterMap.mp hreport
    obtain ⟨remote, hremote, rfl⟩ := Option.map_eq_some_iff.mp hfound
    obtain ⟨record', hrecord', rfl⟩ := List.mem_map.mp hreport'
    simp only [List.mem_filter] at hrecord'
    have hsame : record.seq = record'.seq := congrArg wire heq
    rw [← hsame, hremote] at hrecord'
    exact absurd hrecord'.1.2 (by simp)
  · intro report hreport report' hreport' heq
    rcases List.mem_append.mp hreport' with hmem | hmem
    · obtain ⟨record, hrecord, hfound⟩ := List.mem_filterMap.mp hmem
      obtain ⟨remote, -, rfl⟩ := Option.map_eq_some_iff.mp hfound
      exact hapart record hrecord report hreport heq.symm
    · obtain ⟨record, hrecord, rfl⟩ := List.mem_map.mp hmem
      simp only [List.mem_filter] at hrecord
      exact hapart record hrecord.1.1 report hreport heq.symm

theorem accounted_feedback {state : State} (haccounted : Accounted state)
    (batch : PacketFeedback) (nowUs : ℕ) :
    Accounted (step state (.feedback batch nowUs)) := by
  simp only [step]
  split
  case h_1 => exact haccounted
  case h_2 maxSeq delta _ =>
      have hwindow := haccounted.window
      rw [← takeUpto_append state.history maxSeq] at hwindow
      have hlength : (takeUpto state.history maxSeq).2.length ≤
          state.history.length := (List.dropWhile_suffix _).length_le
      have hpending : ∀ record ∈ (state.driver.onFeedback
          (takeUpto state.history maxSeq).1 batch nowUs).pending,
          record ∈ state.driver.awaiting
            (takeUpto state.history maxSeq).1 := by
        intro record hrecord
        rw [pending_onFeedback] at hrecord
        exact (List.mem_filter.mp (List.mem_filter.mp hrecord).1).1
      exact
        { window := hwindow.suffix
          sorted := by
            rw [pending_onFeedback]
            exact ((sorted_foldl_insert haccounted.sorted _).filter _).filter _
          older := fun record hrecord =>
            (awaiting_cases haccounted maxSeq (hpending record hrecord)).2
          reported := fun report hreport => by
            rcases new_report_cases hreport with hold | ⟨hrecord, -⟩
            · have := haccounted.reported report hold
              dsimp only
              omega
            · exact (awaiting_cases haccounted maxSeq hrecord).2
          apart := fun record hrecord report hreport heq => by
            rcases new_report_cases hreport with hold | ⟨hreported, hgone⟩
            · exact awaiting_apart haccounted maxSeq
                (hpending record hrecord) report hold heq
            · have hnodup := List.pairwise_map.mpr
                (awaiting_distinct haccounted
                  (takeUpto state.history maxSeq).1)
              exact hgone record hrecord (List.inj_on_of_nodup_map hnodup
                (hpending record hrecord) hreported heq)
          once := once_onFeedback haccounted maxSeq batch nowUs }

theorem accounted_step (state : State) (event : Event)
    (haccounted : Accounted state) : Accounted (step state event) := by
  cases event with
  | send sentUs bytes padding cluster =>
      exact accounted_send haccounted sentUs bytes padding cluster
  | feedback batch nowUs => exact accounted_feedback haccounted batch nowUs

/-- A covered batch reports every arrival that it gives for a record of the
history or of the pending map. -/
theorem reported_step (state : State) (event : Event)
    (haccounted : Accounted state) (hreported : Reported state)
    (hcovered : Covered state event) : Reported (step state event) := by
  cases event with
  | send sentUs bytes padding cluster => exact hreported
  | feedback batch nowUs =>
      simp only [step]
      split
      case h_1 => exact hreported
      case h_2 maxSeq delta hlast =>
          have hdistinct : (takeUpto state.history maxSeq).1.Pairwise
              (·.seq ≠ ·.seq) :=
            haccounted.window.distinct.sublist
              (List.takeWhile_prefix _).sublist
          have hcovers := hcovered (maxSeq, delta) hlast
          obtain ⟨driver', hreports⟩ := reports_onFeedback state.driver
            (takeUpto state.history maxSeq).1 batch nowUs
          intro owed howed
          rcases List.mem_append.mp howed with hold | hnew
          · obtain ⟨report, hreport, hmatch⟩ := hreported owed hold
            refine ⟨report, ?_, hmatch⟩
            rw [hreports]
            exact List.mem_append_left _ hreport
          · obtain ⟨record, hrecord, hfound⟩ := List.mem_filterMap.mp hnew
            obtain ⟨arrival, harrival, rfl⟩ := Option.map_eq_some_iff.mp hfound
            have hawaits : record ∈ state.driver.awaiting
                (takeUpto state.history maxSeq).1 := by
              rw [awaiting, mem_foldl_insert hdistinct]
              rcases List.mem_append.mp hrecord with hmem | hmem
              · exact Or.inl ((mem_takeUpto_iff
                  haccounted.window.increasing).mpr
                  ⟨hmem, (hcovers record hmem (by simp [harrival])).1⟩)
              · refine Or.inr ⟨hmem, fun drained hdrained heq => ?_⟩
                have hin := (List.takeWhile_prefix _).subset hdrained
                exact (hcovers drained hin (by simp [← heq, harrival])).2
                  record hmem heq
            refine ⟨driver'.report (some (driver'.lastNow, arrival)) record,
              ?_, rfl, rfl⟩
            rw [hreports]
            refine List.mem_append_right _ (List.mem_append_left _ ?_)
            exact List.mem_filterMap.mpr
              ⟨record, hawaits, by rw [harrival]; rfl⟩

/-- In a run whose batches are all covered, every arrival that was given for a
known record is reported to the estimator exactly once, with its own send and
receive times. -/
theorem exactlyOnce_of_covered (nowAgentUs : ℕ) (events : List Event)
    (hcovered : EventRun.Along step Covered (start nowAgentUs) events) :
    ExactlyOnce (events.foldl step (start nowAgentUs)) := by
  have hstep : ∀ state event, Accounted state ∧ Reported state →
      Covered state event →
      Accounted (step state event) ∧ Reported (step state event) :=
    fun state event h hcond => ⟨accounted_step state event h.1,
      reported_step state event h.1 h.2 hcond⟩
  have hinit : Accounted (start nowAgentUs) ∧ Reported (start nowAgentUs) :=
    ⟨accounted_start nowAgentUs, by simp [Reported, start]⟩
  have hfinal := EventRun.foldl_invariant hstep hinit hcovered
  exact exactlyOnce_of_reported hfinal.1 hfinal.2

def threeSends : List Event :=
  [.send 1000 1200 false none, .send 1100 1200 false none,
    .send 1200 1200 false none]

/-- Three datagrams arrive in order. -/
def orderedBatch : List Event :=
  threeSends ++ [.feedback ⟨10000, [(0, 0), (1, 100), (2, 200)]⟩ 20000]

theorem exactlyOnce_orderedBatch :
    ExactlyOnce (orderedBatch.foldl step (start 0)) :=
  exactlyOnce_of_covered 0 orderedBatch (by decide)

/-- The second and the third datagram swap places on the way, so the batch
ends with the lower number. -/
def reorderedBatch : List Event :=
  threeSends ++
    [.feedback ⟨10000, [(0, 0), (2, 100), (1, 200)]⟩ 20000,
      .send 600000 1200 false none,
      .feedback ⟨610000, [(3, 0)]⟩ 620000]

/-- The third datagram arrived and is reported as lost. -/
theorem not_exactlyOnce_reorderedBatch :
    ¬ ExactlyOnce (reorderedBatch.foldl step (start 0)) ∧
      (2, 10100) ∈ (reorderedBatch.foldl step (start 0)).owed ∧
      ((reorderedBatch.foldl step (start 0)).driver.reports.filter fun report =>
          decide (report.record.serial = 2)).map (·.received) = [none] := by
  decide

end Feedback

end GameStreamer
