import GameStreamer.Core.EventRun
import GameStreamer.Session.ProbeHeard
import GameStreamer.Session.ProbeLedger

/-!
# Probes over whole runs

The driver keeps the ledger of its probe clusters as long as no tick starts a
cluster while another is active.  A tick that does overwrites the active probe,
and nothing ends the overwritten cluster any more.  Whether a tick starts one
is read off the controller before the tick.
-/

namespace GameStreamer

/-- The driver with all that happened to its clusters, which the code does not
keep: the starts, the ends with their times, and the outcomes. -/
structure ProbeRun (Bitrate : Type*) where
  driver : ProbeDriver Bitrate
  /-- The clusters that were started. -/
  registered : List ℕ
  /-- The clusters that were ended, each with the time. -/
  ended : List (ℕ × ℕ)
  /-- The finalized clusters with their results. -/
  outcomes : List (ℕ × ProbeResult Bitrate)
  /-- How many clumped results were counted. -/
  clumped : ℕ
  lastTick : ℕ
  deriving DecidableEq, Repr

inductive ProbeEvent (Bitrate : Type*) where
  | tick (nowUs : ℕ) (env : Controllers Bitrate)
  | feedback (sent : List SendRecord) (batch : PacketFeedback) (nowUs : ℕ)
      (env : Controllers Bitrate)
  deriving DecidableEq, Repr

namespace ProbeRun

open EventRun

variable {Bitrate : Type*} (ops : BitrateOps Bitrate)

def start (nowUs : ℕ) : ProbeRun Bitrate := ⟨.new nowUs, [], [], [], 0, 0⟩

/-- The cluster that a tick ends. -/
def expired (driver : ProbeDriver Bitrate) (now : ℕ) : Option (ℕ × ℕ) :=
  (driver.activeProbe.filter fun probe => probe.2 ≤ now).map fun probe =>
    (probe.1, now)

/-- What a timeout finalizes. -/
def finalized (estimator : ProbeEstimator Bitrate) (now : ℕ) :
    List (ℕ × ProbeResult Bitrate) :=
  (estimator.states.filter (ProbeEstimatorState.due now)).map fun state =>
    (state.config.cluster, state.doCalculateBitrate ops)

def step (run : ProbeRun Bitrate) : ProbeEvent Bitrate → ProbeRun Bitrate
  | .tick nowUs env =>
      let now := run.driver.tickNow nowUs
      let estimator := (run.driver.endExpired now).bwe.probeEstimator
      let (job, driver) := run.driver.onTick ops nowUs env
      { driver
        registered := run.registered ++ (job.map ProbeJob.cluster).toList
        ended := run.ended ++ (expired run.driver now).toList
        outcomes := run.outcomes ++ finalized ops estimator now
        clumped := run.clumped +
          (estimator.handleTimeout ops now).clumpedProbes
        lastTick := now }
  | .feedback sent batch nowUs env =>
      { run with driver := run.driver.onFeedback ops sent batch nowUs env }

/-- Ended, and from the first tick a second later on finalized. -/
def Settles (run : ProbeRun Bitrate) (cluster : ℕ) : Prop :=
  ∃ endedAt, (cluster, endedAt) ∈ run.ended ∧
    (cluster ∈ run.outcomes.map Prod.fst ∨
      run.lastTick < endedAt + 1000000 ∧
        ∃ state ∈ run.driver.bwe.probeEstimator.states,
          state.config.cluster = cluster ∧
          state.finalizeAt = some (endedAt + 1000000))

/-- No registered cluster is forgotten: all but the active one were ended, and
were finalized and counted once by the first tick a second later. -/
structure Accounted (run : ProbeRun Bitrate) : Prop where
  settles : ∀ cluster ∈ run.registered,
    run.driver.activeProbe.map Prod.fst ≠ some cluster → run.Settles cluster
  /-- The outcomes are counted once, and the clumped ones as such. -/
  once : (run.outcomes.map Prod.fst).Nodup
  counted : run.clumped =
    (run.outcomes.filter fun outcome => outcome.2.clumped).length

/-- Before the deadline of the active probe no other cluster is due: with what
the tick tells the controller, none is pending, and congestion forbids probing
or the first kind of probe that is due asks for too small a rate. -/
def Spaced (run : ProbeRun Bitrate) : ProbeEvent Bitrate → Prop
  | .tick nowUs env =>
      ∀ probe ∈ run.driver.activeProbe,
        run.driver.tickNow nowUs < probe.2 →
          ¬(run.driver.bwe.heard ops (run.driver.tickNow nowUs) env).Due ops
            (run.driver.tickNow nowUs)
  | .feedback _ _ _ _ => True

/-! ## The ledger of a run -/

def slot (state : ProbeEstimatorState Bitrate) : Slot :=
  ⟨state.config.cluster, state.createdAt, state.finalizeAt⟩

def ledger (run : ProbeRun Bitrate) : ProbeLedger where
  slots := run.driver.bwe.probeEstimator.states.map slot
  active := run.driver.activeProbe
  registered := run.registered
  ended := run.ended
  finalized := run.outcomes.map Prod.fst
  lastTick := run.lastTick

section Estimator

open ProbeEstimator

theorem slot_update (state : ProbeEstimatorState Bitrate)
    (record : TwccSendRecord) : slot (state.update record).2 = slot state := by
  rw [ProbeEstimatorState.update]
  split <;> rfl

theorem slots_modify_of_keeps (cluster : ℕ)
    {change : ProbeEstimatorState Bitrate → ProbeEstimatorState Bitrate}
    (hchange : ∀ state, slot (change state) = slot state)
    (states : List (ProbeEstimatorState Bitrate)) :
    (modifyCluster cluster change states).map slot = states.map slot := by
  induction states with
  | nil => rfl
  | cons state states ih =>
      rw [modifyCluster]
      split_ifs
      · rw [List.map_cons, hchange, List.map_cons]
      · rw [List.map_cons, ih, List.map_cons]

/-- Ends are by the first state of a cluster, which has no other. -/
theorem slots_modify_endProbe (cluster now : ℕ)
    {states : List (ProbeEstimatorState Bitrate)}
    (hdistinct : ((states.map slot).map Slot.cluster).Nodup) :
    (modifyCluster cluster (·.endProbe now) states).map slot =
      (states.map slot).map (Slot.endAt cluster now) := by
  induction states with
  | nil => rfl
  | cons state states ih =>
      rw [List.map_cons, List.map_cons, List.nodup_cons] at hdistinct
      obtain ⟨hnew, hrest⟩ := hdistinct
      rw [modifyCluster]
      split_ifs with hsame
      · have hslot : (slot state).cluster = cluster := hsame
        have hothers : (states.map slot).map (Slot.endAt cluster now) =
            states.map slot := by
          calc (states.map slot).map (Slot.endAt cluster now)
              = (states.map slot).map id := by
                apply List.map_congr_left
                intro other hother
                apply Slot.endAt_of_ne
                intro heq
                rw [hslot, ← heq] at hnew
                exact hnew (List.mem_map_of_mem hother)
            _ = states.map slot := List.map_id _
        rw [List.map_cons, List.map_cons, List.map_cons, hothers, Slot.endAt,
          if_pos hslot]
        rfl
      · rw [List.map_cons, ih hrest, List.map_cons, List.map_cons,
          Slot.endAt_of_ne hsame]

theorem slots_updateRecord (updated : List ℕ × ProbeEstimator Bitrate)
    (record : TwccSendRecord) :
    (updateRecord updated record).2.states.map slot =
        updated.2.states.map slot ∧
      (updateRecord updated record).2.clumpedProbes =
        updated.2.clumpedProbes := by
  rw [updateRecord]
  split
  · exact ⟨rfl, rfl⟩
  · split
    · exact ⟨rfl, rfl⟩
    · exact ⟨slots_modify_of_keeps _ (fun state => slot_update state record) _,
        rfl⟩

/-- Feedback only fills the states. -/
theorem slots_update (estimator : ProbeEstimator Bitrate)
    (records : List TwccSendRecord) :
    (estimator.update ops records).2.states.map slot =
        estimator.states.map slot ∧
      (estimator.update ops records).2.clumpedProbes =
        estimator.clumpedProbes := by
  have hfold : ∀ updated : List ℕ × ProbeEstimator Bitrate,
      (records.foldl updateRecord updated).2.states.map slot =
          updated.2.states.map slot ∧
        (records.foldl updateRecord updated).2.clumpedProbes =
          updated.2.clumpedProbes := by
    induction records with
    | nil => exact fun _ => ⟨rfl, rfl⟩
    | cons record records ih =>
        intro updated
        have hrecord := slots_updateRecord updated record
        have hrest := ih (updateRecord updated record)
        exact ⟨hrest.1.trans hrecord.1, hrest.2.trans hrecord.2⟩
  exact hfold ([], estimator)

theorem slots_handleTimeout (estimator : ProbeEstimator Bitrate) (now : ℕ) :
    (estimator.handleTimeout ops now).states.map slot =
      (estimator.states.map slot).filter fun slot => !slot.due now := by
  rw [List.filter_map]
  rfl

theorem clusters_finalized (estimator : ProbeEstimator Bitrate) (now : ℕ) :
    (finalized ops estimator now).map Prod.fst =
      ((estimator.states.map slot).filter (Slot.due now)).map
        Slot.cluster := by
  rw [finalized, List.filter_map, List.map_map, List.map_map]
  rfl

theorem probeStart_of_lt {estimator : ProbeEstimator Bitrate}
    (hroom : estimator.states.length < maxActiveProbes)
    (config : ProbeClusterConfig Bitrate) (now : ℕ) :
    (estimator.probeStart config now).2 = { estimator with
      states := estimator.states ++ [.new config now] } := by
  rw [probeStart, if_neg (Nat.not_le.mpr hroom),
    if_neg (Nat.not_le.mpr hroom)]

end Estimator

section SendSide

open ProbeControl SendSideEstimator

theorem queues_propagateEstimate (bwe : SendSideEstimator Bitrate)
    (env : Controllers Bitrate) :
    Queues bwe.probeControl (bwe.propagateEstimate ops env).probeControl ∧
      (bwe.propagateEstimate ops env).probeEstimator =
        bwe.probeEstimator := by
  rw [propagateEstimate]
  split
  · exact ⟨Queues.refl _, rfl⟩
  · split_ifs
    · exact ⟨Queues.refl _, rfl⟩
    · exact ⟨queues_setEstimatedBitrate ops _ _ _, rfl⟩

/-- Outcomes tune the controller and leave its clusters alone. -/
theorem queues_foldl {α : Type*} (results : List α)
    {change : ProbeControl Bitrate → α → ProbeControl Bitrate}
    (hchange : ∀ control result, Queues control (change control result))
    (control : ProbeControl Bitrate) :
    Queues control (results.foldl change control) := by
  induction results generalizing control with
  | nil => exact Queues.refl control
  | cons result results ih => exact (hchange control result).trans (ih _)

theorem receive_spec (env : Controllers Bitrate)
    (bwe : SendSideEstimator Bitrate) (call : BweCall) :
    Queues bwe.probeControl (receive ops env bwe call).probeControl ∧
      (receive ops env bwe call).probeEstimator.states.map slot =
        bwe.probeEstimator.states.map slot ∧
      (receive ops env bwe call).probeEstimator.clumpedProbes =
        bwe.probeEstimator.clumpedProbes := by
  cases call with
  | mediaSent bytes sentAt => exact ⟨Queues.refl _, rfl, rfl⟩
  | update records now =>
      rw [receive, update]
      dsimp only
      obtain ⟨hqueues, hestimator⟩ := queues_propagateEstimate ops
        { bwe with
          probeControl := (bwe.probeEstimator.update ops records).1.foldl
            (fun control result => control.onProbeOutcome ops (some result.2)
              result.1.targetBitrate env.overusing) bwe.probeControl
          probeEstimator := (bwe.probeEstimator.update ops records).2 } env
      rw [hestimator]
      refine ⟨Queues.trans ?_ hqueues, slots_update ops _ records⟩
      exact queues_foldl _ (fun _ _ => queues_onProbeOutcome ops _ _ _ _) _

theorem receive_foldl_spec (env : Controllers Bitrate)
    (bwe : SendSideEstimator Bitrate) (calls : List BweCall) :
    Queues bwe.probeControl
        (calls.foldl (receive ops env) bwe).probeControl ∧
      (calls.foldl (receive ops env) bwe).probeEstimator.states.map slot =
        bwe.probeEstimator.states.map slot ∧
      (calls.foldl (receive ops env) bwe).probeEstimator.clumpedProbes =
        bwe.probeEstimator.clumpedProbes := by
  induction calls generalizing bwe with
  | nil => exact ⟨Queues.refl _, rfl, rfl⟩
  | cons call calls ih =>
      obtain ⟨hqueues, hslots, hclumped⟩ := receive_spec ops env bwe call
      obtain ⟨hqueues', hslots', hclumped'⟩ := ih (receive ops env bwe call)
      exact ⟨hqueues.trans hqueues', hslots'.trans hslots,
        hclumped'.trans hclumped⟩

theorem queues_informControl (control : ProbeControl Bitrate)
    (desired : Bitrate) (now : ℕ) (alrStart : Option ℕ) :
    Queues control (informControl ops control desired now alrStart) := by
  have hdesired := queues_setDesiredBitrate ops control desired
  cases alrStart with
  | none => exact hdesired.trans (queues_setAlrStopTime _ now)
  | some t => exact hdesired.trans (queues_setAlrStartTime _ t)

theorem handleTimeout_spec (bwe : SendSideEstimator Bitrate) (now : ℕ)
    (env : Controllers Bitrate) :
    Issues bwe.probeControl
        ((bwe.handleTimeout ops true now env).1,
          (bwe.handleTimeout ops true now env).2.probeControl) ∧
      (bwe.handleTimeout ops true now env).2.probeEstimator =
        { bwe.probeEstimator.handleTimeout ops now with
          clumpedProbes := 0 } := by
  rw [SendSideEstimator.handleTimeout]
  generalize hinformed : (List.replicate
    (bwe.probeEstimator.handleTimeout ops now).clumpedProbes ()).foldl
      (fun control _ =>
        control.onProbeOutcome ops none (ops.bps 0) env.overusing)
      (informControl ops bwe.probeControl env.desired now env.alrStart) =
    informed
  have hqueues : Queues bwe.probeControl informed := by
    rw [← hinformed]
    apply (queues_informControl ops _ _ now _).trans
    exact queues_foldl _ (fun _ _ => queues_onProbeOutcome ops _ _ _ _) _
  obtain ⟨hpropagate, hestimator⟩ := queues_propagateEstimate ops
    { bwe with
      probeControl := informed
      probeEstimator := { bwe.probeEstimator.handleTimeout ops now with
        clumpedProbes := 0 } } env
  refine ⟨?_, hestimator⟩
  obtain ⟨planned, hplanned, hissued⟩ := issues_handleTimeout ops
    ((SendSideEstimator.propagateEstimate ops
      { bwe with
        probeControl := informed
        probeEstimator := { bwe.probeEstimator.handleTimeout ops now with
          clumpedProbes := 0 } } env).probeControl.enable true) now
  exact ⟨planned, ((hqueues.trans hpropagate).trans
    (queues_enable_true _)).trans hplanned, hissued⟩

end SendSide

/-! ## Ticks -/

/-- The clock of the driver at a tick. -/
def clocked (driver : BweDriver) (now : ℕ) : BweDriver :=
  { driver with
    lastNow := now
    calls := driver.calls ++ [.mediaSent 0 now] }

/-- What the estimator decides at a tick, after the expired probe was
ended. -/
def decided (driver : ProbeDriver Bitrate) (now : ℕ)
    (env : Controllers Bitrate) :
    Option (ProbeClusterConfig Bitrate) × SendSideEstimator Bitrate :=
  (driver.endExpired now).bwe.handleTimeout ops true now env

theorem endExpired_clocked (driver : ProbeDriver Bitrate) (now : ℕ) :
    ({ driver with driver := clocked driver.driver now } :
        ProbeDriver Bitrate).endExpired now =
      { driver.endExpired now with driver := clocked driver.driver now } := by
  rw [ProbeDriver.endExpired, ProbeDriver.endExpired]
  dsimp only
  split
  · rfl
  · split_ifs <;> rfl

section Tick

variable {driver : ProbeDriver Bitrate} {nowUs : ℕ} {env : Controllers Bitrate}

theorem onTick_of_none
    (h : (decided ops driver (driver.tickNow nowUs) env).1 = none) :
    driver.onTick ops nowUs env = (none,
      { driver := clocked driver.driver (driver.tickNow nowUs)
        bwe := (decided ops driver (driver.tickNow nowUs) env).2
        activeProbe :=
          (driver.endExpired (driver.tickNow nowUs)).activeProbe }) := by
  have hclocked := endExpired_clocked driver (driver.tickNow nowUs)
  rw [clocked] at hclocked
  rw [ProbeDriver.onTick]
  dsimp only
  rw [hclocked]
  dsimp only
  rw [decided] at h ⊢
  rw [h]
  rfl

theorem onTick_of_some {config : ProbeClusterConfig Bitrate}
    (h : (decided ops driver (driver.tickNow nowUs) env).1 = some config) :
    (driver.onTick ops nowUs env).1.map ProbeJob.cluster =
        some config.cluster ∧
      (driver.onTick ops nowUs env).2 =
        ProbeDriver.startProbe
          { driver := clocked driver.driver (driver.tickNow nowUs)
            bwe := (decided ops driver (driver.tickNow nowUs) env).2
            activeProbe := none } config (driver.tickNow nowUs) := by
  have hclocked := endExpired_clocked driver (driver.tickNow nowUs)
  rw [clocked] at hclocked
  rw [ProbeDriver.onTick]
  dsimp only
  rw [hclocked]
  dsimp only
  rw [decided] at h ⊢
  rw [h]
  exact ⟨rfl, rfl⟩

end Tick

section Refinement

variable {run : ProbeRun Bitrate}
  (hdistinct : (run.ledger.slots.map Slot.cluster).Nodup)

include hdistinct

/-- Ending the expired probe is what the ledger does. -/
theorem expire_ledger (now : ℕ) :
    run.ledger.expire now =
      { slots := (run.driver.endExpired now).bwe.probeEstimator.states.map slot
        active := (run.driver.endExpired now).activeProbe
        registered := run.registered
        ended := run.ended ++ (expired run.driver now).toList
        finalized := run.outcomes.map Prod.fst
        lastTick := now } := by
  have hactive : run.ledger.active = run.driver.activeProbe := rfl
  rw [ProbeLedger.expire, hactive, ProbeDriver.endExpired, expired]
  cases hprobe : run.driver.activeProbe with
  | none =>
      ext1
      case ended => exact (List.append_nil _).symm
      all_goals first | rfl | exact hprobe.symm
  | some probe =>
      obtain ⟨cluster, deadline⟩ := probe
      dsimp only
      split_ifs with hpassed
      · ext1
        case slots => exact (slots_modify_endProbe cluster now hdistinct).symm
        case ended =>
          rw [Option.filter_some, if_pos (decide_eq_true hpassed)]
          rfl
        all_goals rfl
      · ext1
        case ended =>
          rw [Option.filter_some, if_neg (by simpa using hpassed)]
          exact (List.append_nil _).symm
        all_goals first | rfl | exact hprobe.symm

/-- Finalizing is what the ledger does. -/
theorem finalize_ledger (now : ℕ) (env : Controllers Bitrate) :
    (run.ledger.expire now).finalize =
      { slots :=
          (decided ops run.driver now env).2.probeEstimator.states.map slot
        active := (run.driver.endExpired now).activeProbe
        registered := run.registered
        ended := run.ended ++ (expired run.driver now).toList
        finalized := (run.outcomes ++ finalized ops
          (run.driver.endExpired now).bwe.probeEstimator now).map Prod.fst
        lastTick := now } := by
  have hestimator := (handleTimeout_spec ops
    (run.driver.endExpired now).bwe now env).2
  rw [expire_ledger hdistinct, ProbeLedger.finalize, decided, hestimator,
    List.map_append, clusters_finalized, slots_handleTimeout]

theorem ledger_tick_of_none {nowUs : ℕ} {env : Controllers Bitrate}
    (h : (decided ops run.driver (run.driver.tickNow nowUs) env).1 = none) :
    (step ops run (.tick nowUs env)).ledger =
      (run.ledger.expire (run.driver.tickNow nowUs)).finalize := by
  rw [finalize_ledger ops hdistinct _ env, ledger, step, onTick_of_none ops h]
  ext1
  case registered => exact List.append_nil _
  all_goals rfl

/-- A tick that starts a probe launches it, where the table has room. -/
theorem ledger_tick_of_some {nowUs : ℕ} {env : Controllers Bitrate}
    {config : ProbeClusterConfig Bitrate}
    (h : (decided ops run.driver (run.driver.tickNow nowUs) env).1 =
      some config)
    (hroom : (run.ledger.expire
      (run.driver.tickNow nowUs)).finalize.slots.length <
        ProbeEstimator.maxActiveProbes) :
    (step ops run (.tick nowUs env)).ledger =
      (run.ledger.expire (run.driver.tickNow nowUs)).finalize.launch
        config.cluster config.targetDuration := by
  obtain ⟨hjob, hdriver⟩ := onTick_of_some ops h
  rw [finalize_ledger ops hdistinct _ env, List.length_map] at hroom
  rw [finalize_ledger ops hdistinct _ env, ledger, step]
  dsimp only
  rw [hdriver, hjob, ProbeDriver.startProbe, probeStart_of_lt hroom]
  ext1
  case slots => exact List.map_append
  all_goals rfl

end Refinement

/-! ## Fresh ids -/

/-- The started clusters and then the pending ones have ascending ids, and the
next id is above them. -/
structure Fresh (registered : List ℕ) (control : ProbeControl Bitrate) :
    Prop where
  ascending : (registered ++
    control.pending.map ProbeClusterConfig.cluster).Pairwise (· < ·)
  next : ∀ id ∈ registered ++ control.pending.map ProbeClusterConfig.cluster,
    id < control.nextClusterId

theorem Fresh.queues {registered : List ℕ}
    {before after : ProbeControl Bitrate} (h : Fresh registered before)
    (hqueues : ProbeControl.Queues before after) : Fresh registered after := by
  obtain ⟨configs, hpending, hids, hnext⟩ := hqueues
  have hall : registered ++ after.pending.map ProbeClusterConfig.cluster =
      (registered ++ before.pending.map ProbeClusterConfig.cluster) ++
        List.range' before.nextClusterId configs.length := by
    rw [hpending, List.map_append, hids, List.append_assoc]
  refine ⟨?_, ?_⟩
  · rw [hall, List.pairwise_append]
    refine ⟨h.ascending, List.pairwise_lt_range', ?_⟩
    intro id hid other hother
    exact lt_of_lt_of_le (h.next id hid) (List.mem_range'_1.mp hother).1
  · intro id hid
    rw [hall] at hid
    rw [hnext]
    obtain hid | hid := List.mem_append.mp hid
    · exact Nat.lt_add_right _ (h.next id hid)
    · exact (List.mem_range'_1.mp hid).2

/-- An issued cluster moves from the pending ones to the started ones. -/
theorem Fresh.issues {registered : List ℕ} {before : ProbeControl Bitrate}
    {result : Option (ProbeClusterConfig Bitrate) × ProbeControl Bitrate}
    (h : Fresh registered before)
    (hissues : ProbeControl.Issues before result) :
    Fresh (registered ++
      (result.1.map ProbeClusterConfig.cluster).toList) result.2 := by
  obtain ⟨planned, hqueues, hnext, hpending⟩ := hissues
  have hplanned := h.queues hqueues
  have hall : registered ++
      (result.1.map ProbeClusterConfig.cluster).toList ++
        result.2.pending.map ProbeClusterConfig.cluster =
      registered ++ planned.pending.map ProbeClusterConfig.cluster := by
    rw [hpending, List.map_append, List.append_assoc]
    cases result.1 <;> rfl
  refine ⟨?_, ?_⟩
  · rw [hall]
    exact hplanned.ascending
  · rw [hall, hnext]
    exact hplanned.next

theorem Fresh.lt {registered : List ℕ} {id : ℕ}
    {control : ProbeControl Bitrate}
    (h : Fresh (registered ++ [id]) control) :
    ∀ other ∈ registered, other < id := by
  have hascending := (List.pairwise_append.mp h.ascending).1
  exact fun other hother => (List.pairwise_append.mp hascending).2.2 other
    hother id List.mem_cons_self

/-! ## Runs -/

/-- What holds as long as no probe is overwritten. -/
structure Inv (run : ProbeRun Bitrate) : Prop where
  sound : run.ledger.Sound
  prompt : run.ledger.Prompt
  fresh : Fresh run.registered run.driver.bwe.probeControl
  reset : run.driver.bwe.probeEstimator.clumpedProbes = 0
  counted : run.clumped =
    (run.outcomes.filter fun outcome => outcome.2.clumped).length
  clock : run.lastTick ≤ run.driver.driver.lastNow

theorem Inv.distinct {run : ProbeRun Bitrate} (h : Inv run) :
    (run.ledger.slots.map Slot.cluster).Nodup :=
  (h.sound.partition.nodup_iff.mpr h.sound.distinct).of_append_left

theorem Inv.accounted {run : ProbeRun Bitrate} (h : Inv run) :
    Accounted run where
  settles := by
    intro cluster hin hother
    obtain hin | hin :=
      List.mem_append.mp (h.sound.partition.mem_iff.mpr hin)
    · obtain ⟨slot, hslot, rfl⟩ := List.mem_map.mp hin
      obtain ⟨deadline, hactive⟩ | ⟨time, hended, hfinalize, -⟩ :=
        h.sound.collecting slot hslot
      · refine absurd ?_ hother
        have hprobe : run.driver.activeProbe = _ := hactive
        rw [hprobe]
        rfl
      · have hkept := h.prompt slot hslot _ hfinalize
        obtain ⟨state, hstate, rfl⟩ := List.mem_map.mp hslot
        exact ⟨time, hended, Or.inr ⟨hkept, state, hstate, rfl, hfinalize⟩⟩
    · obtain ⟨time, hended⟩ := h.sound.finalized cluster hin
      exact ⟨time, hended, Or.inl hin⟩
  once :=
    (h.sound.partition.nodup_iff.mpr h.sound.distinct).of_append_right
  counted := h.counted

theorem counted_finalized (estimator : ProbeEstimator Bitrate) (now : ℕ) :
    (estimator.handleTimeout ops now).clumpedProbes =
      estimator.clumpedProbes + ((finalized ops estimator now).filter
        fun outcome => outcome.2.clumped).length := by
  rw [finalized, List.filter_map, List.length_map, List.filter_filter,
    ProbeEstimator.handleTimeout]
  dsimp only
  congr 3
  funext state
  exact Bool.and_comm _ _

theorem endExpired_keeps (driver : ProbeDriver Bitrate) (now : ℕ) :
    (driver.endExpired now).bwe.probeControl = driver.bwe.probeControl ∧
      (driver.endExpired now).bwe.probeEstimator.clumpedProbes =
        driver.bwe.probeEstimator.clumpedProbes := by
  rw [ProbeDriver.endExpired]
  split
  · exact ⟨rfl, rfl⟩
  · split_ifs <;> exact ⟨rfl, rfl⟩

theorem clumpedProbes_probeStart (estimator : ProbeEstimator Bitrate)
    (config : ProbeClusterConfig Bitrate) (now : ℕ) :
    (estimator.probeStart config now).2.clumpedProbes =
      estimator.clumpedProbes := by
  rw [ProbeEstimator.probeStart]
  split_ifs <;> rfl

theorem le_lastNow_onFeedback (driver : BweDriver) (sent : List SendRecord)
    (batch : PacketFeedback) (nowUs : ℕ) :
    driver.lastNow ≤ (driver.onFeedback sent batch nowUs).lastNow := by
  have hawait : ∀ driver : BweDriver,
      driver.lastNow ≤ (sent.foldl BweDriver.await driver).lastNow := by
    induction sent with
    | nil => exact fun _ => le_rfl
    | cons record sent ih =>
        intro driver
        apply le_trans _ (ih (driver.await record))
        rw [BweDriver.await]
        split
        · exact le_rfl
        · exact le_max_left _ _
  have hupdate : ∀ (driver : BweDriver) records,
      (driver.update records).lastNow = driver.lastNow := by
    intro driver records
    rw [BweDriver.update]
    split <;> rfl
  rw [BweDriver.onFeedback]
  dsimp only
  rw [hupdate]
  exact le_trans (hawait driver) (le_max_left _ _)

/-- Feedback leaves the ledger alone. -/
theorem Inv.feedback {run : ProbeRun Bitrate} (h : Inv run)
    (sent : List SendRecord) (batch : PacketFeedback) (nowUs : ℕ)
    (env : Controllers Bitrate) :
    Inv (step ops run (.feedback sent batch nowUs env)) := by
  obtain ⟨hqueues, hslots, hclumped⟩ := receive_foldl_spec ops env
    run.driver.bwe
    ((run.driver.driver.onFeedback sent batch nowUs).calls.drop
      run.driver.driver.calls.length)
  have hledger : (step ops run (.feedback sent batch nowUs env)).ledger =
      run.ledger := by
    ext1
    case slots => exact hslots
    all_goals rfl
  refine ⟨?_, ?_, h.fresh.queues hqueues, hclumped.trans h.reset, h.counted,
    ?_⟩
  · rw [hledger]
    exact h.sound
  · rw [hledger]
    exact h.prompt
  · exact le_trans h.clock (le_lastNow_onFeedback _ _ _ _)

section Tick

variable {run : ProbeRun Bitrate} (h : Inv run) (nowUs : ℕ)
  (env : Controllers Bitrate)

include h

theorem Inv.counted_tick :
    (step ops run (.tick nowUs env)).clumped =
      ((step ops run (.tick nowUs env)).outcomes.filter
        fun outcome => outcome.2.clumped).length := by
  have hreset := (endExpired_keeps run.driver
    (run.driver.tickNow nowUs)).2.trans h.reset
  have hcounted := counted_finalized ops
    (run.driver.endExpired (run.driver.tickNow nowUs)).bwe.probeEstimator
    (run.driver.tickNow nowUs)
  rw [hreset, Nat.zero_add] at hcounted
  rw [step]
  dsimp only
  rw [List.filter_append, List.length_append, ← h.counted, hcounted]

/-- The cluster that a tick decides on has the next id. -/
theorem Inv.fresh_decided :
    Fresh (run.registered ++ ((decided ops run.driver
        (run.driver.tickNow nowUs) env).1.map
          ProbeClusterConfig.cluster).toList)
      (decided ops run.driver (run.driver.tickNow nowUs)
        env).2.probeControl := by
  have hissues := (handleTimeout_spec ops
    (run.driver.endExpired (run.driver.tickNow nowUs)).bwe
    (run.driver.tickNow nowUs) env).1
  rw [(endExpired_keeps _ _).1] at hissues
  exact h.fresh.issues hissues

theorem Inv.finalize :
    (run.ledger.expire (run.driver.tickNow nowUs)).finalize.Sound :=
  (h.sound.expire (le_max_of_le_left h.clock)).finalize

omit h in
theorem clumpedProbes_decided (driver : ProbeDriver Bitrate) (now : ℕ) :
    (decided ops driver now env).2.probeEstimator.clumpedProbes = 0 := by
  rw [decided, (handleTimeout_spec ops _ now env).2]

theorem Inv.tick_of_none
    (hnone : (decided ops run.driver (run.driver.tickNow nowUs) env).1 =
      none) : Inv (step ops run (.tick nowUs env)) := by
  have hledger := ledger_tick_of_none ops h.distinct hnone
  have hfresh := h.fresh_decided ops nowUs env
  have hdriver : (step ops run (.tick nowUs env)).driver = _ :=
    congrArg Prod.snd (onTick_of_none ops hnone)
  have hregistered : (step ops run (.tick nowUs env)).registered =
      run.registered := by
    rw [step, onTick_of_none ops hnone]
    exact List.append_nil _
  rw [hnone, Option.map_none, Option.toList_none, List.append_nil] at hfresh
  refine ⟨?_, ?_, ?_, ?_, h.counted_tick ops nowUs env, ?_⟩
  · rw [hledger]
    exact h.finalize nowUs
  · rw [hledger]
    exact ProbeLedger.prompt_finalize _
  · rw [hregistered, hdriver]
    exact hfresh
  · rw [hdriver]
    exact clumpedProbes_decided ops env run.driver _
  · rw [hdriver]
    exact le_rfl

/-- Where no probe is active, the next one may be started. -/
theorem Inv.tick_of_some {config : ProbeClusterConfig Bitrate}
    (hsome : (decided ops run.driver (run.driver.tickNow nowUs) env).1 =
      some config)
    (hidle : (run.driver.endExpired (run.driver.tickNow nowUs)).activeProbe =
      none) : Inv (step ops run (.tick nowUs env)) := by
  have hfinalize := h.finalize nowUs
  have hprompt := ProbeLedger.prompt_finalize
    (run.ledger.expire (run.driver.tickNow nowUs))
  have hactive : (run.ledger.expire
      (run.driver.tickNow nowUs)).finalize.active = none := by
    rw [finalize_ledger ops h.distinct _ env]
    exact hidle
  have hregistered : (run.ledger.expire
      (run.driver.tickNow nowUs)).finalize.registered = run.registered := by
    rw [finalize_ledger ops h.distinct _ env]
  have hroom := lt_of_le_of_lt (hfinalize.length_le hprompt hactive)
    (by decide : 4 < ProbeEstimator.maxActiveProbes)
  have hledger := ledger_tick_of_some ops h.distinct hsome hroom
  have hfresh := h.fresh_decided ops nowUs env
  obtain ⟨hjob, hdriver⟩ := onTick_of_some ops hsome
  rw [hsome, Option.map_some, Option.toList_some] at hfresh
  refine ⟨?_, ?_, ?_, ?_, h.counted_tick ops nowUs env, ?_⟩
  · rw [hledger]
    apply hfinalize.launch _ hactive
    rw [hregistered]
    exact hfresh.lt
  · rw [hledger]
    intro slot hslot time htime
    obtain hslot | hslot := List.mem_append.mp hslot
    · exact hprompt slot hslot time htime
    · obtain rfl := List.mem_singleton.mp hslot
      cases htime
  · have hstarted : (step ops run (.tick nowUs env)).registered =
        run.registered ++ [config.cluster] := by
      rw [step]
      dsimp only
      rw [hjob, Option.toList_some]
    have hcontrol : (step ops run (.tick nowUs env)).driver.bwe.probeControl =
        (decided ops run.driver (run.driver.tickNow nowUs)
          env).2.probeControl := by
      rw [step]
      dsimp only
      rw [hdriver]
      rfl
    rw [hstarted, hcontrol]
    exact hfresh
  · rw [step]
    dsimp only
    rw [hdriver, ProbeDriver.startProbe]
    dsimp only
    rw [clumpedProbes_probeStart]
    exact clumpedProbes_decided ops env run.driver _
  · rw [step]
    dsimp only
    rw [hdriver]
    exact le_rfl

end Tick

/-- An active probe whose deadline is ahead stays. -/
theorem endExpired_of_lt {driver : ProbeDriver Bitrate} {now : ℕ}
    (h : ∀ probe ∈ driver.activeProbe, now < probe.2) :
    driver.endExpired now = driver := by
  rw [ProbeDriver.endExpired]
  split
  · rfl
  case h_2 cluster deadline hactive =>
    exact if_neg (Nat.not_le.mpr (h _ hactive))

theorem activeProbe_endExpired (driver : ProbeDriver Bitrate) (now : ℕ) :
    (driver.endExpired now).activeProbe = none ∨
      ∃ probe, driver.activeProbe = some probe ∧ now < probe.2 := by
  rw [ProbeDriver.endExpired]
  split
  case h_1 hactive => exact Or.inl hactive
  case h_2 cluster deadline hactive =>
    split_ifs with hpassed
    · exact Or.inl rfl
    · exact Or.inr ⟨_, hactive, Nat.lt_of_not_le hpassed⟩

theorem Inv.step {run : ProbeRun Bitrate} (h : Inv run)
    {event : ProbeEvent Bitrate} (hspaced : Spaced ops run event) :
    Inv (run.step ops event) := by
  cases event with
  | feedback sent batch nowUs env => exact h.feedback ops sent batch nowUs env
  | tick nowUs env =>
      cases hdecided : (decided ops run.driver (run.driver.tickNow nowUs)
          env).1 with
      | none => exact h.tick_of_none ops nowUs env hdecided
      | some config =>
          apply h.tick_of_some ops nowUs env hdecided
          obtain hidle | ⟨probe, hactive, hahead⟩ :=
            activeProbe_endExpired run.driver (run.driver.tickNow nowUs)
          · exact hidle
          · have hnone := (run.driver.bwe.handleTimeout_eq_none_iff ops _
              env).mpr (hspaced probe hactive hahead)
            have hkept : run.driver.endExpired (run.driver.tickNow nowUs) =
                run.driver := by
              apply endExpired_of_lt
              rintro _ hprobe
              rw [← Option.some.inj (hactive.symm.trans hprobe)]
              exact hahead
            rw [decided, hkept, hnone] at hdecided
            cases hdecided

theorem expired_of_lt {driver : ProbeDriver Bitrate} {now : ℕ}
    (h : ∀ probe ∈ driver.activeProbe, now < probe.2) :
    expired driver now = none := by
  rw [expired, Option.map_eq_none_iff, Option.filter_eq_none_iff]
  intro probe hactive
  simpa using h probe hactive

/-- An overwritten probe is not accounted for. -/
theorem Inv.spaced {run : ProbeRun Bitrate} (h : Inv run)
    {event : ProbeEvent Bitrate}
    (haccounted : Accounted (run.step ops event)) : Spaced ops run event := by
  cases event with
  | feedback => trivial
  | tick nowUs env =>
      intro probe hactive hahead
      have honly : ∀ other ∈ run.driver.activeProbe,
          run.driver.tickNow nowUs < other.2 := by
        intro other hother
        rw [← Option.some.inj (hactive.symm.trans hother)]
        exact hahead
      rw [← SendSideEstimator.handleTimeout_eq_none_iff]
      by_contra hissued
      obtain ⟨config, hconfig⟩ := Option.ne_none_iff_exists'.mp hissued
      have hdecided : (decided ops run.driver (run.driver.tickNow nowUs)
          env).1 = some config := by
        rw [decided, endExpired_of_lt honly]
        exact hconfig
      obtain ⟨-, hdriver⟩ := onTick_of_some ops hdecided
      obtain ⟨hregistered, hended, -⟩ := h.sound.active _ _ hactive
      have hfresh := h.fresh_decided ops nowUs env
      rw [hdecided, Option.map_some, Option.toList_some] at hfresh
      have hother : (run.step ops (.tick nowUs env)).driver.activeProbe.map
          Prod.fst ≠ some probe.1 := by
        have hnext : (run.step ops (.tick nowUs env)).driver.activeProbe.map
            Prod.fst = some config.cluster := by
          rw [ProbeRun.step]
          dsimp only
          rw [hdriver]
          rfl
        rw [hnext]
        exact fun hsame => (hfresh.lt _ hregistered).ne'
          (Option.some.inj hsame)
      obtain ⟨time, htime, -⟩ := haccounted.settles probe.1
        (List.mem_append_left _ hregistered) hother
      rw [ProbeRun.step] at htime
      dsimp only at htime
      rw [expired_of_lt honly, Option.toList_none, List.append_nil] at htime
      exact hended time htime

theorem inv_start (nowUs : ℕ) : Inv (start nowUs : ProbeRun Bitrate) where
  sound := ProbeLedger.sound_empty
  prompt := nofun
  fresh := ⟨List.Pairwise.nil, nofun⟩
  reset := rfl
  counted := rfl
  clock := le_rfl

/-- Every cluster of a run is ended, finalized and counted exactly when at no
tick before the deadline of the active probe another cluster is due. -/
theorem accounted_iff_spaced (startUs : ℕ)
    (events : List (ProbeEvent Bitrate)) :
    Along (step ops) (fun run event => Accounted (run.step ops event))
        (start startUs) events ↔
      Along (step ops) (Spaced ops) (start startUs) events := by
  apply Iff.symm
  apply along_iff_along Inv
  · exact fun _ _ h hspaced => h.step ops hspaced
  · exact fun _ _ h =>
      ⟨fun hspaced => (h.step ops hspaced).accounted, h.spaced ops⟩
  · exact inv_start startUs

/-- Bitrates without rounding; none of them is infinite. -/
def exactOps : BitrateOps ℚ where
  bps := fun bps => bps
  infinity := -1
  eq := fun left right => left = right
  lt := fun left right => left < right
  le := fun left right => left ≤ right
  min := min
  scale := fun bitrate factor => bitrate * factor
  dataSize := fun bitrate duration => (bitrate * duration / 8000000).floor.toNat
  rate := fun size duration => size * 8000000 / duration
  ratioAbove := fun recv send limit => limit < recv / send

/-- A quiet link, at its start rate. -/
def quiet : Controllers ℚ := ⟨false, some (8000000, .delayBasedLimited), none,
  50000000⟩

/-- Ticks of a new session, the first two a quarter of a second apart. -/
def firstTicks : List (ProbeEvent ℚ) :=
  [.tick 250000 quiet, .tick 500000 quiet, .tick 1000000 quiet,
    .tick 3000000 quiet]

/-- The second tick starts the second of the two initial probes fifteen
milliseconds before the first one's deadline.  Later ticks end and finalize the
second one; the first one is forgotten. -/
theorem not_accounted_firstTicks :
    ¬Along (step exactOps)
        (fun run event => Accounted (run.step exactOps event)) (start 0)
        firstTicks ∧
      (firstTicks.foldl (step exactOps) (start 0)).registered = [0, 1] ∧
      (firstTicks.foldl (step exactOps) (start 0)).driver.activeProbe = none ∧
      (firstTicks.foldl (step exactOps) (start 0)).ended = [(1, 1000000)] ∧
      (firstTicks.foldl (step exactOps) (start 0)).outcomes =
        [(1, .clusterTooSmall 0 4)] := by
  refine ⟨?_, ?_⟩
  · rintro ⟨-, hsecond, -⟩
    have hended : (step exactOps (step exactOps (start 0)
        (.tick 250000 quiet)) (.tick 500000 quiet)).ended = [] := by
      decide +kernel
    obtain ⟨time, htime, -⟩ := hsecond.settles 0 (by decide +kernel)
      (by decide +kernel)
    rw [hended] at htime
    cases htime
  · decide +kernel

end ProbeRun

end GameStreamer
