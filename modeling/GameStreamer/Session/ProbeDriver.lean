import GameStreamer.Session.ProbeEstimator

/-!
# The driver's probes

On a tick the driver ends its active probe once the deadline has passed, and
starts the next one that the controller hands out.  A feedback batch is passed
on to the probe estimator, whose results go back to the controller.  What the
delay, loss and capacity controllers say at a call is an input.
-/

namespace GameStreamer

/-- What the other controllers of the estimator say at a call. -/
structure Controllers (Bitrate : Type*) where
  overusing : Bool
  /-- The estimate and its limiting cause, where there is one to propagate. -/
  estimate : Option (Bitrate × BandwidthLimitedCause)
  alrStart : Option ℕ
  /-- The rate of the last `set_desired_bitrate`. -/
  desired : Bitrate
  deriving DecidableEq, Repr

/-- The part of the send-side estimator that deals with probes. -/
structure SendSideEstimator (Bitrate : Type*) where
  probeControl : ProbeControl Bitrate
  probeEstimator : ProbeEstimator Bitrate
  lastUpdatedEstimate : Option (Bitrate × BandwidthLimitedCause)
  deriving DecidableEq, Repr

/-- The driver with its probes.  It remembers one cluster only, with the
deadline after which it ends it. -/
structure ProbeDriver (Bitrate : Type*) where
  driver : BweDriver
  bwe : SendSideEstimator Bitrate
  /-- Outstanding probe cluster and when to consider it finished. -/
  activeProbe : Option (ℕ × ℕ)
  deriving DecidableEq, Repr

/-- A burst for the pacer. -/
structure ProbeJob (Bitrate : Type*) where
  cluster : ℕ
  rateBps : Bitrate
  duration : ℕ
  minPackets : ℕ
  minDelta : ℕ
  deriving DecidableEq, Repr

variable {Bitrate : Type*} (ops : BitrateOps Bitrate)

namespace SendSideEstimator

def new : SendSideEstimator Bitrate := ⟨.new, .new, none⟩

/-- The same estimate with the same cause. -/
def sameEstimate (left right : Bitrate × BandwidthLimitedCause) : Bool :=
  ops.eq left.1 right.1 && left.2 = right.2

def propagateEstimate (bwe : SendSideEstimator Bitrate)
    (env : Controllers Bitrate) : SendSideEstimator Bitrate :=
  match env.estimate with
  | none => bwe
  | some estimate =>
      if bwe.lastUpdatedEstimate.any (sameEstimate ops · estimate) then bwe
      else { bwe with
        probeControl :=
          bwe.probeControl.setEstimatedBitrate ops estimate.1 estimate.2
        lastUpdatedEstimate := some estimate }

/-- Record the packets of a report. -/
def update (bwe : SendSideEstimator Bitrate) (records : List TwccSendRecord)
    (env : Controllers Bitrate) : SendSideEstimator Bitrate :=
  let (results, probeEstimator) := bwe.probeEstimator.update ops records
  let probeControl := results.foldl (fun control result =>
    control.onProbeOutcome ops (some result.2) result.1.targetBitrate
      env.overusing) bwe.probeControl
  { bwe with probeControl, probeEstimator }.propagateEstimate ops env

/-- The estimator's reaction to a call of the driver. -/
def receive (env : Controllers Bitrate) (bwe : SendSideEstimator Bitrate) :
    BweCall → SendSideEstimator Bitrate
  | .mediaSent _ _ => bwe
  | .update records _ => bwe.update ops records env

/-- Tell the controller what the other controllers say. -/
def informControl (control : ProbeControl Bitrate) (desired : Bitrate)
    (now : ℕ) (alrStart : Option ℕ) : ProbeControl Bitrate :=
  let control := control.setDesiredBitrate ops desired
  match alrStart with
  | some t => control.setAlrStartTime t
  | none => control.setAlrStopTime now

def handleTimeout (bwe : SendSideEstimator Bitrate) (doProbe : Bool)
    (now : ℕ) (env : Controllers Bitrate) :
    Option (ProbeClusterConfig Bitrate) × SendSideEstimator Bitrate :=
  let control := informControl ops bwe.probeControl env.desired now
    env.alrStart
  let finalized := bwe.probeEstimator.handleTimeout ops now
  -- one outcome for every clumped probe
  let control := (List.replicate finalized.clumpedProbes ()).foldl
    (fun control _ =>
      control.onProbeOutcome ops none (ops.bps 0) env.overusing) control
  let bwe := { bwe with
    probeControl := control
    probeEstimator :=
      { finalized with clumpedProbes := 0 } }.propagateEstimate ops env
  let probeEstimator := if doProbe then bwe.probeEstimator
    else bwe.probeEstimator.clearProbes
  let (config, control) :=
    (bwe.probeControl.enable doProbe).handleTimeout ops now
  (config, { bwe with probeControl := control, probeEstimator })

end SendSideEstimator

namespace ProbeDriver

def new (nowAgentUs : ℕ) : ProbeDriver Bitrate :=
  ⟨.new nowAgentUs, .new, none⟩

/-- The probe's burst and a feedback round trip have passed. -/
def endExpired (driver : ProbeDriver Bitrate) (now : ℕ) :
    ProbeDriver Bitrate :=
  match driver.activeProbe with
  | none => driver
  | some (cluster, deadline) =>
      if deadline ≤ now then
        { driver with
          bwe := { driver.bwe with
            probeEstimator := driver.bwe.probeEstimator.endProbe now cluster }
          activeProbe := none }
      else driver

/-- A cluster is spent once its burst plus a feedback round trip pass. -/
def startProbe (driver : ProbeDriver Bitrate)
    (config : ProbeClusterConfig Bitrate) (now : ℕ) : ProbeDriver Bitrate :=
  { driver with
    activeProbe := some (config.cluster, now + config.targetDuration + 250000)
    bwe := { driver.bwe with
      probeEstimator := (driver.bwe.probeEstimator.probeStart config now).2 } }

/-- The driver's clock after a reading, which never runs backwards. -/
def tickNow (driver : ProbeDriver Bitrate) (nowAgentUs : ℕ) : ℕ :=
  max driver.driver.lastNow (driver.driver.instantAt nowAgentUs)

/-- Periodic drive: may emit a probe burst for the pacer.  The active probe is
ended if its deadline has passed; whatever the controller then hands out
becomes the active one. -/
def onTick (driver : ProbeDriver Bitrate) (nowAgentUs : ℕ)
    (env : Controllers Bitrate) :
    Option (ProbeJob Bitrate) × ProbeDriver Bitrate :=
  let now := driver.tickNow nowAgentUs
  let driver := { driver with driver := { driver.driver with
    lastNow := now
    calls := driver.driver.calls ++ [BweCall.mediaSent 0 now] } }.endExpired now
  let (config, bwe) := driver.bwe.handleTimeout ops true now env
  let driver := { driver with bwe }
  match config with
  | none => (none, driver)
  | some config =>
      (some
        { cluster := config.cluster
          rateBps := config.targetBitrate
          duration := config.targetDuration
          minPackets := config.minPacketCount
          minDelta := config.minProbeDelta },
        driver.startProbe config now)

/-- Feed one feedback batch: the estimator receives the calls that the driver
makes. -/
def onFeedback (driver : ProbeDriver Bitrate) (sent : List SendRecord)
    (feedback : PacketFeedback) (nowAgentUs : ℕ) (env : Controllers Bitrate) :
    ProbeDriver Bitrate :=
  let after := driver.driver.onFeedback sent feedback nowAgentUs
  { driver with
    driver := after
    bwe := (after.calls.drop driver.driver.calls.length).foldl
      (SendSideEstimator.receive ops env) driver.bwe }

end ProbeDriver

end GameStreamer
