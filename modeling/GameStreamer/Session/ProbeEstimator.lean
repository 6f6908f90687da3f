import GameStreamer.Session.BweDriver
import GameStreamer.Session.ProbeControl

/-!
# The probe estimator

The estimator watches the feedback for the packets of every probe cluster that
was started.  A cluster that was ended keeps collecting for one second and is
then finalized: its result is computed, and compressed arrivals are counted.
The table is bounded, and a full one drops clusters that were never ended.
-/

namespace GameStreamer

/-- One cluster that is still collecting, with the extreme send and receive
times of its packets and the bytes in between. -/
structure ProbeEstimatorState (Bitrate : Type*) where
  config : ProbeClusterConfig Bitrate
  createdAt : ℕ
  /-- Nothing stands for `not_happening`. -/
  finalizeAt : Option ℕ
  firstSendTime : Option ℕ
  lastSendTime : Option ℕ
  sizeLastSend : ℕ
  firstRecvTime : Option ℕ
  lastRecvTime : Option ℕ
  sizeFirstReceive : ℕ
  totalBytes : ℕ
  packetCount : ℕ
  deriving DecidableEq, Repr

inductive ProbeResult (Bitrate : Type*) where
  | estimate (bitrate : Bitrate)
  | clusterTooSmall (recv limit : ℕ)
  | insufficientPackets (recv limit : ℕ)
  | insufficientBytes (recv limit : ℕ)
  | sendIntervalTooLong (interval : ℕ)
  | sendIntervalInvalid (interval : ℕ)
  | recvIntervalInvalid (interval : ℕ)
  /-- The rates whose quotient is above the limit. -/
  | invalidSendReceiveRatio (recvRate sendRate : Bitrate)
  | invalidDataSize
  | missingTimingInfo
  deriving DecidableEq, Repr

/-- The clusters that are still collecting, oldest first, and the count of
clumped results that the controller has not heard of yet. -/
structure ProbeEstimator (Bitrate : Type*) where
  states : List (ProbeEstimatorState Bitrate)
  /-- Clusters rejected for compressed arrivals. -/
  clumpedProbes : ℕ
  deriving DecidableEq, Repr

variable {Bitrate : Type*} (ops : BitrateOps Bitrate)

namespace ProbeResult

/-- Compressed arrivals: only a longer cluster would have measured. -/
def clumped : ProbeResult Bitrate → Bool
  | .invalidSendReceiveRatio _ _ => true
  | _ => false

end ProbeResult

namespace ProbeEstimatorState

def minClusterSize : ℕ := 4
def maxProbeInterval : ℕ := 1000000
def maxValidRatio : ℚ := 2
def minRatioForUnsaturatedLink : ℚ := 9 / 10
def targetUtilizationFraction : ℚ := 95 / 100

def new (config : ProbeClusterConfig Bitrate) (now : ℕ) :
    ProbeEstimatorState Bitrate where
  config := config
  createdAt := now
  finalizeAt := none
  firstSendTime := none
  lastSendTime := none
  sizeLastSend := 0
  firstRecvTime := none
  lastRecvTime := none
  sizeFirstReceive := 0
  totalBytes := 0
  packetCount := 0

/-- A packet is recorded in 16 bits of size. -/
def packetSize (record : TwccSendRecord) : ℕ :=
  min record.record.bytes.toNat 65535

/-- Only packets with a known receive time participate. -/
def update (state : ProbeEstimatorState Bitrate) (record : TwccSendRecord) :
    Bool × ProbeEstimatorState Bitrate :=
  match record.received with
  | none => (false, state)
  | some (_, recvTime) =>
      let packetSize := packetSize record
      let sendTime := record.sentAt
      let last := state.lastSendTime.getD sendTime
      let firstRecv := state.firstRecvTime.getD recvTime
      (true, { state with
        firstSendTime := some (min (state.firstSendTime.getD sendTime) sendTime)
        lastSendTime := some (if last ≤ sendTime then sendTime else last)
        sizeLastSend := if last ≤ sendTime then packetSize
          else state.sizeLastSend
        firstRecvTime := some (if recvTime ≤ firstRecv then recvTime
          else firstRecv)
        sizeFirstReceive := if recvTime ≤ firstRecv then packetSize
          else state.sizeFirstReceive
        lastRecvTime := some (max (state.lastRecvTime.getD recvTime) recvTime)
        totalBytes := state.totalBytes + packetSize
        packetCount := state.packetCount + 1 })

/-- The rates of a cluster whose packets span these intervals. -/
def compareRates (state : ProbeEstimatorState Bitrate)
    (sendInterval recvInterval : ℕ) : ProbeResult Bitrate :=
  let sendSize := state.totalBytes - state.sizeLastSend
  let recvSize := state.totalBytes - state.sizeFirstReceive
  if sendSize = 0 ∨ recvSize = 0 then .invalidDataSize
  else
    let recvRate := ops.rate recvSize recvInterval
    let sendRate := ops.rate sendSize sendInterval
    if ops.ratioAbove recvRate sendRate maxValidRatio then
      .invalidSendReceiveRatio recvRate sendRate
    else if ops.lt recvRate
        (ops.scale sendRate minRatioForUnsaturatedLink) then
      .estimate (ops.scale recvRate targetUtilizationFraction)
    else .estimate (ops.min sendRate recvRate)

/-- Calculate the estimated bitrate for this probe cluster. -/
def doCalculateBitrate (state : ProbeEstimatorState Bitrate) :
    ProbeResult Bitrate :=
  -- 80% of the packets and of the bytes
  let minPackets := state.config.minPacketCount * 4 / 5
  let minBytes := ops.dataSize state.config.targetBitrate
    state.config.targetDuration * 4 / 5
  if state.packetCount < minClusterSize then
    .clusterTooSmall state.packetCount minClusterSize
  else if state.packetCount < minPackets then
    .insufficientPackets state.packetCount minPackets
  else if state.totalBytes < minBytes then
    .insufficientBytes state.totalBytes minBytes
  else
    match state.firstSendTime, state.lastSendTime, state.firstRecvTime,
      state.lastRecvTime with
    | some firstSend, some lastSend, some firstRecv, some lastRecv =>
        let sendInterval := lastSend - firstSend
        let recvInterval := lastRecv - firstRecv
        if sendInterval = 0 then .sendIntervalInvalid sendInterval
        else if maxProbeInterval < sendInterval then
          .sendIntervalTooLong sendInterval
        else if recvInterval = 0 ∨ maxProbeInterval < recvInterval then
          .recvIntervalInvalid recvInterval
        else state.compareRates ops sendInterval recvInterval
    | _, _, _, _ => .missingTimingInfo

def calculateBitrate (state : ProbeEstimatorState Bitrate) :
    Option (ProbeClusterConfig Bitrate × Bitrate) :=
  match state.doCalculateBitrate ops with
  | .estimate bitrate => some (state.config, bitrate)
  | _ => none

/-- Keep collecting for one second. -/
def endProbe (state : ProbeEstimatorState Bitrate) (now : ℕ) :
    ProbeEstimatorState Bitrate :=
  { state with finalizeAt := some (now + 1000000) }

/-- The cluster's second is over. -/
def due (now : ℕ) (state : ProbeEstimatorState Bitrate) : Bool :=
  state.finalizeAt.any (· ≤ now)

end ProbeEstimatorState

namespace ProbeEstimator

def maxActiveProbes : ℕ := 20
def staleProbeThreshold : ℕ := 5000000

def new : ProbeEstimator Bitrate := ⟨[], 0⟩

/-- Change the first state of a cluster. -/
def modifyCluster (cluster : ℕ)
    (change : ProbeEstimatorState Bitrate → ProbeEstimatorState Bitrate) :
    List (ProbeEstimatorState Bitrate) → List (ProbeEstimatorState Bitrate)
  | [] => []
  | state :: states =>
      if state.config.cluster = cluster then change state :: states
      else state :: modifyCluster cluster change states

/-- Start analyzing a cluster, unless too many are active. -/
def probeStart (estimator : ProbeEstimator Bitrate)
    (config : ProbeClusterConfig Bitrate) (now : ℕ) :
    Bool × ProbeEstimator Bitrate :=
  let states := if maxActiveProbes ≤ estimator.states.length then
    estimator.states.filter fun state =>
      now - state.createdAt < staleProbeThreshold
    else estimator.states
  if maxActiveProbes ≤ states.length then (false, { estimator with states })
  else (true, { estimator with
    states := states ++ [ProbeEstimatorState.new config now] })

/-- One record, with the clusters updated so far, the latest last. -/
def updateRecord (updated : List ℕ × ProbeEstimator Bitrate)
    (record : TwccSendRecord) : List ℕ × ProbeEstimator Bitrate :=
  match record.record.cluster with
  | none => updated
  | some cluster =>
      match updated.2.states.find? (·.config.cluster = cluster) with
      | none => updated
      | some state =>
          let (didUpdate, _) := state.update record
          (if didUpdate then updated.1.filter (· ≠ cluster) ++ [cluster]
            else updated.1,
            { updated.2 with
              states := modifyCluster cluster
                (fun state => (state.update record).2) updated.2.states })

/-- Process feedback records; the estimates of the updated clusters come out,
the latest last. -/
def update (estimator : ProbeEstimator Bitrate)
    (records : List TwccSendRecord) :
    List (ProbeClusterConfig Bitrate × Bitrate) × ProbeEstimator Bitrate :=
  let (updated, estimator) := records.foldl updateRecord ([], estimator)
  ((updated.filterMap fun cluster =>
      estimator.states.find? (·.config.cluster = cluster)).filterMap
        (·.calculateBitrate ops), estimator)

/-- Mark the probe as ended. -/
def endProbe (estimator : ProbeEstimator Bitrate) (now clusterId : ℕ) :
    ProbeEstimator Bitrate :=
  { estimator with
    states := modifyCluster clusterId (·.endProbe now) estimator.states }

/-- Finalize probes that are ready. -/
def handleTimeout (estimator : ProbeEstimator Bitrate) (now : ℕ) :
    ProbeEstimator Bitrate where
  states := estimator.states.filter fun state => !state.due now
  clumpedProbes := estimator.clumpedProbes +
    (estimator.states.filter fun state =>
      state.due now && (state.doCalculateBitrate ops).clumped).length

def clearProbes (estimator : ProbeEstimator Bitrate) :
    ProbeEstimator Bitrate := { estimator with states := [] }

end ProbeEstimator

end GameStreamer
