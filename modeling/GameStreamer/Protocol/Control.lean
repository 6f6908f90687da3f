import Mathlib.Data.Nat.Basic

/-!
# Control-stream messages

The messages of the control stream, with the fields that the modelled
functions read or fill in.  `C2A` is client to agent, `A2C` agent to client;
both enumerations are open on the wire, and a reader ignores what it does not
know.
-/

namespace GameStreamer

inductive Codec where
  | h264
  | hevc
  | av1
  deriving DecidableEq, Repr

/-- H.264 profiles, ordered by capability. -/
inductive H264Profile where
  | constrainedBaseline
  | main
  | high
  deriving DecidableEq, Repr

/-- The position in the capability order. -/
def H264Profile.rank : H264Profile → ℕ
  | .constrainedBaseline => 0
  | .main => 1
  | .high => 2

/-- `Ord::min` of two profiles. -/
def H264Profile.min (left right : H264Profile) : H264Profile :=
  if left.rank ≤ right.rank then left else right

structure VideoMode where
  width : UInt32
  height : UInt32
  fps : UInt32
  deriving DecidableEq, Repr

structure DecodeCaps where
  codecs : List Codec
  maxH264Profile : H264Profile
  deriving DecidableEq, Repr

structure Hello where
  proto : UInt16
  decodeCaps : DecodeCaps
  deriving DecidableEq, Repr

structure SessionRequest where
  source : ℕ
  mode : Option VideoMode
  /-- Starting bitrate (bits/s); nothing uses the agent's default. -/
  bitrateBps : Option UInt32
  /-- Whether ABR drives the bitrate from the first frame. -/
  abr : Bool
  deriving DecidableEq, Repr

/-- Per-packet arrival feedback: one `(seq, arrival - base)` sample for every
datagram the receiver recorded since the last batch, in arrival order. -/
structure PacketFeedback where
  /-- Receiver clock (µs) that the batch's deltas are relative to. -/
  baseArrivalUs : ℕ
  samples : List (UInt32 × UInt32)
  deriving DecidableEq, Repr

/-- Client to agent. -/
inductive C2A where
  | hello (hello : Hello)
  | listSources
  | startSession (request : SessionRequest)
  | stopSession
  /-- A batch of input events, which the service hands to the injector. -/
  | inputBatch (size : ℕ)
  | frameAck
  /-- The decoder lost its reference chain and has no frame to cite. -/
  | requestKeyframe
  | packetFeedback (feedback : PacketFeedback)
  | setBitrate (bitrateBps : UInt32)
  | setAbr (enabled : Bool)
  | statsReport
  | ping (clientTsUs : ℕ)
  /-- The reference chain broke; `lastGoodFrameId` is the newest frame the
  client decoded. -/
  | requestRecovery (lastGoodFrameId : UInt32)
  | nack (seqs : List UInt32)
  deriving DecidableEq, Repr

inductive Notification where
  | gamepadConnected (seat : UInt8)
  | gamepadDisconnected (seat : UInt8)
  deriving DecidableEq, Repr

structure SessionParams where
  session : ℕ
  codec : Codec
  mode : VideoMode
  bitrateBps : ℕ
  deriving DecidableEq, Repr

structure EncodeStats where
  targetBitrateBps : ℕ
  emittedBitrateBps : ℕ
  ceilingBitrateBps : ℕ
  estimateBitrateBps : ℕ
  abrEnabled : Bool
  deriving DecidableEq, Repr

/-- Agent to client. -/
inductive A2C where
  | helloAck (proto : UInt16) (encodeCodecs : List Codec)
  | sources (ids : List ℕ)
  | sessionStarted (params : SessionParams)
  | recoveryPoint (firstSafeFrameId : UInt32)
  | error (message : String)
  | pong (clientTsUs agentTsUs : ℕ)
  | notification (notification : Notification)
  | encodeStats (stats : EncodeStats)
  deriving DecidableEq, Repr

end GameStreamer
