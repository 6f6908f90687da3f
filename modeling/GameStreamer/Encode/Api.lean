import GameStreamer.Core.Bytes
import GameStreamer.Core.Media
import GameStreamer.Protocol.Control

/-!
# The encoder contract

Every back end implements one trait: a frame goes in with directives, and its
chunk comes out at once or a moment later.  The functions of a back end take
what the driver or the codec answers during the call as an argument of their
own, so that a run is a list of calls with these answers.
-/

namespace GameStreamer.Encode

inductive PixelFormat where
  | bgra8
  | nv12
  | p010
  deriving DecidableEq, Repr

/-- Where the pixels of a frame are. -/
inductive GpuHandle where
  | cpu (data : Bytes) (stride : ℕ)
  | d3d11
  | ioSurface
  deriving DecidableEq, Repr

/-- A captured frame. -/
structure GpuFrame where
  handle : GpuHandle
  format : PixelFormat
  width : UInt32
  height : UInt32
  captureTsUs : ℕ
  /-- How many frames were submitted before it.  The code keeps no such
  number: it only names the frame that a chunk comes from. -/
  serial : ℕ
  deriving DecidableEq, Repr

/-- What a back end is opened with.  The rate of a later `update_rate` takes
the place of this one. -/
structure EncodeConfig where
  codec : Codec
  mode : VideoMode
  bitrateBps : UInt32
  h264Profile : H264Profile
  deriving DecidableEq, Repr

/-- Instructions of the session layer for one frame. -/
structure FrameDirectives where
  idr : Bool
  deriving DecidableEq, Repr

/-- What comes out of an encoder: one frame's bitstream under the id that the
back end gives it. -/
structure EncodedChunk where
  frameId : ℕ
  kind : FrameKind
  data : Bytes
  captureTsUs : ℕ
  encodeDoneTsUs : ℕ
  /-- The serial of the frame that it encodes. -/
  serial : ℕ
  deriving DecidableEq, Repr

inductive EncodeError where
  | notOpen
  | wrongCodec (codec : Codec)
  | tooLarge (width height : UInt32)
  | wrongFormat (format : PixelFormat)
  | wrongHandle
  | wrongSize (width height : UInt32)
  | oddDimensions (width height : UInt32)
  | shortBuffer
  /-- A call into the driver, the codec or the framework failed. -/
  | callFailed
  deriving DecidableEq, Repr

/-- `trait Encoder`.  Where a call puts a chunk out, to be polled later, the
result names the chunk as well; the code returns no value there. -/
structure Encoder (Enc Answer Background : Type) where
  new : Enc
  openWith : Enc → EncodeConfig → Answer → Enc × Except EncodeError Unit
  submit : Enc → GpuFrame → FrameDirectives → Answer →
    Enc × Except EncodeError (Option EncodedChunk)
  /-- `poll_bitstream`, and `next_chunk` with what arrives before its time-out
  as background events ahead of the call. -/
  pollBitstream : Enc → Enc × Except EncodeError (Option EncodedChunk)
  updateRate : Enc → UInt32 → Answer → Enc × Except EncodeError Unit
  forceIdr : Enc → Enc
  invalidateRefs : Enc → UInt32 → Answer → Bool
  /-- What the back end does between the calls, on a thread of its own. -/
  background : Enc → Background → Enc × Option EncodedChunk

/-- A small H.264 stream for examples. -/
def smallConfig : EncodeConfig := ⟨.h264, ⟨2, 2, 60⟩, 10000000, .high⟩

end GameStreamer.Encode
