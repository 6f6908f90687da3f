import GameStreamer.Encode.Api

/-!
# The software back end

openh264 encodes within `submit`.  It may skip a frame, and only a frame with
output takes an id.  A rate change rebuilds the encoder, and the next frame is
an IDR.  What openh264 answers is an argument of each call; the bitstreams are
byte strings.
-/

namespace GameStreamer.Encode.Sw

/-- `openh264::encoder::FrameType`. -/
inductive FrameType where
  | invalid
  | idr
  | i
  | p
  | skip
  | ipMixed
  deriving DecidableEq, Repr

/-- What openh264 answers during one call. -/
structure OpenH264 where
  builds : Bool
  /-- The frame type and the bitstream of the picture, after
  `force_intra_frame` and without; `none` for an error. -/
  encode : Bool → Option (FrameType × Bytes)
  nowUs : ℕ

structure Open where
  /-- The bitrate that the openh264 encoder was built with. -/
  encoder : UInt32
  mode : VideoMode
  nextFrameId : ℕ
  pending : Option EncodedChunk
  deriving DecidableEq, Repr

/-- The software back end, with the openh264 encoder of the current rate once
it is open. -/
structure SwEncoder where
  state : Option Open
  forceIdr : Bool
  deriving DecidableEq, Repr

def new : SwEncoder := ⟨none, false⟩

/-- `build_encoder`, which only takes the rate and the mode from the config. -/
def buildEncoder (cfg : EncodeConfig) (codec : OpenH264) :
    Except EncodeError UInt32 :=
  if codec.builds then .ok cfg.bitrateBps else .error .callFailed

def openWith (encoder : SwEncoder) (cfg : EncodeConfig) (codec : OpenH264) :
    SwEncoder × Except EncodeError Unit :=
  if cfg.codec ≠ .h264 then (encoder, .error (.wrongCodec cfg.codec))
  else
    match buildEncoder cfg codec with
    | .error error => (encoder, .error error)
    | .ok built => (⟨some ⟨built, cfg.mode, 0, none⟩, true⟩, .ok ())

/-- The checks of `bgra_to_i420`; the planes go to openh264.  The product of
stride and height is a `usize` in the source.  Whoever makes such a frame has
allocated that many bytes for it, so the product fits and is not reduced
here. -/
def bgraToI420 (data : Bytes) (stride : ℕ) (width height : UInt32) :
    Except EncodeError Unit :=
  if width.toNat % 2 ≠ 0 ∨ height.toNat % 2 ≠ 0 then
    .error (.oddDimensions width height)
  else if stride < width.toNat * 4 ∨ data.length < stride * height.toNat then
    .error .shortBuffer
  else .ok ()

/-- What `submit` checks before it turns to openh264. -/
def checkFrame (frame : GpuFrame) : Except EncodeError Unit :=
  if frame.format ≠ .bgra8 then .error (.wrongFormat frame.format)
  else
    match frame.handle with
    | .cpu data stride => bgraToI420 data stride frame.width frame.height
    | _ => .error .wrongHandle

/-- The kind of a frame, `none` where rate control skipped it. -/
def frameKind : FrameType → Option FrameKind
  | .idr => some .idr
  | .i => some .idr
  | .skip => none
  | _ => some .p

/-- The output of one `encode`: its kind and bitstream, `none` where there is
no output. -/
def output (encoded : FrameType × Bytes) : Option (FrameKind × Bytes) :=
  match frameKind encoded.1 with
  | none => none
  | some kind => if encoded.2 = [] then none else some (kind, encoded.2)

/-- Submit one frame, which openh264 encodes at once or skips.  A frame that
reaches the codec spends the flag; only one with output takes an id. -/
def submit (encoder : SwEncoder) (frame : GpuFrame)
    (directives : FrameDirectives) (codec : OpenH264) :
    SwEncoder × Except EncodeError (Option EncodedChunk) :=
  match encoder.state with
  | none => (encoder, .error .notOpen)
  | some state =>
      match checkFrame frame with
      | .error error => (encoder, .error error)
      | .ok () =>
          -- `force_intra_frame` spends the flag.
          match codec.encode (directives.idr || encoder.forceIdr) with
          | none => (⟨some state, false⟩, .error .callFailed)
          | some encoded =>
              match output encoded with
              | none => (⟨some state, false⟩, .ok none)
              | some (kind, data) =>
                  let chunk : EncodedChunk :=
                    { frameId := state.nextFrameId
                      kind := kind
                      data := data
                      captureTsUs := frame.captureTsUs
                      encodeDoneTsUs := codec.nowUs
                      serial := frame.serial }
                  (⟨some { state with
                      nextFrameId := state.nextFrameId + 1
                      pending := some chunk }, false⟩, .ok (some chunk))

def pollBitstream (encoder : SwEncoder) :
    SwEncoder × Except EncodeError (Option EncodedChunk) :=
  ({ encoder with
      state := encoder.state.map fun state => { state with pending := none } },
    .ok (encoder.state.bind Open.pending))

/-- openh264 has no live rate update: the encoder is built anew. -/
def updateRate (encoder : SwEncoder) (bitrateBps : UInt32)
    (codec : OpenH264) : SwEncoder × Except EncodeError Unit :=
  match encoder.state with
  | none => (encoder, .error .notOpen)
  | some state =>
      match buildEncoder
          ⟨.h264, state.mode, bitrateBps, .constrainedBaseline⟩ codec with
      | .error error => (encoder, .error error)
      | .ok built => (⟨some { state with encoder := built }, true⟩, .ok ())

def forceIdr (encoder : SwEncoder) : SwEncoder :=
  { encoder with forceIdr := true }

/-- Unsupported: the session layer falls back to a forced IDR. -/
def invalidateRefs (_ : SwEncoder) (_ : UInt32) (_ : OpenH264) : Bool := false

/-- The back end works within its calls only. -/
def backend : Encoder SwEncoder OpenH264 Empty where
  new := new
  openWith := openWith
  submit := submit
  pollBitstream := pollBitstream
  updateRate := updateRate
  forceIdr := forceIdr
  invalidateRefs := invalidateRefs
  background encoder _ := (encoder, none)

/-! ## What one call does -/

theorem eq_of_openWith {encoder after : SwEncoder} {cfg : EncodeConfig}
    {codec : OpenH264} (h : openWith encoder cfg codec = (after, .ok ())) :
    after = ⟨some ⟨cfg.bitrateBps, cfg.mode, 0, none⟩, true⟩ := by
  rw [openWith, buildEncoder] at h
  split_ifs at h
  · cases h
  · exact (congrArg Prod.fst h).symm
  · cases h

/-- A `submit` fails, has no output, or puts out the chunk of its frame; only
the last changes the open encoder. -/
theorem submit_cases (encoder : SwEncoder) (frame : GpuFrame)
    (directives : FrameDirectives) (codec : OpenH264) :
    (∃ after error, submit encoder frame directives codec =
        (after, .error error) ∧ after.state = encoder.state) ∨
      (∃ after encoded, submit encoder frame directives codec =
        (after, .ok none) ∧ after.state = encoder.state ∧
        codec.encode (directives.idr || encoder.forceIdr) = some encoded ∧
        output encoded = none) ∨
      ∃ state encoded chunk, submit encoder frame directives codec =
        (⟨some { state with
            nextFrameId := state.nextFrameId + 1
            pending := some chunk }, false⟩, .ok (some chunk)) ∧
        encoder.state = some state ∧
        codec.encode (directives.idr || encoder.forceIdr) = some encoded ∧
        output encoded = some (chunk.kind, chunk.data) ∧
        chunk.frameId = state.nextFrameId ∧ chunk.serial = frame.serial := by
  rw [submit]
  split
  case h_1 => exact Or.inl ⟨_, _, rfl, rfl⟩
  case h_2 state hstate =>
      split
      case h_1 => exact Or.inl ⟨_, _, rfl, rfl⟩
      case h_2 =>
          split
          case h_1 => exact Or.inl ⟨_, _, rfl, hstate.symm⟩
          case h_2 encoded hencoded =>
              split
              case h_1 houtput =>
                  exact Or.inr (Or.inl
                    ⟨_, encoded, rfl, hstate.symm, hencoded, houtput⟩)
              case h_2 kind data houtput =>
                  exact Or.inr (Or.inr ⟨state, encoded, _, rfl, hstate,
                    hencoded, houtput, rfl, rfl⟩)

theorem updateRate_cases (encoder : SwEncoder) (bitrateBps : UInt32)
    (codec : OpenH264) :
    (∃ error, updateRate encoder bitrateBps codec =
        (encoder, .error error)) ∨
      ∃ state, encoder.state = some state ∧
        updateRate encoder bitrateBps codec =
          (⟨some { state with encoder := bitrateBps }, true⟩, .ok ()) := by
  rw [updateRate]
  split
  case h_1 => exact Or.inl ⟨_, rfl⟩
  case h_2 state hstate =>
      rw [buildEncoder]
      split
      case h_1 => exact Or.inl ⟨_, rfl⟩
      case h_2 built hbuilt =>
          split_ifs at hbuilt
          cases hbuilt
          exact Or.inr ⟨state, hstate, rfl⟩

/-! ## A frame and a codec for examples -/

def smallFrame : GpuFrame :=
  ⟨.cpu (List.replicate 16 0) 8, .bgra8, 2, 2, 0, 0⟩

/-- openh264 outputs an IDR frame if it is told to, and a P frame if not. -/
def answering : OpenH264 :=
  ⟨true, fun told => some (if told then .idr else .p, [0, 0, 1]), 0⟩

/-- Rate control skips the frame. -/
def skipping : OpenH264 := ⟨true, fun _ => some (.skip, []), 0⟩

end GameStreamer.Encode.Sw
