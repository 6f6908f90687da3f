import GameStreamer.Encode.Api
import GameStreamer.Video.LengthPrefix

/-!
# The VideoToolbox back end

`submit` hands the frame to the compression session, which calls the output
handler of the frame later, on its own thread and in submit order.  The
handler reads the kind of the chunk from the bitstream and takes the id.  What
the framework answers, and when it calls a handler, is an input.
-/

namespace GameStreamer.Encode.VideoToolbox

/-- What the framework answers during one call. -/
structure Framework where
  /-- `VTCompressionSessionCreate` succeeds. -/
  creates : Bool
  /-- All properties of a new session are set. -/
  configures : Bool
  /-- The average bitrate is set on the open session. -/
  setsBitrate : Bool
  /-- The dictionary that forces a keyframe is built. -/
  dictionary : Bool
  /-- `VTCompressionSessionEncodeFrame` takes the frame. -/
  encodes : Bool

/-- A frame that the session has taken, with what its output handler holds. -/
structure Handler where
  codec : Codec
  captureTsUs : ℕ
  serial : ℕ
  /-- Whether the frame carries the dictionary that forces a keyframe. -/
  told : Bool
  /-- Whether the directives of the frame asked for it. -/
  requested : Bool
  deriving DecidableEq, Repr

/-- One call of the oldest output handler: the sample for a frame that was
told to be a keyframe and for another.  `none` stands for an error status or a
null sample. -/
structure HandlerCall where
  sample : Bool → Option Video.CompressedSample
  nowUs : ℕ

/-- The VideoToolbox back end.  What is inside the session comes out through
the channel, which the output handlers fill on the framework's thread. -/
structure VideoToolboxEncoder where
  /-- The average bitrate of the open session. -/
  session : Option UInt32
  codec : Codec
  nextFrameId : ℕ
  forceIdr : Bool
  /-- The frames inside the session, oldest first. -/
  inside : List Handler
  /-- The channel between the handlers and the encoder. -/
  channel : List EncodedChunk
  deriving DecidableEq, Repr

def new : VideoToolboxEncoder := ⟨none, .h264, 0, true, [], []⟩

def openWith (encoder : VideoToolboxEncoder) (cfg : EncodeConfig)
    (framework : Framework) : VideoToolboxEncoder × Except EncodeError Unit :=
  if cfg.codec = .av1 then (encoder, .error (.wrongCodec cfg.codec))
  else if framework.creates && framework.configures then
    ({ encoder with
        session := some cfg.bitrateBps
        codec := cfg.codec
        nextFrameId := 0
        forceIdr := true }, .ok ())
  else (encoder, .error .callFailed)

/-- Submit one frame to the session.  The flag is spent before the calls that
may fail, and the id is taken only when the handler puts the chunk out. -/
def submit (encoder : VideoToolboxEncoder) (frame : GpuFrame)
    (directives : FrameDirectives) (framework : Framework) :
    VideoToolboxEncoder × Except EncodeError (Option EncodedChunk) :=
  match encoder.session with
  | none => (encoder, .error .notOpen)
  | some _ =>
      if frame.handle ≠ .ioSurface then (encoder, .error .wrongHandle)
      else
        let isIdr := directives.idr || encoder.forceIdr
        let spent := { encoder with forceIdr := false }
        if isIdr && !framework.dictionary then (spent, .error .callFailed)
        else if framework.encodes then
          ({ spent with
              inside := encoder.inside ++
                [⟨encoder.codec, frame.captureTsUs, frame.serial, isIdr,
                  directives.idr⟩] }, .ok none)
        else (spent, .error .callFailed)

/-- What the output handler of a frame finds in its sample. -/
def handlerOutput (handler : Handler) (call : HandlerCall) :
    Option (FrameKind × Bytes) :=
  (call.sample handler.told).bind fun sample =>
    Video.sampleToAnnexB sample handler.codec

/-- The session calls the handler of the oldest frame inside.  An id is taken
for an emitted frame only. -/
def handle (encoder : VideoToolboxEncoder) (call : HandlerCall) :
    VideoToolboxEncoder × Option EncodedChunk :=
  match encoder.inside with
  | [] => (encoder, none)
  | handler :: rest =>
      match handlerOutput handler call with
      | none => ({ encoder with inside := rest }, none)
      | some (kind, data) =>
          let chunk : EncodedChunk :=
            { frameId := encoder.nextFrameId
              kind := kind
              data := data
              captureTsUs := handler.captureTsUs
              encodeDoneTsUs := call.nowUs
              serial := handler.serial }
          ({ encoder with
              inside := rest
              nextFrameId := encoder.nextFrameId + 1
              channel := encoder.channel ++ [chunk] }, some chunk)

def pollBitstream (encoder : VideoToolboxEncoder) :
    VideoToolboxEncoder × Except EncodeError (Option EncodedChunk) :=
  ({ encoder with channel := encoder.channel.tail },
    .ok encoder.channel.head?)

def updateRate (encoder : VideoToolboxEncoder) (bitrateBps : UInt32)
    (framework : Framework) : VideoToolboxEncoder × Except EncodeError Unit :=
  match encoder.session with
  | none => (encoder, .error .notOpen)
  | some _ =>
      if framework.setsBitrate then
        ({ encoder with session := some bitrateBps }, .ok ())
      else (encoder, .error .callFailed)

def forceIdr (encoder : VideoToolboxEncoder) : VideoToolboxEncoder :=
  { encoder with forceIdr := true }

/-- Unsupported: the session layer falls back to a forced IDR. -/
def invalidateRefs (_ : VideoToolboxEncoder) (_ : UInt32) (_ : Framework) :
    Bool := false

def backend : Encoder VideoToolboxEncoder Framework HandlerCall where
  new := new
  openWith := openWith
  submit := submit
  pollBitstream := pollBitstream
  updateRate := updateRate
  forceIdr := forceIdr
  invalidateRefs := invalidateRefs
  background := handle

/-! ## What one call does -/

theorem eq_of_openWith {encoder after : VideoToolboxEncoder}
    {cfg : EncodeConfig} {framework : Framework}
    (h : openWith encoder cfg framework = (after, .ok ())) :
    after = { encoder with
      session := some cfg.bitrateBps
      codec := cfg.codec
      nextFrameId := 0
      forceIdr := true } := by
  rw [openWith] at h
  split_ifs at h
  · cases h
  · cases h
    rfl
  · cases h

/-- A `submit` fails with the flag spent or untouched, or appends the frame to
the session. -/
theorem submit_cases (encoder : VideoToolboxEncoder) (frame : GpuFrame)
    (directives : FrameDirectives) (framework : Framework) :
    (∃ flag error, submit encoder frame directives framework =
        ({ encoder with forceIdr := flag }, .error error)) ∨
      submit encoder frame directives framework =
        ({ encoder with
            forceIdr := false
            inside := encoder.inside ++
              [⟨encoder.codec, frame.captureTsUs, frame.serial,
                directives.idr || encoder.forceIdr, directives.idr⟩] },
          .ok none) := by
  rw [submit]
  split
  case h_1 => exact Or.inl ⟨encoder.forceIdr, _, rfl⟩
  case h_2 =>
      dsimp only
      split_ifs
      · exact Or.inl ⟨encoder.forceIdr, _, rfl⟩
      · exact Or.inl ⟨false, _, rfl⟩
      · exact Or.inr rfl
      · exact Or.inl ⟨false, _, rfl⟩

/-- A handler call finds no frame, drops the oldest one, or emits its chunk. -/
theorem handle_cases (encoder : VideoToolboxEncoder) (call : HandlerCall) :
    (encoder.inside = [] ∧ handle encoder call = (encoder, none)) ∨
      (∃ handler rest, encoder.inside = handler :: rest ∧
        handlerOutput handler call = none ∧
        handle encoder call = ({ encoder with inside := rest }, none)) ∨
      ∃ handler rest chunk, encoder.inside = handler :: rest ∧
        handlerOutput handler call = some (chunk.kind, chunk.data) ∧
        chunk.frameId = encoder.nextFrameId ∧
        chunk.serial = handler.serial ∧
        handle encoder call =
          ({ encoder with
              inside := rest
              nextFrameId := encoder.nextFrameId + 1
              channel := encoder.channel ++ [chunk] }, some chunk) := by
  rw [handle]
  split
  case h_1 hinside => exact Or.inl ⟨hinside, rfl⟩
  case h_2 handler rest hinside =>
      split
      case h_1 houtput =>
          exact Or.inr (Or.inl ⟨handler, rest, hinside, houtput, rfl⟩)
      case h_2 kind data houtput =>
          exact Or.inr (Or.inr
            ⟨handler, rest, _, hinside, houtput, rfl, rfl, rfl⟩)

theorem updateRate_cases (encoder : VideoToolboxEncoder) (bitrateBps : UInt32)
    (framework : Framework) :
    (∃ error, updateRate encoder bitrateBps framework =
        (encoder, .error error)) ∨
      updateRate encoder bitrateBps framework =
        ({ encoder with session := some bitrateBps }, .ok ()) := by
  rw [updateRate]
  split
  case h_1 => exact Or.inl ⟨_, rfl⟩
  case h_2 =>
      split_ifs
      · exact Or.inr rfl
      · exact Or.inl ⟨_, rfl⟩

/-! ## A frame and a framework for examples -/

def smallFrame : GpuFrame := ⟨.ioSurface, .nv12, 2, 2, 0, 0⟩

def answering : Framework := ⟨true, true, true, true, true⟩

/-- The sample of a frame holds one slice: an IDR slice if it was told to. -/
def slice : HandlerCall where
  sample told :=
    some ⟨some (Video.lengthPrefixed [[if told then 0x65 else 0x41]]), none⟩
  nowUs := 0

/-- The session drops the frame. -/
def noSample : HandlerCall := ⟨fun _ => none, 0⟩

end GameStreamer.Encode.VideoToolbox
