import GameStreamer.Encode.Api

/-!
# The NVENC back end

A `submit` maps the texture, encodes it and takes the bitstream, all within
the call.  The session opens on the first frame, which carries the device.
The back end keeps the rate in its own config, and the session keeps the rate
control parameters that it hands to the driver.
-/

namespace GameStreamer.Encode.Nvenc

def MAX_WIDTH : UInt32 := 4096
def MAX_HEIGHT : UInt32 := 4096

/-- `NV_ENC_RC_PARAMS`, as far as the session sets it. -/
structure RcParams where
  averageBitRate : UInt32
  maxBitRate : UInt32
  vbvBufferSize : UInt32
  vbvInitialDelay : UInt32
  deriving DecidableEq, Repr

def setBitrate (bitrateBps fps : UInt32) : RcParams where
  averageBitRate := bitrateBps
  maxBitRate := bitrateBps
  vbvBufferSize := bitrateBps / fps
  vbvInitialDelay := bitrateBps / fps

/-- How `nvEncReconfigureEncoder` answers. -/
inductive Reconfigure where
  /-- The driver exposes no such function. -/
  | missing
  | refused
  | accepted
  deriving DecidableEq, Repr

/-- What the driver answers during one call.  A picture that is told to be a
keyframe may get another bitstream than one that is not. -/
structure Driver where
  sessionOpens : Bool
  initializes : Bool
  maps : Bool
  encodes : Bool
  /-- The bitstream of the picture and whether it is an IDR, for a picture that
  is told to be one and for another; `none` for an error. -/
  bitstream : Bool → Option (Bytes × Bool)
  reconfigure : Reconfigure
  /-- Every reference of the window is invalidated. -/
  invalidates : Bool
  nowUs : ℕ

/-- An initialized session.  It keeps the parameters that it was last asked
for, which the driver may have refused. -/
structure Session where
  frameRateNum : UInt32
  /-- The retained config. -/
  preset : RcParams
  /-- The parameters that the driver accepted last. -/
  driver : RcParams
  /-- How often `reconfigure` was called; the code does not count. -/
  reconfigures : ℕ
  deriving DecidableEq, Repr

/-- `Session::initialize`, where the driver accepts the parameters. -/
def Session.initialized (cfg : EncodeConfig) : Session :=
  let fps := max cfg.mode.fps 1
  let params := setBitrate cfg.bitrateBps fps
  ⟨fps, params, params, 0⟩

def Session.reconfigure (session : Session) (bitrateBps : UInt32)
    (answer : Reconfigure) : Session × Except EncodeError Unit :=
  let asked := { session with reconfigures := session.reconfigures + 1 }
  let params := setBitrate bitrateBps session.frameRateNum
  match answer with
  | .missing => (asked, .error .callFailed)
  | .refused => ({ asked with preset := params }, .error .callFailed)
  | .accepted => ({ asked with preset := params, driver := params }, .ok ())

/-- The NVENC back end.  Its own config holds the rate that was asked for last,
whether or not a session is open. -/
structure NvencEncoder where
  config : Option EncodeConfig
  session : Option Session
  nextFrameId : ℕ
  pending : Option EncodedChunk
  forceIdr : Bool
  framesSubmitted : ℕ
  deriving DecidableEq, Repr

def new : NvencEncoder := ⟨none, none, 0, none, false, 0⟩

/-- `open`: the session waits for the first frame. -/
def openWith (encoder : NvencEncoder) (cfg : EncodeConfig) :
    NvencEncoder × Except EncodeError Unit :=
  if cfg.codec = .av1 then (encoder, .error (.wrongCodec cfg.codec))
  else if MAX_WIDTH < cfg.mode.width ∨ MAX_HEIGHT < cfg.mode.height then
    (encoder, .error (.tooLarge cfg.mode.width cfg.mode.height))
  else ({ encoder with config := some cfg, forceIdr := true }, .ok ())

/-- The session, opened on the device that the frame arrived on. -/
def session (encoder : NvencEncoder) (driver : Driver) :
    NvencEncoder × Except EncodeError Unit :=
  match encoder.session, encoder.config with
  | some _, _ => (encoder, .ok ())
  | none, none => (encoder, .error .notOpen)
  | none, some cfg =>
      if driver.sessionOpens && driver.initializes then
        ({ encoder with session := some (Session.initialized cfg) }, .ok ())
      else (encoder, .error .callFailed)

/-- What `submit` checks before it turns to the session. -/
def checkFrame (encoder : NvencEncoder) (frame : GpuFrame) :
    Except EncodeError Unit :=
  if frame.format ≠ .bgra8 then .error (.wrongFormat frame.format)
  else if frame.handle ≠ .d3d11 then .error .wrongHandle
  else
    match encoder.config with
    | none => .error .notOpen
    | some cfg =>
        if frame.width ≠ cfg.mode.width ∨ frame.height ≠ cfg.mode.height then
          .error (.wrongSize frame.width frame.height)
        else .ok ()

/-- `Session::map`, `Session::encode` and `Session::take_bitstream`. -/
def encodePicture (driver : Driver) (idr : Bool) :
    Except EncodeError (Bytes × Bool) :=
  if driver.maps && driver.encodes then
    match driver.bitstream idr with
    | none => .error .callFailed
    | some taken => .ok taken
  else .error .callFailed

/-- `submit` up to the bitstream. -/
def takeBitstream (encoder : NvencEncoder) (frame : GpuFrame)
    (directives : FrameDirectives) (driver : Driver) :
    NvencEncoder × Except EncodeError (Bytes × Bool) :=
  match checkFrame encoder frame with
  | .error error => (encoder, .error error)
  | .ok () =>
      match session encoder driver with
      | (opened, .error error) => (opened, .error error)
      | (opened, .ok ()) =>
          (opened, encodePicture driver (directives.idr || encoder.forceIdr))

/-- What a `submit` spends on every bitstream. -/
def spend (opened : NvencEncoder) : NvencEncoder :=
  { opened with
    framesSubmitted := opened.framesSubmitted + 1
    forceIdr := false
    nextFrameId := opened.nextFrameId + 1 }

def chunkOf (opened : NvencEncoder) (frame : GpuFrame) (data : Bytes)
    (wasIdr : Bool) (driver : Driver) : EncodedChunk where
  frameId := opened.nextFrameId
  kind := if wasIdr then .idr else .p
  data := data
  captureTsUs := frame.captureTsUs
  encodeDoneTsUs := driver.nowUs
  serial := frame.serial

/-- Submit one frame.  The flag and the id are spent before the bitstream is
looked at, so an empty one leaves a hole in the ids. -/
def submit (encoder : NvencEncoder) (frame : GpuFrame)
    (directives : FrameDirectives) (driver : Driver) :
    NvencEncoder × Except EncodeError (Option EncodedChunk) :=
  match takeBitstream encoder frame directives driver with
  | (opened, .error error) => (opened, .error error)
  | (opened, .ok (data, wasIdr)) =>
      if data = [] then (spend opened, .ok none)
      else
        let chunk := chunkOf opened frame data wasIdr driver
        ({ spend opened with pending := some chunk }, .ok (some chunk))

def pollBitstream (encoder : NvencEncoder) :
    NvencEncoder × Except EncodeError (Option EncodedChunk) :=
  ({ encoder with pending := none }, .ok encoder.pending)

/-- The config takes the new rate before the driver is asked. -/
def updateRate (encoder : NvencEncoder) (bitrateBps : UInt32)
    (driver : Driver) : NvencEncoder × Except EncodeError Unit :=
  match encoder.config with
  | none => (encoder, .error .notOpen)
  | some cfg =>
      if cfg.bitrateBps = bitrateBps then (encoder, .ok ())
      else
        let recorded := { encoder with
          config := some { cfg with bitrateBps := bitrateBps } }
        match encoder.session with
        | none => (recorded, .ok ())
        | some session =>
            let (asked, result) :=
              session.reconfigure bitrateBps driver.reconfigure
            ({ recorded with session := some asked }, result)

def forceIdr (encoder : NvencEncoder) : NvencEncoder :=
  { encoder with forceIdr := true }

/-- Beyond half the nominal picture buffer an IDR is the only safe recovery. -/
def invalidateRefs (encoder : NvencEncoder) (lastGoodWire : UInt32)
    (driver : Driver) : Bool :=
  match encoder.session with
  | none => false
  | some _ =>
      let current := frameIdWire encoder.nextFrameId
      let lost := (current - lastGoodWire).toNat - 1
      if lost = 0 ∨ 8 < lost then false else driver.invalidates

/-- The back end works within its calls only. -/
def backend : Encoder NvencEncoder Driver Empty where
  new := new
  openWith encoder cfg _ := openWith encoder cfg
  submit := submit
  pollBitstream := pollBitstream
  updateRate := updateRate
  forceIdr := forceIdr
  invalidateRefs := invalidateRefs
  background encoder _ := (encoder, none)

/-! ## What one call does -/

theorem openWith_keeps (encoder : NvencEncoder) (cfg : EncodeConfig) :
    ∃ config flag, (openWith encoder cfg).1 =
      { encoder with config := config, forceIdr := flag } := by
  rw [openWith]
  split_ifs
  · exact ⟨encoder.config, encoder.forceIdr, rfl⟩
  · exact ⟨encoder.config, encoder.forceIdr, rfl⟩
  · exact ⟨some cfg, true, rfl⟩

theorem session_cases (encoder : NvencEncoder) (driver : Driver) :
    (session encoder driver).1 = encoder ∨
      ∃ cfg, encoder.session = none ∧ encoder.config = some cfg ∧
        (session encoder driver).1 =
          { encoder with session := some (Session.initialized cfg) } := by
  rw [session]
  split
  case h_1 => exact Or.inl rfl
  case h_2 => exact Or.inl rfl
  case h_3 cfg hsession hconfig =>
      split_ifs
      · exact Or.inr ⟨cfg, hsession, hconfig, rfl⟩
      · exact Or.inl rfl

/-- Up to the bitstream a `submit` at most opens the session. -/
theorem takeBitstream_cases (encoder : NvencEncoder) (frame : GpuFrame)
    (directives : FrameDirectives) (driver : Driver) :
    (takeBitstream encoder frame directives driver).1 = encoder ∨
      ∃ cfg, encoder.session = none ∧ encoder.config = some cfg ∧
        (takeBitstream encoder frame directives driver).1 =
          { encoder with session := some (Session.initialized cfg) } := by
  rw [takeBitstream]
  split
  case h_1 => exact Or.inl rfl
  case h_2 =>
      have hopened := session_cases encoder driver
      split
      case h_1 opened error hsession => rwa [hsession] at hopened
      case h_2 opened hsession => rwa [hsession] at hopened

theorem takeBitstream_keeps (encoder : NvencEncoder) (frame : GpuFrame)
    (directives : FrameDirectives) (driver : Driver) :
    ∃ session, (takeBitstream encoder frame directives driver).1 =
      { encoder with session := session } := by
  rcases takeBitstream_cases encoder frame directives driver with
    h | ⟨cfg, -, -, h⟩
  · exact ⟨encoder.session, h⟩
  · exact ⟨_, h⟩

/-- The bitstream is the answer to a picture with the flag of the frame. -/
theorem bitstream_of_takeBitstream {encoder : NvencEncoder} {frame : GpuFrame}
    {directives : FrameDirectives} {driver : Driver} {taken : Bytes × Bool}
    (h : (takeBitstream encoder frame directives driver).2 = .ok taken) :
    driver.bitstream (directives.idr || encoder.forceIdr) = some taken := by
  rw [takeBitstream] at h
  split at h
  case h_1 => cases h
  case h_2 =>
      split at h
      case h_1 => cases h
      case h_2 =>
          dsimp only at h
          rw [encodePicture] at h
          split_ifs at h
          split at h
          · cases h
          · rename_i out hout
            cases h
            exact hout

/-- A `submit` fails up to the bitstream, spends an id on an empty one, or puts
out the chunk of its frame. -/
theorem submit_cases (encoder : NvencEncoder) (frame : GpuFrame)
    (directives : FrameDirectives) (driver : Driver) :
    let taken := takeBitstream encoder frame directives driver
    (∃ error, taken.2 = .error error ∧
        submit encoder frame directives driver = (taken.1, .error error)) ∨
      (∃ wasIdr, taken.2 = .ok ([], wasIdr) ∧
        submit encoder frame directives driver =
          (spend taken.1, .ok none)) ∨
      ∃ chunk wasIdr, taken.2 = .ok (chunk.data, wasIdr) ∧ chunk.data ≠ [] ∧
        chunk.kind = (if wasIdr then .idr else .p) ∧
        chunk.frameId = taken.1.nextFrameId ∧ chunk.serial = frame.serial ∧
        submit encoder frame directives driver =
          ({ spend taken.1 with pending := some chunk }, .ok (some chunk)) := by
  intro taken
  rw [submit]
  split
  case h_1 opened error h => exact Or.inl ⟨error, by simp [taken, h]⟩
  case h_2 opened data wasIdr h =>
      by_cases hdata : data = []
      · rw [if_pos hdata]
        exact Or.inr (Or.inl ⟨wasIdr, by simp [taken, h, hdata]⟩)
      · rw [if_neg hdata]
        refine Or.inr (Or.inr ⟨chunkOf opened frame data wasIdr driver, wasIdr,
          ?_, hdata, rfl, ?_, rfl, ?_⟩)
        · simp [taken, h, chunkOf]
        · simp [taken, h, chunkOf]
        · simp [taken, h]

/-- A rate change touches the config and the session only. -/
theorem updateRate_keeps (encoder : NvencEncoder) (bitrateBps : UInt32)
    (driver : Driver) :
    ∃ config session, (updateRate encoder bitrateBps driver).1 =
      { encoder with config := config, session := session } := by
  rw [updateRate]
  split
  case h_1 => exact ⟨encoder.config, encoder.session, rfl⟩
  case h_2 cfg hconfig =>
      split_ifs
      · exact ⟨encoder.config, encoder.session, rfl⟩
      · dsimp only
        split
        case h_1 hsession => exact ⟨_, encoder.session, rfl⟩
        case h_2 session hsession => exact ⟨_, _, rfl⟩

/-- A `submit` keeps the config, and touches the session only to open it. -/
theorem submit_session (encoder : NvencEncoder) (frame : GpuFrame)
    (directives : FrameDirectives) (driver : Driver) :
    let after := (submit encoder frame directives driver).1
    after.config = encoder.config ∧
      (after.session = encoder.session ∨
        ∃ cfg, encoder.session = none ∧ encoder.config = some cfg ∧
          after.session = some (Session.initialized cfg)) := by
  intro after
  have hafter : after.config =
        (takeBitstream encoder frame directives driver).1.config ∧
      after.session =
        (takeBitstream encoder frame directives driver).1.session := by
    rcases submit_cases encoder frame directives driver with
      ⟨error, -, h⟩ | ⟨wasIdr, -, h⟩ | ⟨chunk, wasIdr, -, -, -, -, -, h⟩
    · exact ⟨by simp [after, h], by simp [after, h]⟩
    · exact ⟨by simp [after, h, spend], by simp [after, h, spend]⟩
    · exact ⟨by simp [after, h, spend], by simp [after, h, spend]⟩
  rw [hafter.1, hafter.2]
  rcases takeBitstream_cases encoder frame directives driver with
    h | ⟨cfg, hsession, hconfig, h⟩
  · rw [h]
    exact ⟨rfl, Or.inl rfl⟩
  · rw [h]
    exact ⟨rfl, Or.inr ⟨cfg, hsession, hconfig, rfl⟩⟩

/-- An `update_rate` answers from the config, records the rate for the session
to come, or asks the driver. -/
theorem updateRate_cases {encoder : NvencEncoder} {cfg : EncodeConfig}
    (hconfig : encoder.config = some cfg) (bitrateBps : UInt32)
    (driver : Driver) :
    (cfg.bitrateBps = bitrateBps ∧
        updateRate encoder bitrateBps driver = (encoder, .ok ())) ∨
      (cfg.bitrateBps ≠ bitrateBps ∧ encoder.session = none ∧
        updateRate encoder bitrateBps driver =
          ({ encoder with
              config := some { cfg with bitrateBps := bitrateBps } },
            .ok ())) ∨
      ∃ session, cfg.bitrateBps ≠ bitrateBps ∧
        encoder.session = some session ∧
        updateRate encoder bitrateBps driver =
          ({ encoder with
              config := some { cfg with bitrateBps := bitrateBps }
              session :=
                some (session.reconfigure bitrateBps driver.reconfigure).1 },
            (session.reconfigure bitrateBps driver.reconfigure).2) := by
  simp only [updateRate, hconfig]
  by_cases hrate : cfg.bitrateBps = bitrateBps
  · rw [if_pos hrate]
    exact Or.inl ⟨hrate, rfl⟩
  · rw [if_neg hrate]
    refine Or.inr ?_
    cases hsession : encoder.session with
    | none => exact Or.inl ⟨hrate, rfl, rfl⟩
    | some session => exact Or.inr ⟨session, hrate, rfl, rfl⟩

/-- The driver takes the new rate or keeps its own, and it is asked. -/
theorem reconfigure_cases (session : Session) (bitrateBps : UInt32)
    (answer : Reconfigure) :
    (session.reconfigure bitrateBps answer).1.reconfigures =
        session.reconfigures + 1 ∧
      ((session.reconfigure bitrateBps answer).2 = .ok () ∧
          (session.reconfigure bitrateBps answer).1.driver.averageBitRate =
            bitrateBps ∨
        (∃ error, (session.reconfigure bitrateBps answer).2 = .error error) ∧
          (session.reconfigure bitrateBps answer).1.driver =
            session.driver) := by
  cases answer with
  | missing => exact ⟨rfl, Or.inr ⟨⟨_, rfl⟩, rfl⟩⟩
  | refused => exact ⟨rfl, Or.inr ⟨⟨_, rfl⟩, rfl⟩⟩
  | accepted => exact ⟨rfl, Or.inl ⟨rfl, rfl⟩⟩

/-! ## A frame and a driver for examples -/

def smallFrame : GpuFrame := ⟨.d3d11, .bgra8, 2, 2, 0, 0⟩

/-- The driver takes a picture as it is told and returns this bitstream. -/
def answering (data : Bytes) : Driver :=
  ⟨true, true, true, true, fun told => some (data, told), .accepted, true, 0⟩

end GameStreamer.Encode.Nvenc
