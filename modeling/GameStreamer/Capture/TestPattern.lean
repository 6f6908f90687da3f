import GameStreamer.Capture.Handover
import GameStreamer.Capture.Wakeups
import GameStreamer.Encode.MarkedPicture

/-!
# The test pattern source

A generator thread draws a moving picture, marks it with the number of the
frame and submits it to the frame channel, until it finds its stop flag set.
`reconfigure` and `stop` set the flag and join the thread; `reconfigure` then
starts a new generator, on the same channel and from frame 0 again.  The
control thread, the generators and the receiver are interleaved in any way.
-/

open GameStreamer.Raster GameStreamer.Pattern
open GameStreamer.Encode (GpuFrame)
open GameStreamer.Encode.Convert (Holds)

namespace GameStreamer.Capture.TestPattern

/-! ## The pictures -/

/-- The loops of the three fills, which differ in the color of a pixel. -/
def drawWith (color : ℕ → ℕ → UInt8 × UInt8 × UInt8) (w h stride : ℕ)
    (buf : Bytes) : Option Bytes :=
  forRange h (fun y =>
    let row := y * stride
    forRange w fun x =>
      let (b, g, r) := color y x
      putPixel (row + x * 4) b g r 0xff) buf

/-- A bright vertical bar moves over a gradient. -/
def draw (w h stride : ℕ) (index : UInt32) : Bytes → Option Bytes :=
  let barW := max (w / 16) 8
  let barX := index.toNat * 8 % w
  drawWith (fun y x =>
    let g := UInt8.ofNat (y * 255 / h)
    let inBar := (x ≥ barX ∧ x < barX + barW) ∨
      (barX + barW > w ∧ x < (barX + barW) % w)
    if inBar then (0x20, 0xc0, 0xff) else (g / 2, 0x28, 64 + g / 3))
    w h stride

/-- Noise that hardly compresses. -/
def drawNoise (w h stride : ℕ) (index : UInt32) : Bytes → Option Bytes :=
  drawWith (fun y x =>
    let v := (index.toUInt64 * 2654435761) ^^^ (UInt64.ofNat y * 40503) ^^^
      (UInt64.ofNat x * 2246822519)
    let v := v ^^^ (v >>> 13)
    let v := v * 0x5bd1e995
    let v := v ^^^ (v >>> 15)
    (v.toUInt8, (v >>> 8).toUInt8, (v >>> 16).toUInt8))
    w h stride

/-- A triangle wave over an 8-bit phase. -/
def tri (p : Int32) : UInt8 :=
  let m := (p &&& 0xff).toUInt32.toUInt8
  if m < 128 then m * 2 else (255 - m) * 2

/-- A plaid of ramps that moves. -/
def drawDetail (w h stride : ℕ) (index : UInt32) : Bytes → Option Bytes :=
  let t := index.toInt32
  drawWith (fun y x =>
    let yy := Int32.ofNat y
    let xx := Int32.ofNat x
    (tri ((xx + yy) * 4 + t * 5), tri (yy * 4 + t * 3), tri (xx * 4 + t * 2)))
    w h stride

/-- What the environment asks for. -/
inductive Fill where
  | gradient
  | noise
  | detail
  deriving DecidableEq, Repr

def Fill.draw : Fill → ℕ → ℕ → ℕ → UInt32 → Bytes → Option Bytes
  | gradient => TestPattern.draw
  | noise => drawNoise
  | detail => drawDetail

/-- One round of `run_generator`, up to the buffer; `none` for a panic. -/
def picture (fill : Fill) (mode : VideoMode) (index : UInt32) :
    Option Bytes := do
  let w := mode.width.toNat
  let h := mode.height.toNat
  let stride := w * 4
  let buf ← fill.draw w h stride index (List.replicate (stride * h) 0)
  writeMarkerBgra buf stride index

/-- The modes that `start` takes. -/
def Accepted (mode : VideoMode) : Prop :=
  ¬(mode.width.toNat < minWidth ∨ mode.height.toNat < 32 ∨ mode.fps = 0)

instance (mode : VideoMode) : Decidable (Accepted mode) :=
  inferInstanceAs (Decidable ¬_)

/-- A fill stays within the picture, and keeps its size. -/
theorem drawWith_total {color : ℕ → ℕ → UInt8 × UInt8 × UInt8}
    {w h stride : ℕ} {buf : Bytes} (hholds : Holds buf stride w h) :
    ∃ drawn, drawWith color w h stride buf = some drawn ∧
      drawn.length = buf.length := by
  have hdraws : Draws (fun buf => drawWith color w h stride buf)
      (.stack h fun y => .stack w fun x =>
        pixel (y * stride + x * 4) (color y x).1 (color y x).2.1
          (color y x).2.2 0xff) := by
    apply Draws.forRange
    intro y _
    apply Draws.forRange
    intro x _
    apply draws_putPixel
  refine ⟨_, hdraws.laid ?_, Picture.length_lay ..⟩
  intro i hi
  obtain ⟨shown, hshown⟩ := Option.isSome_iff_exists.mp hi
  obtain ⟨y, hy, hline⟩ := Picture.mem_of_stack hshown
  obtain ⟨x, hx, hpixel⟩ := Picture.mem_of_stack hline
  obtain ⟨c, hc, hdot⟩ := Picture.mem_of_stack hpixel
  obtain ⟨rfl, -⟩ := eq_of_dot hdot
  calc y * stride + x * 4 + c < y * stride + w * 4 := by omega
    _ ≤ y * stride + stride := Nat.add_le_add_left hholds.wide _
    _ = stride * (y + 1) := by rw [Nat.mul_succ, Nat.mul_comm]
    _ ≤ stride * h := Nat.mul_le_mul_left stride hy
    _ ≤ buf.length := hholds.long

theorem Fill.draw_total (fill : Fill) (index : UInt32) {w h stride : ℕ}
    {buf : Bytes} (hholds : Holds buf stride w h) :
    ∃ drawn, fill.draw w h stride index buf = some drawn ∧
      drawn.length = buf.length := by
  cases fill with
  | gradient => exact drawWith_total hholds
  | noise =>
      rw [Fill.draw, drawNoise]
      exact drawWith_total hholds
  | detail =>
      rw [Fill.draw, drawDetail]
      exact drawWith_total hholds

/-- In an accepted mode the generator never panics, and every picture has its
marker. -/
theorem picture_marked (fill : Fill) {mode : VideoMode} (index : UInt32)
    (haccepted : Accepted mode) :
    ∃ drawn, picture fill mode index =
        some ((marker (mode.width.toNat * 4) index).lay drawn) ∧
      Holds drawn (mode.width.toNat * 4) mode.width.toNat
        mode.height.toNat := by
  have hmode := not_or.mp haccepted
  have hhigh := not_or.mp hmode.2
  rw [Nat.not_lt] at hmode hhigh
  have hblank : Holds (List.replicate
      (mode.width.toNat * 4 * mode.height.toNat) (0 : UInt8))
      (mode.width.toNat * 4) mode.width.toNat mode.height.toNat :=
    ⟨le_refl _, (List.length_replicate).ge⟩
  obtain ⟨drawn, hdrawn, hlength⟩ := fill.draw_total index hblank
  have hholds : Holds drawn (mode.width.toNat * 4) mode.width.toNat
      mode.height.toNat := ⟨le_refl _, hlength.symm ▸ hblank.long⟩
  have hblock : block ≤ mode.height.toNat :=
    (by decide : block ≤ 32).trans hhigh.1
  have hroom := hholds.marker_room hmode.1 hblock
  refine ⟨drawn, ?_, hholds⟩
  rw [picture, hdrawn, Option.bind_eq_bind, Option.bind_some]
  exact writeMarkerBgra_eq drawn index hroom.1 hroom.2

/-! ## The source -/

/-- A frame, and what only its generator knows. -/
structure Made where
  generator : ℕ
  /-- How many frames of the generator came before it. -/
  number : ℕ
  mode : VideoMode
  fill : Fill
  frame : GpuFrame

/-- Where a generator's thread stands. -/
inductive Phase where
  /-- It is about to look at its stop flag. -/
  | looping
  | submitting
  | exited
  deriving DecidableEq, Repr

/-- The generator that runs, with its thread, its mode and its stop flag.
`index` goes into the marker of the next frame; `made` counts without
wrapping. -/
structure Worker where
  /-- The thread is a producer of the channel. -/
  thread : ℕ
  mode : VideoMode
  fill : Fill
  stop : Bool
  index : UInt32
  made : ℕ
  phase : Phase

/-- Where the control thread stands. -/
inductive Control where
  | idle
  /-- It has set the stop flag and waits for the thread; `reconfigure` goes
  on with a mode. -/
  | joining (next : Option (Fill × VideoMode))
  deriving DecidableEq, Repr

/-- The test source.  At most one generator runs at a time; a call of the
control thread that ends it is suspended until its thread has exited. -/
structure State where
  channel : FrameChannel.State Made
  worker : Option Worker
  control : Control
  /-- The generators so far. -/
  spawned : ℕ

inductive Event where
  | start (fill : Fill) (mode : VideoMode)
  | reconfigure (fill : Fill) (mode : VideoMode)
  | stop
  /-- The control thread looks whether the generator has exited. -/
  | join
  /-- The generator's next step outside of `submit`. -/
  | generate (nowUs : ℕ)
  /-- The next step of a thread within `submit` or `close`. -/
  | produce (p : ℕ)
  | recvLatest
  | receive
  | spurious
  | timeout

/-- `TestPattern::new`, and the channel that `start` gets.  The control thread
is producer 0. -/
def new : State := ⟨FrameChannel.start, none, .idle, 0⟩

/-- `start`: it refuses a second generator, and an unsupported mode. -/
def State.start (state : State) (fill : Fill) (mode : VideoMode) : State :=
  if state.worker.isSome then state
  else if ¬Accepted mode then state
  else
    { state with
      worker := some ⟨state.spawned + 1, mode, fill, false, 0, 0, .looping⟩
      spawned := state.spawned + 1 }

/-- `reconfigure` or `stop` on a running source, up to the join. -/
def State.halt (state : State) (next : Option (Fill × VideoMode)) : State :=
  match state.worker with
  | none => state
  | some worker =>
      { state with
        worker := some { worker with stop := true }
        control := .joining next }

/-- The join returns, and the call goes on. -/
def State.join (state : State) (next : Option (Fill × VideoMode)) : State :=
  let joined := { state with worker := none, control := .idle }
  match next with
  | some (fill, mode) => joined.start fill mode
  | none =>
      { joined with
        channel := FrameChannel.step joined.channel (.close 0) }

def State.made (state : State) (worker : Worker) (data : Bytes)
    (nowUs : ℕ) : Made :=
  { generator := worker.thread
    number := worker.made
    mode := worker.mode
    fill := worker.fill
    frame :=
      { handle := .cpu data (worker.mode.width.toNat * 4)
        format := .bgra8
        width := worker.mode.width
        height := worker.mode.height
        captureTsUs := nowUs
        serial := state.channel.stored.length } }

/-- The loop of `run_generator`: look at the stop flag, draw a frame and submit
it.  The index goes on once `submit` has returned; a panic while drawing ends
the thread. -/
def State.generate (state : State) (worker : Worker) (nowUs : ℕ) : State :=
  match worker.phase with
  | .looping =>
      if worker.stop then
        { state with worker := some { worker with phase := .exited } }
      else
        match picture worker.fill worker.mode worker.index with
        | none => { state with worker := some { worker with phase := .exited } }
        | some data =>
            let made := state.made worker data nowUs
            { state with
              channel := FrameChannel.step state.channel
                (.submit worker.thread made)
              worker := some { worker with phase := .submitting } }
  | .submitting =>
      match state.channel.producers worker.thread with
      | .idle =>
          { state with
            worker := some { worker with
              index := worker.index + 1
              made := worker.made + 1
              phase := .looping } }
      | _ => state
  | .exited => state

/-- One step of a thread of the source or of the receiver.  The control thread
takes a call only when it is in none. -/
def step (state : State) : Event → State
  | .start fill mode =>
      if state.control = .idle then state.start fill mode else state
  | .reconfigure fill mode =>
      if state.control = .idle then state.halt (some (fill, mode)) else state
  | .stop => if state.control = .idle then state.halt none else state
  | .join =>
      match state.control, state.worker with
      | .joining next, some worker =>
          if worker.phase = .exited then state.join next else state
      | _, _ => state
  | .generate nowUs =>
      match state.worker with
      | none => state
      | some worker => state.generate worker nowUs
  | .produce p =>
      { state with channel := FrameChannel.step state.channel (.produce p) }
  | .recvLatest =>
      { state with channel := FrameChannel.step state.channel .recvLatest }
  | .receive =>
      { state with channel := FrameChannel.step state.channel .receive }
  | .spurious =>
      { state with channel := FrameChannel.step state.channel .spurious }
  | .timeout =>
      { state with channel := FrameChannel.step state.channel .timeout }

/-! ## The order of the frames -/

/-- The earlier of two frames: by generator, then by number. -/
def Made.Before (left right : Made) : Prop :=
  left.generator < right.generator ∨
    left.generator = right.generator ∧ left.number < right.number

/-- The frame is the picture of its number, and its marker says so. -/
structure Made.Authentic (made : Made) : Prop where
  accepted : Accepted made.mode
  handle : ∃ data, made.frame.handle =
      .cpu data (made.mode.width.toNat * 4) ∧
    picture made.fill made.mode (UInt32.ofNat made.number) = some data
  size : made.frame.format = .bgra8 ∧ made.frame.width = made.mode.width ∧
    made.frame.height = made.mode.height

/-- A generator at its work, and the frames that it has stored. -/
structure Working (state : State) (worker : Worker) : Prop where
  thread : worker.thread = state.spawned ∧ 0 < worker.thread
  accepted : Accepted worker.mode
  index : worker.index = UInt32.ofNat worker.made
  quiet : worker.phase ≠ .submitting →
    state.channel.producers worker.thread = .idle
  pending : ∀ made, (state.channel.producers worker.thread).carried =
    some made → made.generator = worker.thread ∧ made.number = worker.made ∧
      made.Authentic
  behind : ∀ made ∈ state.channel.stored,
    made.generator = worker.thread → made.number < worker.made ∨
      made.number = worker.made ∧ worker.phase = .submitting ∧
        (state.channel.producers worker.thread).carried = none

structure Inv (state : State) : Prop where
  control : (state.channel.producers 0).carried = none
  others : ∀ p, p ≠ 0 → (∀ worker, state.worker = some worker →
    p ≠ worker.thread) → state.channel.producers p = .idle
  working : ∀ worker, state.worker = some worker → Working state worker
  ordered : state.channel.stored.Pairwise Made.Before
  authentic : ∀ made ∈ state.channel.stored, made.Authentic
  past : ∀ made ∈ state.channel.stored, made.generator ≤ state.spawned

theorem new_inv : Inv new where
  control := rfl
  others _ _ _ := rfl
  working _ hworker := by cases hworker
  ordered := List.Pairwise.nil
  authentic _ hmem := by cases hmem
  past _ hmem := by cases hmem

section Steps

variable {state : State}

/-- A step of the receiver. -/
theorem Inv.receive (hinv : Inv state) {channel : FrameChannel.State Made}
    (hproducers : channel.producers = state.channel.producers)
    (hstored : channel.stored = state.channel.stored) :
    Inv { state with channel := channel } where
  control := by
    dsimp only
    rw [hproducers]
    exact hinv.control
  others := by
    dsimp only
    rw [hproducers]
    exact hinv.others
  working worker hworker := by
    have hworking := hinv.working worker hworker
    constructor
    · exact hworking.thread
    · exact hworking.accepted
    · exact hworking.index
    · dsimp only
      rw [hproducers]
      exact hworking.quiet
    · dsimp only
      rw [hproducers]
      exact hworking.pending
    · dsimp only
      rw [hproducers, hstored]
      exact hworking.behind
  ordered := by
    dsimp only
    rw [hstored]
    exact hinv.ordered
  authentic := by
    dsimp only
    rw [hstored]
    exact hinv.authentic
  past := by
    dsimp only
    rw [hstored]
    exact hinv.past

/-- The receiver turns to another phase, under a condition. -/
theorem Inv.turn (hinv : Inv state) (cond : Prop) [Decidable cond]
    (receiver : FrameChannel.Receiver) :
    Inv { state with
      channel :=
        if cond then { state.channel with receiver := receiver }
        else state.channel } := by
  split
  · exact hinv.receive rfl rfl
  · exact hinv

theorem Inv.start (hinv : Inv state) (fill : Fill) (mode : VideoMode) :
    Inv (state.start fill mode) := by
  rw [State.start]
  split
  · exact hinv
  rename_i hworker
  split
  · exact hinv
  rename_i haccepted
  have hnone : state.worker = none :=
    Option.not_isSome_iff_eq_none.mp hworker
  have hidle : ∀ p, p ≠ 0 → state.channel.producers p = .idle := by
    intro p hp
    apply hinv.others p hp
    intro worker hsome
    rw [hnone] at hsome
    cases hsome
  constructor
  · exact hinv.control
  · intro p hp _
    exact hidle p hp
  · rintro worker ⟨⟩
    have hthread := hidle (state.spawned + 1) (Nat.succ_ne_zero _)
    constructor
    · exact ⟨rfl, Nat.succ_pos _⟩
    · exact not_not.mp haccepted
    · rfl
    · intro _
      exact hthread
    · intro made hmade
      dsimp only at hmade
      rw [hthread] at hmade
      cases hmade
    · intro made hmem hgenerator
      have hpast := hinv.past made hmem
      dsimp only at hgenerator
      omega
  · exact hinv.ordered
  · exact hinv.authentic
  · intro made hmem
    exact (hinv.past made hmem).trans (Nat.le_succ _)

theorem Inv.halt (hinv : Inv state) (next : Option (Fill × VideoMode)) :
    Inv (state.halt next) := by
  rw [State.halt]
  cases hworker : state.worker with
  | none => exact hinv
  | some worker =>
      have hworking := hinv.working worker hworker
      constructor
      · exact hinv.control
      · intro p hp hother
        apply hinv.others p hp
        intro worker' hsome
        rw [hworker] at hsome
        cases hsome
        exact hother { worker with stop := true } rfl
      · rintro _ ⟨⟩
        exact ⟨hworking.thread, hworking.accepted, hworking.index,
          hworking.quiet, hworking.pending, hworking.behind⟩
      · exact hinv.ordered
      · exact hinv.authentic
      · exact hinv.past

/-- The thread has exited, and nothing of it is on its way any more. -/
theorem Inv.joined (hinv : Inv state) {worker : Worker}
    (hworker : state.worker = some worker) (hexited : worker.phase = .exited) :
    Inv { state with worker := none, control := .idle } where
  control := hinv.control
  others p hp _ := by
    by_cases hthread : p = worker.thread
    · have hworking := hinv.working worker hworker
      rw [hthread]
      apply hworking.quiet
      rw [hexited]
      exact Phase.noConfusion
    · apply hinv.others p hp
      intro other hother
      rw [hworker] at hother
      cases hother
      exact hthread
  working _ hnone := by cases hnone
  ordered := hinv.ordered
  authentic := hinv.authentic
  past := hinv.past

theorem Inv.close (hinv : Inv state) (hworker : state.worker = none) :
    Inv { state with
      channel := FrameChannel.step state.channel (.close 0) } := by
  unfold FrameChannel.step
  dsimp only
  split
  · constructor
    · dsimp only
      rw [FrameChannel.setProducer_self]
      rfl
    · intro p hp hother
      dsimp only
      rw [FrameChannel.setProducer_of_ne _ _ hp]
      exact hinv.others p hp hother
    · intro worker hsome
      rw [hworker] at hsome
      cases hsome
    · exact hinv.ordered
    · exact hinv.authentic
    · exact hinv.past
  · exact hinv

theorem Inv.join (hinv : Inv state) {worker : Worker}
    (hworker : state.worker = some worker) (hexited : worker.phase = .exited)
    (next : Option (Fill × VideoMode)) : Inv (state.join next) := by
  have hjoined := hinv.joined hworker hexited
  cases next with
  | none => exact hjoined.close rfl
  | some next => exact hjoined.start next.1 next.2

/-- Another generator's thread than the one at work has exited. -/
theorem Inv.of_worker (hinv : Inv state) {worker after : Worker}
    (hworker : state.worker = some worker)
    (hthread : after.thread = worker.thread)
    (hworking : Working { state with worker := some after } after) :
    Inv { state with worker := some after } where
  control := hinv.control
  others p hp hother := by
    apply hinv.others p hp
    intro other hsome
    rw [hworker] at hsome
    cases hsome
    rw [← hthread]
    exact hother after rfl
  working other hsome := by
    cases hsome
    exact hworking
  ordered := hinv.ordered
  authentic := hinv.authentic
  past := hinv.past

/-- The generator leaves its loop. -/
theorem Inv.exit (hinv : Inv state) {worker : Worker}
    (hworker : state.worker = some worker)
    (hlooping : worker.phase = .looping) :
    Inv { state with worker := some { worker with phase := .exited } } := by
  have hworking := hinv.working worker hworker
  have hquiet := hworking.quiet (by rw [hlooping]; exact Phase.noConfusion)
  apply hinv.of_worker hworker
  · rfl
  constructor
  · exact hworking.thread
  · exact hworking.accepted
  · exact hworking.index
  · intro _
    exact hquiet
  · exact hworking.pending
  · intro made hmem hgenerator
    rcases hworking.behind made hmem hgenerator with hlt | ⟨-, hphase, -⟩
    · exact Or.inl hlt
    · rw [hlooping] at hphase
      cases hphase

/-- The generator is back from `submit`, and its frame is stored. -/
theorem Inv.advance (hinv : Inv state) {worker : Worker}
    (hworker : state.worker = some worker)
    (hidle : state.channel.producers worker.thread = .idle) :
    Inv { state with
      worker := some { worker with
        index := worker.index + 1
        made := worker.made + 1
        phase := .looping } } := by
  have hworking := hinv.working worker hworker
  apply hinv.of_worker hworker
  · rfl
  constructor
  · exact hworking.thread
  · exact hworking.accepted
  · rw [hworking.index, UInt32.ofNat_add]
    rfl
  · intro _
    exact hidle
  · intro made hmade
    dsimp only at hmade
    rw [hidle] at hmade
    cases hmade
  · intro made hmem hgenerator
    rcases hworking.behind made hmem hgenerator with hlt | ⟨heq, -, -⟩
    · exact Or.inl (Nat.lt_succ_of_lt hlt)
    · exact Or.inl (heq ▸ Nat.lt_succ_self _)

/-- A frame goes into `submit`. -/
theorem Inv.submit (hinv : Inv state) {worker : Worker}
    (hworker : state.worker = some worker)
    (hlooping : worker.phase = .looping) {data : Bytes} (nowUs : ℕ)
    (hdata : picture worker.fill worker.mode worker.index = some data) :
    Inv { state with
      channel := FrameChannel.step state.channel
        (.submit worker.thread (state.made worker data nowUs))
      worker := some { worker with phase := .submitting } } := by
  have hworking := hinv.working worker hworker
  have hidle := hworking.quiet (by rw [hlooping]; exact Phase.noConfusion)
  have hne : (0 : ℕ) ≠ worker.thread := hworking.thread.2.ne
  have hstep : FrameChannel.step state.channel
      (.submit worker.thread (state.made worker data nowUs)) =
      { state.channel.setProducer worker.thread
          (.submitting (state.made worker data nowUs)) with
        offered := state.channel.offered + 1 } := by
    unfold FrameChannel.step
    dsimp only
    rw [hidle]
  rw [hstep]
  constructor
  · dsimp only
    rw [FrameChannel.setProducer_of_ne _ _ hne]
    exact hinv.control
  · intro p hp hother
    have hthread := hother { worker with phase := .submitting } rfl
    dsimp only
    rw [FrameChannel.setProducer_of_ne _ _ hthread]
    apply hinv.others p hp
    intro other hsome
    rw [hworker] at hsome
    cases hsome
    exact hthread
  · rintro _ ⟨⟩
    constructor
    · exact hworking.thread
    · exact hworking.accepted
    · exact hworking.index
    · intro hphase
      exact absurd rfl hphase
    · intro made hmade
      dsimp only at hmade
      rw [FrameChannel.setProducer_self] at hmade
      cases hmade
      rw [hworking.index] at hdata
      exact ⟨rfl, rfl, hworking.accepted, ⟨data, rfl, hdata⟩, rfl, rfl, rfl⟩
    · intro made hmem hgenerator
      rcases hworking.behind made hmem hgenerator with hlt | ⟨-, hphase, -⟩
      · exact Or.inl hlt
      · rw [hlooping] at hphase
        cases hphase
  · exact hinv.ordered
  · exact hinv.authentic
  · exact hinv.past

theorem Inv.generate (hinv : Inv state) {worker : Worker}
    (hworker : state.worker = some worker) (nowUs : ℕ) :
    Inv (state.generate worker nowUs) := by
  rw [State.generate]
  cases hphase : worker.phase with
  | looping =>
      dsimp only
      split
      · exact hinv.exit hworker hphase
      · split
        · exact hinv.exit hworker hphase
        · rename_i data hdata
          exact hinv.submit hworker hphase nowUs hdata
  | submitting =>
      dsimp only
      split
      · rename_i hidle
        exact hinv.advance hworker hidle
      · exact hinv
  | exited => exact hinv

/-- A thread takes its next step within `submit` or `close`, and stores
nothing. -/
theorem Inv.produce_quiet (hinv : Inv state) {p : ℕ}
    {channel : FrameChannel.State Made}
    (hstored : channel.stored = state.channel.stored)
    (hothers : ∀ q, q ≠ p → channel.producers q = state.channel.producers q)
    (hpending : (channel.producers p).carried =
      (state.channel.producers p).carried)
    (hidle : state.channel.producers p = .idle → channel.producers p = .idle) :
    Inv { state with channel := channel } := by
  have hsame : ∀ q, (channel.producers q).carried =
      (state.channel.producers q).carried := by
    intro q
    by_cases hq : q = p
    · rw [hq, hpending]
    · rw [hothers q hq]
  have hquiet : ∀ q, state.channel.producers q = .idle →
      channel.producers q = .idle := by
    intro q hq
    by_cases heq : q = p
    · rw [heq]
      exact hidle (heq ▸ hq)
    · rw [hothers q heq, hq]
  constructor
  · exact (hsame 0).trans hinv.control
  · intro q hq hother
    exact hquiet q (hinv.others q hq hother)
  · intro worker hworker
    have hworking := hinv.working worker hworker
    constructor
    · exact hworking.thread
    · exact hworking.accepted
    · exact hworking.index
    · intro hphase
      exact hquiet _ (hworking.quiet hphase)
    · dsimp only
      rw [hsame]
      exact hworking.pending
    · dsimp only
      rw [hsame, hstored]
      exact hworking.behind
  · dsimp only
    rw [hstored]
    exact hinv.ordered
  · dsimp only
    rw [hstored]
    exact hinv.authentic
  · dsimp only
    rw [hstored]
    exact hinv.past

/-- The only thread with a frame is that of the generator. -/
theorem Inv.thread_of_carried (hinv : Inv state) {p : ℕ} {made : Made}
    (hcarried : (state.channel.producers p).carried = some made) :
    ∃ worker, state.worker = some worker ∧ p = worker.thread := by
  by_cases hzero : p = 0
  · rw [hzero, hinv.control] at hcarried
    cases hcarried
  by_contra hnone
  have hidle := hinv.others p hzero fun worker hworker heq =>
    hnone ⟨worker, hworker, heq⟩
  rw [hidle] at hcarried
  cases hcarried

/-- A generator's frame is later than every stored one. -/
theorem Inv.before_carried (hinv : Inv state) {worker : Worker}
    (hworker : state.worker = some worker) {made : Made}
    (hcarried : (state.channel.producers worker.thread).carried = some made)
    {other : Made} (hmem : other ∈ state.channel.stored) :
    other.Before made := by
  have hworking := hinv.working worker hworker
  obtain ⟨hgenerator, hnumber, -⟩ := hworking.pending made hcarried
  have hpast := hinv.past other hmem
  rw [← hworking.thread.1, ← hgenerator] at hpast
  rcases Nat.lt_or_eq_of_le hpast with hlt | heq
  · exact Or.inl hlt
  · rcases hworking.behind other hmem (heq.trans hgenerator) with
      hlt | ⟨-, -, hnone⟩
    · exact Or.inr ⟨heq, hnumber ▸ hlt⟩
    · rw [hcarried] at hnone
      cases hnone

section Store

variable {worker : Worker} {made : Made} {channel : FrameChannel.State Made}
  (hlocked : state.channel.producers worker.thread = .locked made)
  (hproducers : channel.producers =
    Function.update state.channel.producers worker.thread .stored)
  (hstored : channel.stored = state.channel.stored ++ [made])

include hlocked hproducers hstored

/-- The generator goes on once its frame is in the slot. -/
theorem Working.store (hworking : Working state worker) :
    Working { state with channel := channel } worker := by
  have hcarried : (state.channel.producers worker.thread).carried =
      some made := by
    rw [hlocked]
    rfl
  have hphase : worker.phase = .submitting := by
    by_contra hphase
    rw [hworking.quiet hphase] at hlocked
    cases hlocked
  have hnone : (channel.producers worker.thread).carried = none := by
    rw [hproducers, Function.update_self]
    rfl
  constructor
  · exact hworking.thread
  · exact hworking.accepted
  · exact hworking.index
  · exact fun hquiet => absurd hphase hquiet
  · intro other hsome
    rw [hnone] at hsome
    cases hsome
  · dsimp only
    rw [hstored]
    intro other hmem hsame
    rcases List.mem_append.mp hmem with hold | hnew
    · rcases hworking.behind other hold hsame with hlt | ⟨-, -, hempty⟩
      · exact Or.inl hlt
      · rw [hcarried] at hempty
        cases hempty
    · rw [List.mem_singleton.mp hnew]
      exact Or.inr ⟨(hworking.pending made hcarried).2.1, hphase, hnone⟩

/-- A frame comes into the slot. -/
theorem Inv.store (hinv : Inv state) (hworker : state.worker = some worker) :
    Inv { state with channel := channel } := by
  have hworking := hinv.working worker hworker
  have hcarried : (state.channel.producers worker.thread).carried =
      some made := by
    rw [hlocked]
    rfl
  obtain ⟨hgenerator, -, hauthentic⟩ := hworking.pending made hcarried
  constructor
  · dsimp only
    rw [hproducers, Function.update_of_ne hworking.thread.2.ne]
    exact hinv.control
  · intro q hq hother
    dsimp only
    rw [hproducers, Function.update_of_ne (hother worker hworker)]
    exact hinv.others q hq hother
  · intro other hother
    rw [hworker] at hother
    cases hother
    exact hworking.store hlocked hproducers hstored
  · dsimp only
    rw [hstored, List.pairwise_append]
    refine ⟨hinv.ordered, List.pairwise_singleton _ _, ?_⟩
    intro other hmem _ hmade
    rw [List.mem_singleton.mp hmade]
    exact hinv.before_carried hworker hcarried hmem
  · dsimp only
    rw [hstored, List.forall_mem_append, List.forall_mem_singleton]
    exact ⟨hinv.authentic, hauthentic⟩
  · dsimp only
    rw [hstored, List.forall_mem_append, List.forall_mem_singleton]
    exact ⟨hinv.past, hgenerator.trans_le hworking.thread.1.le⟩

end Store

/-- Only a thread that holds the lock with its frame stores one. -/
theorem Inv.produce (hinv : Inv state) (p : ℕ) :
    Inv { state with channel := FrameChannel.produce state.channel p } := by
  by_cases hidle : state.channel.producers p = .idle
  · rw [FrameChannel.produce_of_idle hidle]
    exact hinv
  cases FrameChannel.produced state.channel p with
  | moves next hproducers hcarried _ _ hstored =>
      apply hinv.produce_quiet (p := p) hstored
      · intro q hq
        rw [hproducers, Function.update_of_ne hq]
      · rw [hproducers, Function.update_self, hcarried]
      · exact fun hphase => absurd hphase hidle
  | stores made hlocked hproducers _ hstored =>
      have hcarried : (state.channel.producers p).carried = some made := by
        rw [hlocked]
        rfl
      obtain ⟨worker, hworker, rfl⟩ := hinv.thread_of_carried hcarried
      exact hinv.store hlocked hproducers hstored hworker

theorem step_inv (state : State) (event : Event) (hinv : Inv state) :
    Inv (step state event) := by
  cases event with
  | start fill mode =>
      rw [step]
      split
      · exact hinv.start fill mode
      · exact hinv
  | reconfigure fill mode =>
      rw [step]
      split
      · exact hinv.halt (some (fill, mode))
      · exact hinv
  | stop =>
      rw [step]
      split
      · exact hinv.halt none
      · exact hinv
  | join =>
      rw [step]
      split
      · rename_i next worker _ hworker
        split
        · rename_i hexited
          exact hinv.join hworker hexited next
        · exact hinv
      · exact hinv
  | generate nowUs =>
      rw [step]
      split
      · exact hinv
      · rename_i worker hworker
        exact hinv.generate hworker nowUs
  | produce p => exact hinv.produce p
  | recvLatest => exact hinv.turn _ _
  | receive =>
      apply hinv.receive
      · exact FrameChannel.receive_producers state.channel
      · exact FrameChannel.receive_stored state.channel
  | spurious => exact hinv.turn _ _
  | timeout => exact hinv.turn _ _

end Steps

theorem run_inv (events : List Event) : Inv (events.foldl step new) :=
  EventRun.foldl_preserves step_inv events new_inv

/-! ## What the client sees -/

/-- The number that a frame's marker shows. -/
def Made.marker (made : Made) : UInt32 := UInt32.ofNat made.number

/-- The client's check for a marker that went back, which allows for frames
that were skipped. -/
def regressed (marker prev : UInt32) : Bool := marker - prev > halfRange

theorem not_regressed {earlier later : Made}
    (hle : earlier.number ≤ later.number)
    (hnear : later.number ≤ earlier.number + halfRange.toNat) :
    regressed later.marker earlier.marker = false := by
  rw [regressed, Made.marker, Made.marker, ← UInt32.ofNat_sub hle,
    decide_eq_false_iff_not, gt_iff_lt, UInt32.lt_iff_toNat_lt,
    UInt32.toNat_ofNat']
  have hmod := Nat.mod_le (later.number - earlier.number) (2 ^ 32)
  omega

/-- What a frame shows to a client that reads its marker: directly, or out of
a luma plane that a codec has not spoilt. -/
structure Made.Shows (made : Made) : Prop where
  accepted : Accepted made.mode
  reads : ∃ data, made.frame.handle =
      .cpu data (made.mode.width.toNat * 4) ∧
    readMarkerRgba data made.mode.width.toNat = some made.marker ∧
    ∀ decoded decodedStride, made.mode.width.toNat ≤ decodedStride →
      Encode.Near 106 decoded decodedStride made.mode.width.toNat
        made.mode.height.toNat (fun row col => Encode.Convert.luma
          (Encode.Convert.pixelAt data (made.mode.width.toNat * 4) row col)) →
      readMarkerLuma decoded decodedStride made.mode.width.toNat =
        some made.marker

theorem Made.Authentic.shows {made : Made} (hauthentic : made.Authentic) :
    made.Shows := by
  obtain ⟨haccepted, ⟨data, hhandle, hdata⟩, -⟩ := hauthentic
  obtain ⟨drawn, hdrawn, hholds⟩ :=
    picture_marked made.fill (UInt32.ofNat made.number) haccepted
  have hmode := not_or.mp haccepted
  have hhigh : block ≤ made.mode.height.toNat :=
    (by decide : block ≤ 32).trans (Nat.not_lt.mp (not_or.mp hmode.2).1)
  rw [hdata, Option.some_inj] at hdrawn
  subst hdrawn
  refine ⟨haccepted, _, hhandle, ?_, ?_⟩
  · exact Encode.readMarkerRgba_marker hholds (Nat.not_lt.mp hmode.1) hhigh
  · intro decoded decodedStride hdecoded hnear
    exact Encode.readMarkerLuma_near hholds (Nat.not_lt.mp hmode.1) hhigh
      hdecoded hnear

theorem start_channel (state : State) (fill : Fill) (mode : VideoMode) :
    (state.start fill mode).channel = state.channel := by
  rw [State.start]
  split_ifs <;> rfl

theorem halt_channel (state : State) (next : Option (Fill × VideoMode)) :
    (state.halt next).channel = state.channel := by
  rw [State.halt]
  split <;> rfl

/-- The channel has gone on to this state by steps of its own. -/
def Reaches (before after : FrameChannel.State Made) : Prop :=
  ∃ events : List (FrameChannel.Event Made),
    after = events.foldl FrameChannel.step before

/-- A step of the source is at most one step of its channel. -/
theorem channel_step (state : State) (event : Event) :
    Reaches state.channel (step state event).channel := by
  have hsame : ∀ {after : State}, after.channel = state.channel →
      Reaches state.channel after.channel :=
    fun heq => ⟨[], heq⟩
  cases event with
  | start fill mode =>
      rw [step]
      split
      · exact hsame (start_channel state fill mode)
      · exact hsame rfl
  | reconfigure fill mode =>
      rw [step]
      split
      · exact hsame (halt_channel state _)
      · exact hsame rfl
  | stop =>
      rw [step]
      split
      · exact hsame (halt_channel state _)
      · exact hsame rfl
  | join =>
      rw [step]
      split
      · rename_i next worker _ _
        split
        · cases next with
          | none => exact ⟨[.close 0], rfl⟩
          | some next => exact hsame (start_channel _ next.1 next.2)
        · exact hsame rfl
      · exact hsame rfl
  | generate nowUs =>
      rw [step]
      split
      · exact hsame rfl
      · rename_i worker _
        rw [State.generate]
        split
        · split
          · exact hsame rfl
          · split
            · exact hsame rfl
            · exact ⟨[.submit worker.thread _], rfl⟩
        · split <;> exact hsame rfl
        · exact hsame rfl
  | produce p => exact ⟨[.produce p], rfl⟩
  | recvLatest => exact ⟨[.recvLatest], rfl⟩
  | receive => exact ⟨[.receive], rfl⟩
  | spurious => exact ⟨[.spurious], rfl⟩
  | timeout => exact ⟨[.timeout], rfl⟩

theorem channel_run (state : State) (events : List Event) :
    Reaches state.channel (events.foldl step state).channel := by
  induction events generalizing state with
  | nil => exact ⟨[], rfl⟩
  | cons event events ih =>
      obtain ⟨first, hfirst⟩ := channel_step state event
      obtain ⟨rest, hrest⟩ := ih (step state event)
      refine ⟨first ++ rest, ?_⟩
      rw [List.foldl_cons, hrest, hfirst, List.foldl_append]

/-- In every interleaving of the source, its generators and the receiver, the
frames come out in the order in which they were made, every one with its
number in its marker; and the client sees no marker of a generator go back. -/
theorem foldl_step_received (events : List Event) :
    ((events.foldl step new).channel.returned.reduceOption.Pairwise
      fun earlier later => earlier.Before later ∧
        (earlier.generator = later.generator →
          later.number ≤ earlier.number + halfRange.toNat →
          regressed later.marker earlier.marker = false)) ∧
      ∀ made ∈ (events.foldl step new).channel.returned.reduceOption,
        made.Shows := by
  have hinv := run_inv events
  obtain ⟨channelEvents, hchannel⟩ := channel_run new events
  have haccounted := FrameChannel.run_accounted channelEvents
  have hsub : (events.foldl step new).channel.returned.reduceOption.Sublist
      (events.foldl step new).channel.stored := by
    rw [hchannel]
    exact (List.sublist_append_left ..).trans haccounted.order
  constructor
  · apply (hinv.ordered.sublist hsub).imp
    intro earlier later hbefore
    refine ⟨hbefore, ?_⟩
    intro hgenerator hnear
    rcases hbefore with hlt | ⟨-, hlt⟩
    · exact absurd hlt (hgenerator ▸ Nat.lt_irrefl _)
    · exact not_regressed hlt.le hnear
  · intro made hmem
    exact (hinv.authentic made (hsub.subset hmem)).shows

/-! ## A new generator -/

/-- The first generator that can still make frames. -/
def State.floor (state : State) : ℕ :=
  if state.worker.isSome then state.spawned else state.spawned + 1

/-- Frames are made by this generator or later ones only. -/
structure From (floor : ℕ) (stored : List Made) (state : State) : Prop where
  inv : Inv state
  worker : ∀ worker, state.worker = some worker → floor ≤ worker.thread
  next : floor ≤ state.spawned + 1
  stored : ∃ new, state.channel.stored = stored ++ new ∧
    ∀ made ∈ new, floor ≤ made.generator

theorem from_floor {state : State} (hinv : Inv state) :
    From state.floor state.channel.stored state where
  inv := hinv
  worker worker hworker := by
    have hthread := (hinv.working worker hworker).thread.1
    rw [State.floor, hworker, hthread]
    exact le_refl _
  next := by
    rw [State.floor]
    split
    · exact Nat.le_succ _
    · exact le_refl _
  stored := ⟨[], (List.append_nil _).symm, fun _ hmem => by cases hmem⟩

/-- The generator at work was there before, or is the next one. -/
def Succeeds (before after : State) : Prop :=
  before.spawned ≤ after.spawned ∧
    ∀ worker, after.worker = some worker →
      (∃ old, before.worker = some old ∧ old.thread = worker.thread) ∨
        worker.thread = before.spawned + 1

theorem succeeds_of_same {before after : State}
    (hspawned : after.spawned = before.spawned)
    (hworker : after.worker = before.worker) : Succeeds before after := by
  refine ⟨hspawned.ge, ?_⟩
  intro worker hsome
  rw [hworker] at hsome
  exact Or.inl ⟨worker, hsome, rfl⟩

/-- The generator goes on, and stays the same thread. -/
theorem succeeds_of_thread {before after : State} {old worker : Worker}
    (hspawned : after.spawned = before.spawned)
    (hold : before.worker = some old) (hworker : after.worker = some worker)
    (hthread : old.thread = worker.thread) : Succeeds before after := by
  refine ⟨hspawned.ge, ?_⟩
  intro other hsome
  rw [hworker] at hsome
  cases hsome
  exact Or.inl ⟨old, hold, hthread⟩

theorem start_succeeds (state : State) (fill : Fill) (mode : VideoMode) :
    Succeeds state (state.start fill mode) := by
  rw [State.start]
  split
  · exact succeeds_of_same rfl rfl
  split
  · exact succeeds_of_same rfl rfl
  refine ⟨Nat.le_succ _, ?_⟩
  rintro worker ⟨⟩
  exact Or.inr rfl

theorem halt_succeeds (state : State) (next : Option (Fill × VideoMode)) :
    Succeeds state (state.halt next) := by
  rw [State.halt]
  split
  · exact succeeds_of_same rfl rfl
  · rename_i worker hworker
    exact succeeds_of_thread rfl hworker rfl rfl

theorem generate_succeeds {state : State} {worker : Worker}
    (hworker : state.worker = some worker) (nowUs : ℕ) :
    Succeeds state (state.generate worker nowUs) := by
  rw [State.generate]
  split
  · split
    · exact succeeds_of_thread rfl hworker rfl rfl
    · split
      · exact succeeds_of_thread rfl hworker rfl rfl
      · exact succeeds_of_thread rfl hworker rfl rfl
  · split
    · exact succeeds_of_thread rfl hworker rfl rfl
    · exact succeeds_of_same rfl rfl
  · exact succeeds_of_same rfl rfl

theorem join_succeeds (state : State) (next : Option (Fill × VideoMode)) :
    Succeeds state (state.join next) := by
  cases next with
  | none =>
      refine ⟨le_refl _, ?_⟩
      rintro worker ⟨⟩
  | some next =>
      have hstart := start_succeeds
        { state with worker := none, control := .idle } next.1 next.2
      refine ⟨hstart.1, ?_⟩
      intro worker hsome
      rcases hstart.2 worker hsome with ⟨old, hold, -⟩ | hnew
      · cases hold
      · exact Or.inr hnew

theorem step_succeeds (state : State) (event : Event) :
    Succeeds state (step state event) := by
  cases event with
  | start fill mode =>
      rw [step]
      split
      · exact start_succeeds state fill mode
      · exact succeeds_of_same rfl rfl
  | reconfigure fill mode =>
      rw [step]
      split
      · exact halt_succeeds state _
      · exact succeeds_of_same rfl rfl
  | stop =>
      rw [step]
      split
      · exact halt_succeeds state _
      · exact succeeds_of_same rfl rfl
  | join =>
      rw [step]
      split
      · split
        · exact join_succeeds state _
        · exact succeeds_of_same rfl rfl
      · exact succeeds_of_same rfl rfl
  | generate nowUs =>
      rw [step]
      split
      · exact succeeds_of_same rfl rfl
      · rename_i worker hworker
        exact generate_succeeds hworker nowUs
  | produce p => exact succeeds_of_same rfl rfl
  | recvLatest => exact succeeds_of_same rfl rfl
  | receive => exact succeeds_of_same rfl rfl
  | spurious => exact succeeds_of_same rfl rfl
  | timeout => exact succeeds_of_same rfl rfl

/-- What a step stores, it stores for the generator at work. -/
def Stores (state after : State) : Prop :=
  after.channel.stored = state.channel.stored ∨
    ∃ worker made, state.worker = some worker ∧
      made.generator = worker.thread ∧
      after.channel.stored = state.channel.stored ++ [made]

theorem stores_of_same {state after : State}
    (h : after.channel = state.channel) : Stores state after :=
  Or.inl (congrArg FrameChannel.State.stored h)

/-- A step of the channel that is no producer's own stores nothing. -/
theorem stores_of_channel {state after : State}
    (event : FrameChannel.Event Made) (hevent : ∀ p, event ≠ .produce p)
    (h : after.channel = FrameChannel.step state.channel event) :
    Stores state after :=
  Or.inl ((congrArg FrameChannel.State.stored h).trans
    (FrameChannel.stored_step hevent state.channel))

theorem join_stores (state : State) (next : Option (Fill × VideoMode)) :
    Stores state (state.join next) := by
  cases next with
  | none => exact stores_of_channel (.close 0) nofun rfl
  | some next => exact stores_of_same (start_channel _ next.1 next.2)

theorem generate_stores (state : State) (worker : Worker) (nowUs : ℕ) :
    Stores state (state.generate worker nowUs) := by
  rw [State.generate]
  split
  · split
    · exact stores_of_same rfl
    · split
      · exact stores_of_same rfl
      · exact stores_of_channel (.submit worker.thread _) nofun rfl
  · split <;> exact stores_of_same rfl
  · exact stores_of_same rfl

/-- What a producer stores was made by the generator at work. -/
theorem produce_stores {state : State} (hinv : Inv state) (p : ℕ) :
    Stores state (step state (.produce p)) := by
  cases FrameChannel.produced state.channel p with
  | moves _ _ _ _ _ hstored => exact Or.inl hstored
  | stores made hlocked _ _ hstored =>
      have hcarried : (state.channel.producers p).carried = some made := by
        rw [hlocked]
        rfl
      obtain ⟨worker, hworker, rfl⟩ := hinv.thread_of_carried hcarried
      have hmade := (hinv.working worker hworker).pending made hcarried
      exact Or.inr ⟨worker, made, hworker, hmade.1, hstored⟩

theorem step_stores {state : State} (hinv : Inv state) (event : Event) :
    Stores state (step state event) := by
  cases event with
  | start fill mode =>
      rw [step]
      split
      · exact stores_of_same (start_channel state fill mode)
      · exact stores_of_same rfl
  | reconfigure fill mode =>
      rw [step]
      split
      · exact stores_of_same (halt_channel state _)
      · exact stores_of_same rfl
  | stop =>
      rw [step]
      split
      · exact stores_of_same (halt_channel state _)
      · exact stores_of_same rfl
  | join =>
      rw [step]
      split
      · split
        · exact join_stores state _
        · exact stores_of_same rfl
      · exact stores_of_same rfl
  | generate nowUs =>
      rw [step]
      split
      · exact stores_of_same rfl
      · exact generate_stores state _ nowUs
  | produce p => exact produce_stores hinv p
  | recvLatest => exact stores_of_channel .recvLatest nofun rfl
  | receive => exact stores_of_channel .receive nofun rfl
  | spurious => exact stores_of_channel .spurious nofun rfl
  | timeout => exact stores_of_channel .timeout nofun rfl

theorem step_from {floor : ℕ} {stored : List Made} (state : State)
    (event : Event) (hfrom : From floor stored state) :
    From floor stored (step state event) where
  inv := step_inv state event hfrom.inv
  worker worker hworker := by
    rcases (step_succeeds state event).2 worker hworker with
      ⟨old, hold, hthread⟩ | hnext
    · exact hthread ▸ hfrom.worker old hold
    · exact hnext ▸ hfrom.next
  next := hfrom.next.trans
    (Nat.succ_le_succ (step_succeeds state event).1)
  stored := by
    obtain ⟨new, hnew, hfloor⟩ := hfrom.stored
    rcases step_stores hfrom.inv event with heq | ⟨worker, made, hworker,
      hgenerator, heq⟩
    · exact ⟨new, heq.trans hnew, hfloor⟩
    · refine ⟨new ++ [made], ?_, ?_⟩
      · rw [heq, hnew, List.append_assoc]
      · intro other hmem
        rcases List.mem_append.mp hmem with hold | hlast
        · exact hfloor other hold
        · rw [List.mem_singleton] at hlast
          rw [hlast, hgenerator]
          exact hfrom.worker worker hworker

/-- Whatever the source has been through, no more than one frame of an earlier
generator is still to come: once `reconfigure` has returned, every frame but
the first belongs to the generator that it started or to a later one, and
once `stop` has returned, to one that is yet to be started. -/
theorem foldl_step_since (events later : List Event) :
    ∃ late, (later.foldl step (events.foldl step new)).channel.returned =
        (events.foldl step new).channel.returned ++ late ∧
      ∀ made ∈ late.reduceOption.tail,
        (events.foldl step new).floor ≤ made.generator := by
  have hfrom := EventRun.foldl_preserves step_from later
    (from_floor (run_inv events))
  obtain ⟨channelEvents, hchannel⟩ :=
    channel_run (events.foldl step new) later
  obtain ⟨late, new', hreturned, hstored, hsub⟩ :=
    FrameChannel.run_since (events.foldl step new).channel channelEvents
  rw [← hchannel] at hreturned hstored
  obtain ⟨made, hmade, hfloor⟩ := hfrom.stored
  rw [hmade] at hstored
  rw [← List.append_cancel_left hstored] at hsub
  refine ⟨late, hreturned, ?_⟩
  intro frame hmem
  apply hfloor
  cases hslot : (events.foldl step new).channel.slot with
  | none =>
      rw [hslot] at hsub
      exact hsub.subset (List.mem_of_mem_tail hmem)
  | some first =>
      rw [hslot] at hsub
      have htail := hsub.tail
      exact htail.subset hmem

end GameStreamer.Capture.TestPattern
