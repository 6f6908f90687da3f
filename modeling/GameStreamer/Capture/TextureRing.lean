import GameStreamer.Capture.Handover
import GameStreamer.Encode.Api

/-!
# The texture ring of the desktop capture

A capture callback copies the captured picture into a texture of its own ring
and hands that texture down by handle: into the frame channel, and from there
to the encode thread.  A texture is written again once the count of its
handles is down to the ring's own.  The system may call back on any thread, and
a lock lets one callback in at a time; everything else runs beside it.
-/

namespace GameStreamer.Capture

namespace TextureRing

open Encode

/-! ## The capture -/

/-- `RING_TEXTURES`. -/
def ringTextures : ℕ := 3

structure Size where
  width : Int32
  height : Int32
  deriving DecidableEq, Repr

/-- What the capture uses of the graphics device: the memory of its textures,
the picture that a texture shows in it, and the copy of a captured picture into
a texture. -/
structure Device (Memory α : Type) where
  contents : Memory → ℕ → Option α
  copyResource : Memory → ℕ → α → Memory

namespace Device

variable {Memory α : Type}

/-- What the device promises of a copy: its target shows the picture, and all
other textures show what they did. -/
structure Documented (device : Device Memory α) : Prop where
  copied : ∀ memory texture picture,
    device.contents (device.copyResource memory texture picture) texture =
      some picture
  kept : ∀ memory texture picture other, other ≠ texture →
    device.contents (device.copyResource memory texture picture) other =
      device.contents memory other

theorem Documented.contents_copyResource {device : Device Memory α}
    (hdevice : device.Documented) (memory : Memory) (texture : ℕ)
    (picture : α) :
    device.contents (device.copyResource memory texture picture) =
      Function.update (device.contents memory) texture (some picture) := by
  funext other
  by_cases hother : other = texture
  · rw [hother, Function.update_self, hdevice.copied]
  · rw [Function.update_of_ne hother, hdevice.kept _ _ _ _ hother]

/-- A device whose memory is what its textures show. -/
def table : Device (ℕ → Option α) α where
  contents := id
  copyResource memory texture picture :=
    Function.update memory texture (some picture)

theorem documented_table : (table : Device (ℕ → Option α) α).Documented where
  copied _ _ _ := Function.update_self ..
  kept _ _ _ _ hother := Function.update_of_ne hother ..

end Device

/-- A frame with a handle on a texture, and the picture it was captured
from. -/
structure Captured (α : Type) where
  texture : ℕ
  picture : α
  frame : GpuFrame

/-- Where the callback stands that holds the lock. -/
inductive Callback (α : Type) where
  | locked (captureTsUs : ℕ)
  /-- `free_slot` has these textures still to look at. -/
  | scanning (captureTsUs : ℕ) (picture : α) (rest : List ℕ)
  /-- It has a handle on a free texture; the copy is next. -/
  | found (captureTsUs : ℕ) (picture : α) (texture : ℕ)
  | copied (captureTsUs : ℕ) (picture : α) (texture : ℕ)
  /-- In `submit`, with a second handle in the frame. -/
  | submitting (texture : ℕ)

/-- The capture state with the threads that use its frames.  The callbacks
share it under one lock, the encode thread holds the frame that it was last
given, and `strong` counts the handles on each texture. -/
structure State (Memory α : Type) where
  channel : FrameChannel.State (Captured α)
  /-- The callbacks that wait for the lock, by their time stamps. -/
  waiting : ℕ → Option ℕ
  /-- The callback that holds the lock. -/
  inside : Option (ℕ × Callback α)
  size : Size
  ring : List ℕ
  /-- How many textures were created so far. -/
  created : ℕ
  /-- The strong count of each texture. -/
  strong : ℕ → ℕ
  memory : Memory
  ringSaturated : ℕ
  /-- The frame that the encode thread holds. -/
  encoding : Option (Captured α)
  /-- The pictures that callbacks looked for a texture for, oldest first. -/
  delivered : List α
  /-- What the encoder read in the texture of a frame. -/
  reads : List (Captured α × Option α)

/-- What a callback gets from the system. -/
inductive Pulled (α : Type) where
  | failed
  | frame (content : Size) (picture : α)

inductive Event (α : Type) where
  /-- The system calls back on thread `p`. -/
  | arrived (p : ℕ) (captureTsUs : ℕ)
  | lock (p : ℕ)
  /-- `deliver`, up to the search for a texture; `created` says whether the
  textures of a new ring could be created. -/
  | deliver (pulled : Pulled α) (created : Bool)
  | look
  | copy
  | submit
  /-- The next step of a thread within the sink's `submit` or `close`. -/
  | produce (i : ℕ)
  | unlock
  | close
  | recvLatest
  | receive
  | spurious
  | timeout
  /-- The encoder reads the texture of its frame. -/
  | read
  /-- The encode thread drops its frame. -/
  | release

variable {Memory α : Type}

/-- The capture has started.  Callback thread `p` is producer `p + 1` of the
channel, and the control thread is producer 0. -/
def start (size : Size) (memory : Memory) : State Memory α where
  channel := FrameChannel.start
  waiting := fun _ => none
  inside := none
  size := size
  ring := []
  created := 0
  strong := fun _ => 0
  memory := memory
  ringSaturated := 0
  encoding := none
  delivered := []
  reads := []

namespace State

def clone (state : State Memory α) (texture : ℕ) : State Memory α :=
  { state with
    strong := Function.update state.strong texture
      (state.strong texture + 1) }

def drop (state : State Memory α) (texture : ℕ) : State Memory α :=
  { state with
    strong := Function.update state.strong texture
      (state.strong texture - 1) }

/-- `resize`; whether the frame pool can be recreated makes no difference. -/
def resize (state : State Memory α) (content : Size) : State Memory α :=
  { state with
    size := content
    ring := []
    strong := fun texture =>
      state.strong texture - state.ring.count texture }

/-- `build_ring`, or nothing if a texture could not be created. -/
def buildRing (state : State Memory α) (created : Bool) :
    Option (State Memory α) :=
  if state.ring ≠ [] then some state
  else if created then
    let ring := List.range' state.created ringTextures
    some { state with
      ring := ring
      created := state.created + ringTextures
      strong := fun texture =>
        if texture ∈ ring then 1 else state.strong texture }
  else none

/-- `deliver`, up to the search for a texture.  A frame of another size only
resizes the capture; the ring is built on the first frame, which may fail. -/
def deliver (state : State Memory α) (p captureTsUs : ℕ) (pulled : Pulled α)
    (created : Bool) : State Memory α :=
  match pulled with
  | .failed => { state with inside := none }
  | .frame content picture =>
      if content ≠ state.size then
        { state.resize content with inside := none }
      else
        match state.buildRing created with
        | none => { state with inside := none }
        | some state =>
            { state with
              inside := some (p, .scanning captureTsUs picture state.ring)
              delivered := state.delivered ++ [picture] }

/-- The next texture of `free_slot`. -/
def look (state : State Memory α) (p captureTsUs : ℕ) (picture : α) :
    List ℕ → State Memory α
  | [] =>
      { state with
        inside := none
        ringSaturated := state.ringSaturated + 1 }
  | texture :: rest =>
      if state.strong texture = 1 then
        { state.clone texture with
          inside := some (p, .found captureTsUs picture texture) }
      else
        { state with
          inside := some (p, .scanning captureTsUs picture rest) }

/-- `gpu_frame`, on a second handle. -/
def captured (state : State Memory α) (captureTsUs : ℕ) (picture : α)
    (texture : ℕ) : Captured α where
  texture := texture
  picture := picture
  frame :=
    { handle := .d3d11
      format := .bgra8
      width := state.size.width.toUInt32
      height := state.size.height.toUInt32
      captureTsUs := captureTsUs
      serial := state.channel.stored.length }

/-- A step of a producer; a frame that it replaces in the slot is dropped. -/
def produce (state : State Memory α) (i : ℕ) : State Memory α :=
  let channel := FrameChannel.step state.channel (.produce i)
  match state.channel.producers i, state.channel.slot with
  | .locked _, some old => { state.drop old.texture with channel := channel }
  | _, _ => { state with channel := channel }

end State

/-- One step of a callback, of the control thread or of the encode thread.  A
frame that is replaced in the slot or was encoded is dropped, and its handle
with it. -/
def step (device : Device Memory α) (state : State Memory α) :
    Event α → State Memory α
  | .arrived p captureTsUs =>
      if (state.waiting p).isSome || state.inside.any fun held => held.1 == p
      then state
      else
        { state with
          waiting := Function.update state.waiting p (some captureTsUs) }
  | .lock p =>
      match state.inside, state.waiting p with
      | none, some captureTsUs =>
          { state with
            waiting := Function.update state.waiting p none
            inside := some (p, .locked captureTsUs) }
      | _, _ => state
  | .deliver pulled created =>
      match state.inside with
      | some (p, .locked captureTsUs) =>
          state.deliver p captureTsUs pulled created
      | _ => state
  | .look =>
      match state.inside with
      | some (p, .scanning captureTsUs picture rest) =>
          state.look p captureTsUs picture rest
      | _ => state
  | .copy =>
      match state.inside with
      | some (p, .found captureTsUs picture texture) =>
          { state with
            inside := some (p, .copied captureTsUs picture texture)
            memory := device.copyResource state.memory texture picture }
      | _ => state
  | .submit =>
      match state.inside with
      | some (p, .copied captureTsUs picture texture) =>
          { state.clone texture with
            inside := some (p, .submitting texture)
            channel := FrameChannel.step state.channel
              (.submit (p + 1) (state.captured captureTsUs picture texture)) }
      | _ => state
  | .produce i => state.produce i
  | .unlock =>
      match state.inside with
      | some (p, .submitting texture) =>
          match state.channel.producers (p + 1) with
          | .idle => { state.drop texture with inside := none }
          | _ => state
      | _ => state
  | .close =>
      { state with channel := FrameChannel.step state.channel (.close 0) }
  | .recvLatest =>
      match state.encoding with
      | none =>
          { state with channel := FrameChannel.step state.channel .recvLatest }
      | some _ => state
  | .receive =>
      let channel := FrameChannel.step state.channel .receive
      { state with
        channel := channel
        encoding :=
          (FrameChannel.answered state.channel channel).or state.encoding }
  | .spurious =>
      { state with channel := FrameChannel.step state.channel .spurious }
  | .timeout =>
      { state with channel := FrameChannel.step state.channel .timeout }
  | .read =>
      match state.encoding with
      | some frame =>
          { state with
            reads := state.reads ++
              [(frame, device.contents state.memory frame.texture)] }
      | none => state
  | .release =>
      match state.encoding with
      | some frame => { state.drop frame.texture with encoding := none }
      | none => state

end TextureRing

end GameStreamer.Capture
