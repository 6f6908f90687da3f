import GameStreamer.Input.Keymap
import GameStreamer.Protocol.Input

/-!
# Input on a macOS host

A posted macOS event says more than the event that came over the network: which
modifiers are down, whether a moving mouse drags, and how many clicks in a row
a button press is.  The injector keeps a few fields from which it fills these
in.  Here they are compared with the whole history: what is posted depends on
what came before exactly as it should.
-/

namespace GameStreamer

inductive Modifier where
  | control | shift | alternate | command
  deriving DecidableEq, Repr

namespace Modifier

/-- The bit of a modifier in `CGEventFlags`. -/
def mask : Modifier → BitVec 64
  | .control => 0x40000
  | .shift => 0x20000
  | .alternate => 0x80000
  | .command => 0x100000

end Modifier

/-- The modifier of a HID usage; the left and the right key have one. -/
def modifierFlag (usage : ℕ) : Option Modifier :=
  if usage = 0xe0 ∨ usage = 0xe4 then some .control
  else if usage = 0xe1 ∨ usage = 0xe5 then some .shift
  else if usage = 0xe2 ∨ usage = 0xe6 then some .alternate
  else if usage = 0xe3 ∨ usage = 0xe7 then some .command
  else none

inductive CgMouseButton where
  | left | right | center
  deriving DecidableEq, Repr

inductive CgEventType where
  | mouseMoved
  | leftMouseDragged | rightMouseDragged | otherMouseDragged
  | leftMouseDown | leftMouseUp | rightMouseDown | rightMouseUp
  | otherMouseDown | otherMouseUp
  deriving DecidableEq, Repr

/-- A posted event, with positions of type `P`. -/
inductive CgEvent (P : Type*) where
  | keyboard (code : ℕ) (down : Bool) (flags : BitVec 64)
  | move (type : CgEventType) (button : CgMouseButton) (pos : P)
      (deltas : Option (ℤ × ℤ)) (flags : BitVec 64)
  | button (type : CgEventType) (button : CgMouseButton) (pos : P)
      (clickState : ℤ) (flags : BitVec 64)
  | scroll (pos : P) (axis1 axis2 : ℤ) (flags : BitVec 64)

/-- The arithmetic on positions. -/
structure CgOps (F P : Type*) where
  /-- Where the cursor is after a move, kept on the screen. -/
  place : P → MouseMove F → P
  /-- Closer than `MULTI_CLICK_SLOP` in both directions. -/
  near : P → P → Bool
  /-- `as i64`. -/
  toInt64 : F → ℤ

/-- The time of an event, in nanoseconds, and whether the system creates the
event to post. -/
structure CgAnswers where
  now : ℕ
  created : Bool

/-- The state of the macOS injector: what is held down, where the cursor is,
and the last click, from which the next one's count follows. -/
structure CgInjector (P : Type*) where
  pos : P
  flags : BitVec 64
  leftDown : Bool
  rightDown : Bool
  middleDown : Bool
  lastClick : Option (CgMouseButton × ℕ × P × ℤ)
  clickState : ℤ

namespace CgInjector

variable {F P : Type*}

def multiClickInterval : ℕ := 500000000

def new (origin : P) : CgInjector P :=
  ⟨origin, 0, false, false, false, none, 1⟩

/-- Dragging while a button is held, moving otherwise. -/
def moveKind (leftDown rightDown middleDown : Bool) :
    CgEventType × CgMouseButton :=
  if leftDown then (.leftMouseDragged, .left)
  else if rightDown then (.rightMouseDragged, .right)
  else if middleDown then (.otherMouseDragged, .center)
  else (.mouseMoved, .left)

/-- Only a relative move carries the raw deltas. -/
def deltas (ops : CgOps F P) : MouseMove F → Option (ℤ × ℤ)
  | .absolute _ _ => none
  | .relative dx dy => some (ops.toInt64 dx, ops.toInt64 dy)

/-- Back and forward have no standard button. -/
def cgButton : MouseButton → Option CgMouseButton
  | .left => some .left
  | .right => some .right
  | .middle => some .center
  | .back | .forward => none

def buttonType : CgMouseButton → Bool → CgEventType
  | .left, true => .leftMouseDown
  | .left, false => .leftMouseUp
  | .right, true => .rightMouseDown
  | .right, false => .rightMouseUp
  | .center, true => .otherMouseDown
  | .center, false => .otherMouseUp

def key (injector : CgInjector P) (usage : ℕ) (down : Bool) : CgInjector P :=
  match modifierFlag usage with
  | some modifier =>
      { injector with
        flags :=
          if down then injector.flags ||| modifier.mask
          else injector.flags &&& ~~~modifier.mask }
  | none => injector

/-- Remember which button is held. -/
def hold (injector : CgInjector P) (button : CgMouseButton) (down : Bool) :
    CgInjector P :=
  match button with
  | .left => { injector with leftDown := down }
  | .right => { injector with rightDown := down }
  | .center => { injector with middleDown := down }

/-- The click count of a fresh press, which is also recorded. -/
def clickStateFor (ops : CgOps F P) (now : ℕ) (injector : CgInjector P)
    (button : CgMouseButton) : CgInjector P :=
  let state : ℤ := match injector.lastClick with
    | some (last, at', pos, state) =>
        if last = button ∧ now - at' < multiClickInterval ∧
            ops.near injector.pos pos then state + 1 else 1
    | none => 1
  { injector with
    lastClick := some (button, now, injector.pos, state)
    clickState := state }

/-- `CgInjector::inject`, with the event that it posts. -/
def inject (ops : CgOps F P) (injector : CgInjector P)
    (entry : CgAnswers × InputEvent F) : CgInjector P × Option (CgEvent P) :=
  let post := fun (event : CgEvent P) =>
    if entry.1.created then some event else none
  match entry.2 with
  | .key usage down =>
      let injector := injector.key usage down
      (injector, (hidToMacos usage).bind fun code =>
        post (.keyboard code down injector.flags))
  | .mouseMove move =>
      let injector := { injector with pos := ops.place injector.pos move }
      let kind := moveKind injector.leftDown injector.rightDown
        injector.middleDown
      (injector, post (.move kind.1 kind.2 injector.pos (deltas ops move)
        injector.flags))
  | .mouseButton button down =>
      match cgButton button with
      | none => (injector, none)
      | some button =>
          let injector := injector.hold button down
          let injector :=
            if down then injector.clickStateFor ops entry.1.now button
            else injector
          (injector, post (.button (buttonType button down) button injector.pos
            injector.clickState injector.flags))
  | .mouseWheel dx dy =>
      (injector, post (.scroll injector.pos (ops.toInt64 dy) (ops.toInt64 dx)
        injector.flags))
  | .gamepad _ | .gamepadMotion _ | .touch | .pen | .gamepadDisconnect _ =>
      (injector, none)

def run (ops : CgOps F P) (origin : P)
    (history : List (CgAnswers × InputEvent F)) : CgInjector P :=
  history.foldl (fun injector entry => (injector.inject ops entry).1)
    (new origin)

end CgInjector

/-! ### What the history says -/

namespace CgHistory

variable {F P : Type*}

/-- What a key event says about a modifier. -/
def modifierWrite : CgAnswers × InputEvent F → Option (Modifier × Bool)
  | (_, .key usage down) =>
      (modifierFlag usage).map fun modifier => (modifier, down)
  | _ => none

/-- What an event says about a mouse button. -/
def buttonWrite : CgAnswers × InputEvent F → Option (CgMouseButton × Bool)
  | (_, .mouseButton button down) =>
      (CgInjector.cgButton button).map fun button => (button, down)
  | _ => none

/-- A modifier is down when the last event of one of its keys pressed it. -/
def modifierDown (history : List (CgAnswers × InputEvent F))
    (modifier : Modifier) : Bool :=
  Registers.tableOf modifierWrite false history modifier

def buttonDown (history : List (CgAnswers × InputEvent F))
    (button : CgMouseButton) : Bool :=
  Registers.tableOf buttonWrite false history button

/-- The bits of the modifiers that are down. -/
def flags (down : Modifier → Bool) : BitVec 64 :=
  (if down .control then Modifier.mask .control else 0) |||
    (if down .shift then Modifier.mask .shift else 0) |||
    (if down .alternate then Modifier.mask .alternate else 0) |||
    (if down .command then Modifier.mask .command else 0)

/-- A press of a mouse button, where and when. -/
structure Press (P : Type*) where
  button : CgMouseButton
  now : ℕ
  pos : P

/-- A press that goes on with the clicking of the one before. -/
def Continues (ops : CgOps F P) (previous press : Press P) : Prop :=
  previous.button = press.button ∧
    press.now - previous.now < CgInjector.multiClickInterval ∧
      ops.near press.pos previous.pos = true

instance (ops : CgOps F P) (previous press : Press P) :
    Decidable (Continues ops previous press) :=
  inferInstanceAs (Decidable (_ ∧ _ ∧ _))

/-- The cursor and the presses so far, the latest first. -/
def track (ops : CgOps F P) (state : P × List (Press P))
    (entry : CgAnswers × InputEvent F) : P × List (Press P) :=
  match entry.2 with
  | .mouseMove move => (ops.place state.1 move, state.2)
  | .mouseButton button down =>
      match CgInjector.cgButton button with
      | some button =>
          if down then (state.1, ⟨button, entry.1.now, state.1⟩ :: state.2)
          else state
      | none => state
  | _ => state

def tracked (ops : CgOps F P) (origin : P)
    (history : List (CgAnswers × InputEvent F)) : P × List (Press P) :=
  history.foldl (track ops) (origin, [])

/-- How many presses in a row, up to the latest, go on with one another. -/
def clicks (ops : CgOps F P) : List (Press P) → ℕ
  | [] => 0
  | [_] => 1
  | press :: previous :: presses =>
      if Continues ops previous press then
        clicks ops (previous :: presses) + 1
      else 1

theorem one_le_clicks (ops : CgOps F P) (press : Press P)
    (presses : List (Press P)) : 1 ≤ clicks ops (press :: presses) := by
  cases presses with
  | nil => exact Nat.le_refl 1
  | cons previous presses =>
      rw [clicks]
      split
      · exact Nat.le_add_left 1 _
      · exact Nat.le_refl 1

/-- What is posted for an event after a history. -/
def posted (ops : CgOps F P) (origin : P)
    (history : List (CgAnswers × InputEvent F))
    (entry : CgAnswers × InputEvent F) : Option (CgEvent P) :=
  let after := history ++ [entry]
  let flags := flags (modifierDown after)
  let now := tracked ops origin after
  let event := match entry.2 with
    | .key usage down =>
        (hidToMacos usage).map fun code => CgEvent.keyboard code down flags
    | .mouseMove move =>
        let kind := CgInjector.moveKind (buttonDown after .left)
          (buttonDown after .right) (buttonDown after .center)
        some (.move kind.1 kind.2 now.1 (CgInjector.deltas ops move) flags)
    | .mouseButton button down =>
        (CgInjector.cgButton button).map fun button =>
          .button (CgInjector.buttonType button down) button now.1
            (max 1 (clicks ops now.2)) flags
    | .mouseWheel dx dy =>
        some (.scroll now.1 (ops.toInt64 dy) (ops.toInt64 dx) flags)
    | _ => none
  if entry.1.created then event else none

theorem modifierDown_concat (history : List (CgAnswers × InputEvent F))
    (entry : CgAnswers × InputEvent F) :
    modifierDown (history ++ [entry]) =
      Registers.write (modifierDown history) (modifierWrite entry) :=
  Registers.tableOf_concat modifierWrite false history entry

theorem buttonDown_concat (history : List (CgAnswers × InputEvent F))
    (entry : CgAnswers × InputEvent F) :
    buttonDown (history ++ [entry]) =
      Registers.write (buttonDown history) (buttonWrite entry) :=
  Registers.tableOf_concat buttonWrite false history entry

theorem tracked_concat (ops : CgOps F P) (origin : P)
    (history : List (CgAnswers × InputEvent F))
    (entry : CgAnswers × InputEvent F) :
    tracked ops origin (history ++ [entry]) =
      track ops (tracked ops origin history) entry :=
  List.foldl_concat _ _ _ _

/-- Setting or clearing the bit of a modifier says that it went down or up. -/
theorem flags_update (down : Modifier → Bool) (modifier : Modifier)
    (pressed : Bool) :
    flags (Function.update down modifier pressed) =
      if pressed then flags down ||| modifier.mask
      else flags down &&& ~~~modifier.mask := by
  unfold flags
  cases modifier <;> cases pressed <;>
    simp only [Function.update_apply, reduceCtorEq, if_true, if_false] <;>
    cases down .control <;> cases down .shift <;>
      cases down .alternate <;> cases down .command <;> rfl

end CgHistory

namespace CgInjector

variable {F P : Type*}

/-- The fields stand for the modifiers that are down, the buttons that are
held, the cursor and the presses so far. -/
structure Tracks (ops : CgOps F P) (down : Modifier → Bool)
    (held : CgMouseButton → Bool)
    (tracked : P × List (CgHistory.Press P)) (injector : CgInjector P) :
    Prop where
  flags : injector.flags = CgHistory.flags down
  leftDown : injector.leftDown = held .left
  rightDown : injector.rightDown = held .right
  middleDown : injector.middleDown = held .center
  pos : injector.pos = tracked.1
  lastClick : injector.lastClick = tracked.2.head?.map fun press =>
    (press.button, press.now, press.pos,
      (CgHistory.clicks ops tracked.2 : ℤ))
  clickState : injector.clickState =
    max 1 (CgHistory.clicks ops tracked.2 : ℤ)

theorem tracks_new (ops : CgOps F P) (origin : P) :
    Tracks ops (fun _ => false) (fun _ => false) (origin, [])
      (new origin) :=
  ⟨rfl, rfl, rfl, rfl, rfl, rfl, rfl⟩

variable {ops : CgOps F P} {down : Modifier → Bool}
  {held : CgMouseButton → Bool} {tracked : P × List (CgHistory.Press P)}
  {injector : CgInjector P}

/-- A key event moves the flags and nothing else. -/
theorem Tracks.key (htracks : Tracks ops down held tracked injector)
    (usage : ℕ) (pressed : Bool) :
    Tracks ops
      (Registers.write down
        ((modifierFlag usage).map fun modifier => (modifier, pressed)))
      held tracked (injector.key usage pressed) := by
  unfold CgInjector.key
  cases modifierFlag usage with
  | none => exact htracks
  | some modifier =>
      refine ⟨?_, htracks.leftDown, htracks.rightDown, htracks.middleDown,
        htracks.pos, htracks.lastClick, htracks.clickState⟩
      simp only [Option.map_some, Registers.write]
      rw [CgHistory.flags_update, htracks.flags]

theorem Tracks.move (htracks : Tracks ops down held tracked injector)
    (move : MouseMove F) :
    Tracks ops down held (ops.place tracked.1 move, tracked.2)
      { injector with pos := ops.place injector.pos move } :=
  ⟨htracks.flags, htracks.leftDown, htracks.rightDown, htracks.middleDown,
    congrArg (fun pos => ops.place pos move) htracks.pos, htracks.lastClick,
    htracks.clickState⟩

theorem Tracks.hold (htracks : Tracks ops down held tracked injector)
    (button : CgMouseButton) (pressed : Bool) :
    Tracks ops down (Function.update held button pressed) tracked
      (injector.hold button pressed) := by
  cases button with
  | left =>
      exact ⟨htracks.flags, rfl, htracks.rightDown, htracks.middleDown,
        htracks.pos, htracks.lastClick, htracks.clickState⟩
  | right =>
      exact ⟨htracks.flags, htracks.leftDown, rfl, htracks.middleDown,
        htracks.pos, htracks.lastClick, htracks.clickState⟩
  | center =>
      exact ⟨htracks.flags, htracks.leftDown, htracks.rightDown, rfl,
        htracks.pos, htracks.lastClick, htracks.clickState⟩

/-- A press counts the clicks that it goes on with. -/
theorem Tracks.press (htracks : Tracks ops down held tracked injector)
    (button : CgMouseButton) (now : ℕ) :
    Tracks ops down held
      (tracked.1, ⟨button, now, tracked.1⟩ :: tracked.2)
      (injector.clickStateFor ops now button) := by
  obtain ⟨pos, presses⟩ := tracked
  have hlast := htracks.lastClick
  have hpos := htracks.pos
  have hstate : (injector.clickStateFor ops now button).clickState =
      (CgHistory.clicks ops (⟨button, now, pos⟩ :: presses) : ℤ) := by
    unfold clickStateFor
    cases presses with
    | nil =>
        rw [hlast]
        rfl
    | cons press presses =>
        rw [hlast, hpos, CgHistory.clicks]
        by_cases hcontinues :
            CgHistory.Continues ops press ⟨button, now, pos⟩
        · rw [if_pos hcontinues, Nat.cast_succ]
          exact if_pos hcontinues
        · rw [if_neg hcontinues]
          exact if_neg hcontinues
  refine ⟨htracks.flags, htracks.leftDown, htracks.rightDown,
    htracks.middleDown, hpos, ?_, ?_⟩
  · exact congrArg some (Prod.ext rfl (Prod.ext rfl (Prod.ext hpos hstate)))
  · have hpositive : (1 : ℤ) ≤
        (CgHistory.clicks ops (⟨button, now, pos⟩ :: presses) : ℤ) := by
      exact_mod_cast CgHistory.one_le_clicks ops _ presses
    rw [max_eq_right hpositive]
    exact hstate

/-- What an event does to the fields, and what it posts. -/
theorem Tracks.inject (htracks : Tracks ops down held tracked injector)
    (entry : CgAnswers × InputEvent F) :
    Tracks ops (Registers.write down (CgHistory.modifierWrite entry))
      (Registers.write held (CgHistory.buttonWrite entry))
      (CgHistory.track ops tracked entry) (injector.inject ops entry).1 := by
  obtain ⟨answers, event⟩ := entry
  cases event with
  | key usage pressed => exact htracks.key usage pressed
  | mouseMove move => exact htracks.move move
  | mouseButton button pressed =>
      unfold CgInjector.inject CgHistory.buttonWrite CgHistory.track
      cases hbutton : cgButton button with
      | none =>
          simp only [hbutton]
          exact htracks
      | some target =>
          simp only [hbutton]
          cases pressed with
          | true => exact (htracks.hold target true).press target answers.now
          | false => exact htracks.hold target false
  | mouseWheel dx dy => exact htracks
  | gamepad input => exact htracks
  | gamepadMotion seat => exact htracks
  | touch => exact htracks
  | pen => exact htracks
  | gamepadDisconnect seat => exact htracks

theorem run_concat (ops : CgOps F P) (origin : P)
    (history : List (CgAnswers × InputEvent F))
    (entry : CgAnswers × InputEvent F) :
    run ops origin (history ++ [entry]) =
      ((run ops origin history).inject ops entry).1 :=
  List.foldl_concat _ _ _ _

theorem tracks_run (ops : CgOps F P) (origin : P)
    (history : List (CgAnswers × InputEvent F)) :
    Tracks ops (CgHistory.modifierDown history)
      (CgHistory.buttonDown history) (CgHistory.tracked ops origin history)
      (run ops origin history) := by
  induction history using List.reverseRecOn with
  | nil => exact tracks_new ops origin
  | append_singleton history entry ih =>
      rw [CgHistory.modifierDown_concat, CgHistory.buttonDown_concat,
        CgHistory.tracked_concat, run_concat]
      exact ih.inject entry

/-- Every posted event says what the whole history says: the modifiers whose
keys were last pressed, a drag exactly while a button is held, and a click
count that is the number of presses in a row. -/
theorem inject_run_posted (ops : CgOps F P) (origin : P)
    (history : List (CgAnswers × InputEvent F))
    (entry : CgAnswers × InputEvent F) :
    ((run ops origin history).inject ops entry).2 =
      CgHistory.posted ops origin history entry := by
  have hafter := tracks_run ops origin (history ++ [entry])
  rw [run_concat] at hafter
  generalize run ops origin history = injector at hafter
  obtain ⟨⟨now, created⟩, event⟩ := entry
  cases event with
  | key usage down =>
      have hflags := hafter.flags
      unfold CgInjector.inject at hflags ⊢
      unfold CgHistory.posted
      simp only at hflags ⊢
      rw [hflags]
      cases hidToMacos usage <;> cases created <;> rfl
  | mouseMove move =>
      have hpos := hafter.pos
      have hflags := hafter.flags
      have hleft := hafter.leftDown
      have hright := hafter.rightDown
      have hmiddle := hafter.middleDown
      unfold CgInjector.inject at hpos hflags hleft hright hmiddle ⊢
      unfold CgHistory.posted
      simp only at hpos hflags hleft hright hmiddle ⊢
      rw [hpos, hflags, hleft, hright, hmiddle]
  | mouseButton button down =>
      unfold CgInjector.inject at hafter ⊢
      unfold CgHistory.posted
      cases hbutton : cgButton button with
      | none =>
          simp only [hbutton, Option.map_none]
          exact (ite_self none).symm
      | some target =>
          simp only [hbutton] at hafter
          simp only [hbutton, Option.map_some]
          rw [hafter.pos, hafter.flags, hafter.clickState]
  | mouseWheel dx dy =>
      have hpos := hafter.pos
      have hflags := hafter.flags
      unfold CgInjector.inject at hpos hflags ⊢
      unfold CgHistory.posted
      simp only at hpos hflags ⊢
      rw [hpos, hflags]
  | gamepad input => exact (ite_self none).symm
  | gamepadMotion seat => exact (ite_self none).symm
  | touch => exact (ite_self none).symm
  | pen => exact (ite_self none).symm
  | gamepadDisconnect seat => exact (ite_self none).symm

end CgInjector

end GameStreamer
