import GameStreamer.Client.Gate
import GameStreamer.Core.EventRun
import GameStreamer.Core.SerialNumber

/-!
# Runs of the client

The receive task, the control reader and the embedder act on the client
between any two passes through the gate.  A run is a list of such events; the
state carries the client together with a history of what was handed over,
rejected, announced and asked for.

Released frames are numbered by a counter that does not wrap, of which the
gate sees the low 32 bits.  A decode error that is raised while a frame is
inside the gate has the effect of one raised right after it, because the gate
reads the flag first, and a recovery point stored meanwhile the effect of one
stored before it; so events need not interleave more finely.
-/

namespace GameStreamer.ClientRun

open SerialNumber

/-- One thing that happened to the stream; a history lists the newest
first. -/
inductive Entry where
  /-- The gate handed the frame over. -/
  | delivered (id : ℕ) (kind : FrameKind)
  /-- The decoder rejected a delivered frame, and that was reported. -/
  | rejected (id : ℕ)
  /-- The agent announced a recovery point. -/
  | announced (firstSafe : UInt32)
  /-- The client sent a control message. -/
  | asked (message : C2A)
  deriving DecidableEq, Repr

abbrev History := List Entry

/-- A frame that the reassembler released. -/
structure Released where
  id : ℕ
  kind : FrameKind
  captureTsUs : UInt32
  data : Bytes
  arrivalUs : ℕ
  deriving DecidableEq, Repr

def Released.arrived (released : Released) : ArrivedFrame where
  frame :=
    { frameId := wire released.id
      kind := released.kind
      captureTsUs := released.captureTsUs
      data := released.data }
  arrivalUs := released.arrivalUs

inductive Event where
  /-- The control reader stores an announced recovery point. -/
  | recoveryPoint (firstSafe : UInt32)
  /-- The embedder raises the decode-error flag about a delivered frame. -/
  | embedderRejects (id : ℕ)
  /-- `recv_frame` met a decode error on the newest delivered frame. -/
  | decodeFailed (env : Client.RequestEnv)
  /-- A released frame passes the gate. -/
  | frame (released : Released) (backlog : Bool) (env : Client.GateEnv)
  deriving DecidableEq, Repr

/-- An empty frame that meets the gate at one instant. -/
def Event.plainFrame (id : ℕ) (kind : FrameKind) (nowUs : ℕ) : Event :=
  .frame ⟨id, kind, 0, [], nowUs⟩ false ⟨⟨nowUs, true⟩, ⟨nowUs, true⟩, nowUs⟩

/-- The client with the history of its run: what arrived, what was delivered,
and what was asked of the agent. -/
structure State where
  client : Client
  history : History
  /-- The newest frame that entered the gate. -/
  newest : Option ℕ
  deriving DecidableEq, Repr

def start (control : ControlPath) (clockSync : ClockSync) : State :=
  ⟨Client.connected control clockSync, [], none⟩

/-- The newest frame of a history that was handed over. -/
def lastDelivered : History → Option ℕ
  | [] => none
  | .delivered id _ :: _ => some id
  | _ :: older => lastDelivered older

/-- The messages of one step, newest first, on top of the older history. -/
def recordAsked (sent : List C2A) (history : History) : History :=
  (sent.map Entry.asked).reverse ++ history

/-- The entries that one pass through the gate adds. -/
def recordGated (released : Released) (gated : Client.Gated)
    (history : History) : History :=
  match gated.outcome with
  | .delivered _ _ _ =>
      .delivered released.id released.kind :: recordAsked gated.sent history
  | _ => recordAsked gated.sent history

/-- One frame through the gate, one control event, or one act of the embedder.
The history records what the client sends and hands over. -/
def step (state : State) : Event → State
  | .recoveryPoint firstSafe =>
      { state with
        client := state.client.storeRecoveryPoint firstSafe
        history := .announced firstSafe :: state.history }
  | .embedderRejects id =>
      { state with
        client := { state.client with decodeError := true }
        history := .rejected id :: state.history }
  | .decodeFailed env =>
      match lastDelivered state.history with
      | none => state
      | some id =>
          let asked := state.client.decodeFailed env
          { state with
            client := asked.client
            history := recordAsked asked.sent.toList
              (.rejected id :: state.history) }
  | .frame released backlog env =>
      let gated := state.client.gate released.arrived backlog env
      { client := gated.client
        history := recordGated released gated state.history
        newest := some released.id }

/-- Frames are released in increasing wrap order: each is ahead of the one
before it by less than half the id space. -/
def InOrder (state : State) : Event → Prop
  | .frame released _ _ =>
      ∀ last ∈ state.newest,
        last < released.id ∧ released.id - last ≤ halfRange.toNat
  | _ => True

instance (state : State) : (event : Event) → Decidable (InOrder state event)
  | .frame _ _ _ => inferInstanceAs (Decidable (∀ _ ∈ _, _))
  | .recoveryPoint _ => inferInstanceAs (Decidable True)
  | .embedderRejects _ => inferInstanceAs (Decidable True)
  | .decodeFailed _ => inferInstanceAs (Decidable True)

/-- Between frames in order, the gate sees a gap exactly when a frame is
missing. -/
theorem gapBefore_wire {client : Client} {last id : ℕ}
    (hlast : client.lastFrameId = some (wire last)) (hlt : last < id)
    (hnear : id - last ≤ halfRange.toNat) :
    client.gapBefore (wire id) = decide (id ≠ last + 1) := by
  have hhalf : halfRange.toNat = 2147483647 := rfl
  have hdelta := toNat_wire_sub_wire hlt.le (by omega : id - last < 2 ^ 32)
  have hzero : (wire id - wire last = 0) ↔ id - last = 0 := by
    rw [← hdelta, ← UInt32.toNat_inj]; rfl
  have hone : (wire id - wire last = 1) ↔ id - last = 1 := by
    rw [← hdelta, ← UInt32.toNat_inj]; rfl
  have hfar : ¬ halfRange < wire id - wire last := by
    rw [UInt32.lt_iff_toNat_lt, hdelta]; omega
  have hne : ¬ wire id - wire last = 0 := by rw [hzero]; omega
  have hstep : id - last = 1 ↔ id = last + 1 := by omega
  simp [Client.gapBefore, hlast, hne, hfar, hone, hstep]

/-- One pass through the gate, seen in the history. -/
theorem step_frame_cases (state : State) (released : Released)
    (backlog : Bool) (env : Client.GateEnv) :
    let after := step state (.frame released backlog env)
    let sent := (state.client.gate released.arrived backlog env).sent
    (after.history =
        .delivered released.id released.kind ::
          recordAsked sent state.history ∧
      state.client.HandedOver released.arrived.frame env.breakRequest
        after.client) ∨
    (after.history = recordAsked sent state.history ∧
      state.client.HeldBack released.arrived.frame env.breakRequest
        after.client) := by
  intro after sent
  rcases Client.gate_spec state.client released.arrived backlog env with
    ⟨⟨wait, hout⟩, hover⟩ | ⟨hout, hheld⟩
  · exact Or.inl ⟨by simp only [after, step, recordGated, hout, sent], hover⟩
  · refine Or.inr ⟨?_, hheld⟩
    rcases hout with hout | hout <;>
      simp only [after, step, recordGated, hout, sent]

end GameStreamer.ClientRun
