import GameStreamer.Client.ClockError
import GameStreamer.Client.Gate
import GameStreamer.Core.EventRun

/-!
# The de-jitter buffer

A frame is held to a latency target that is anchored to its capture time, so
that waiting never accumulates.  The computation with its index and
subtraction checks is the one without them, and every delivery of a run is
released by the later of its arrival at the gate and its target.
-/

namespace GameStreamer.Client

open ClockSync

/-! ## The computation with its checks -/

/-- `left - right` on `u32`. -/
def subU32 (left right : UInt32) : Option UInt32 :=
  if right ≤ left then some (left - right) else none

/-- `dejitter_release` where a failing index or subtraction is `none`. -/
def dejitterReleaseChecked (client : Client) (nowUs : ℕ)
    (captureTsUs : UInt32) (arrivalUs : ℕ) (backlog : Bool) :
    Option (Client × Option ℕ) :=
  let client := { client with
    firstGateUs := some (client.firstGateUs.getD nowUs) }
  let client := client.recordLatency
    (client.clockSync.frameLatencyUs arrivalUs captureTsUs)
  if client.jitterWin.length < jitterWindow / 2 then some (client, none)
  else do
    let lat := client.jitterWin.insertionSort (· ≤ ·)
    let p10 ← lat[lat.length / 10]?
    let p90 ← lat[lat.length * 9 / 10]?
    let jitter ← subU32 p90 p10
    let client := { client with lastJitterUs := jitter }
    if backlog || !client.dejitter then some (client, none)
    else if nowUs - client.firstGateUs.getD nowUs < warmupUs then
      some (client, none)
    else
      let high := if client.dejitterActive then decide (jitterOffUs ≤ jitter)
        else decide (jitterOnUs ≤ jitter)
      let client := { client with dejitterActive := high }
      if !high then some (client, none)
      else
        match client.clockSync.frameLatencyUs nowUs captureTsUs with
        | none => some (client, none)
        | some latNow =>
            let target := min p90 (saturatingAdd p10 dejitterMaxUs)
            if latNow < target then do
              let rest ← subU32 target latNow
              some (client, some (min rest dejitterMaxUs).toNat)
            else some (client, none)

/-! ## Percentiles -/

theorem pairwise_insertionSort (win : List UInt32) :
    (win.insertionSort (· ≤ ·)).Pairwise (· ≤ ·) := by
  have : Std.Total (fun left right : UInt32 => left ≤ right) :=
    ⟨UInt32.le_total⟩
  have : IsTrans UInt32 (fun left right => left ≤ right) :=
    ⟨fun _ _ _ => UInt32.le_trans⟩
  exact List.pairwise_insertionSort _ win

/-- Ranks of a sorted list are in range and ordered. -/
theorem percentiles_spec {win : List UInt32}
    (hlong : jitterWindow / 2 ≤ win.length) :
    let lat := win.insertionSort (· ≤ ·)
    lat[lat.length / 10]? = some (percentiles win).1 ∧
      lat[lat.length * 9 / 10]? = some (percentiles win).2 ∧
      (percentiles win).1 ≤ (percentiles win).2 := by
  intro lat
  have hlength : lat.length = win.length :=
    List.length_insertionSort (· ≤ ·) win
  have hsixteen : 16 ≤ lat.length := by
    rw [hlength]
    exact hlong
  have hlow : lat.length / 10 < lat.length := by omega
  have hhigh : lat.length * 9 / 10 < lat.length := by omega
  have hp10 : (percentiles win).1 = lat[lat.length / 10] :=
    List.getD_eq_getElem _ _ hlow
  have hp90 : (percentiles win).2 = lat[lat.length * 9 / 10] :=
    List.getD_eq_getElem _ _ hhigh
  refine ⟨?_, ?_, ?_⟩
  · rw [hp10, List.getElem?_eq_getElem hlow]
  · rw [hp90, List.getElem?_eq_getElem hhigh]
  · rw [hp10, hp90]
    have hsorted : lat.Pairwise (· ≤ ·) := pairwise_insertionSort win
    rw [List.pairwise_iff_getElem] at hsorted
    exact hsorted _ _ hlow hhigh (by omega)

theorem subU32_of_le {left right : UInt32} (h : right ≤ left) :
    subU32 left right = some (left - right) := if_pos h

/-- No index is out of range and no subtraction underflows. -/
theorem dejitterReleaseChecked_eq (client : Client) (nowUs : ℕ)
    (captureTsUs : UInt32) (arrivalUs : ℕ) (backlog : Bool) :
    client.dejitterReleaseChecked nowUs captureTsUs arrivalUs backlog =
      some (client.dejitterRelease nowUs captureTsUs arrivalUs backlog) := by
  rw [dejitterReleaseChecked, dejitterRelease]
  generalize hrecorded : recordLatency _ _ = recorded
  by_cases hfew : recorded.jitterWin.length < jitterWindow / 2
  · simp only [if_pos hfew]
  · obtain ⟨hp10, hp90, hle⟩ := percentiles_spec (Nat.le_of_not_lt hfew)
    simp only [if_neg hfew, hp10, hp90, subU32_of_le hle,
      Option.bind_eq_bind, Option.bind_some]
    cases hlat : recorded.clockSync.frameLatencyUs nowUs captureTsUs with
    | none => simp only [apply_ite some]
    | some latNow =>
        by_cases hearly : latNow < min (percentiles recorded.jitterWin).2
            (saturatingAdd (percentiles recorded.jitterWin).1 dejitterMaxUs)
        · simp only [if_pos hearly, subU32_of_le (UInt32.le_of_lt hearly),
            Option.bind_some, apply_ite some]
        · simp only [if_neg hearly, apply_ite some]

/-! ## One delivery -/

/-- The latency target of a window: the 90th percentile, at most 33 ms above
the 10th. -/
def targetUs (win : List UInt32) : ℕ :=
  min (percentiles win).2.toNat ((percentiles win).1.toNat + 33000)

theorem toNat_target (win : List UInt32) :
    (min (percentiles win).2
      (saturatingAdd (percentiles win).1 dejitterMaxUs)).toNat =
        targetUs win := by
  have hlt := (percentiles win).2.toNat_lt
  have hmax : dejitterMaxUs.toNat = 33000 := rfl
  have hsaturated :
      (saturatingAdd (percentiles win).1 dejitterMaxUs).toNat =
        min ((percentiles win).1.toNat + 33000) (2 ^ 32 - 1) := by
    rw [saturatingAdd, UInt32.toNat_ofNat', hmax]
    exact Nat.mod_eq_of_lt (Nat.lt_of_le_of_lt (Nat.min_le_right _ _)
      (by decide))
  rw [UInt32.toNat_min, hsaturated, targetUs]
  omega

theorem recordLatency_jitterWin (client : Client) (firstGateUs : Option ℕ)
    (latency : Option UInt32) :
    (recordLatency { client with firstGateUs := firstGateUs }
      latency).jitterWin = (client.recordLatency latency).jitterWin := by
  cases latency with
  | none => rfl
  | some lat => rfl

theorem recordLatency_clockSync (client : Client) (latency : Option UInt32) :
    (client.recordLatency latency).clockSync = client.clockSync := by
  cases latency with
  | none => rfl
  | some lat => rfl

/-- The window that a delivery sees, its own latency recorded. -/
def windowAt (client : Client) (captureTsUs : UInt32) (arrivalUs : ℕ) :
    List UInt32 :=
  (client.recordLatency
    (client.clockSync.frameLatencyUs arrivalUs captureTsUs)).jitterWin

/-- A frame that waits has nothing behind it and is early against its target,
and it waits no longer than it is early. -/
theorem dejitterRelease_wait {client : Client} {nowUs : ℕ}
    {captureTsUs : UInt32} {arrivalUs : ℕ} {backlog : Bool} {wait : ℕ}
    (h : (client.dejitterRelease nowUs captureTsUs arrivalUs backlog).2 =
      some wait) :
    backlog = false ∧ ∃ latNow,
      client.clockSync.frameLatencyUs nowUs captureTsUs = some latNow ∧
      latNow.toNat < targetUs (client.windowAt captureTsUs arrivalUs) ∧
      wait = min (targetUs (client.windowAt captureTsUs arrivalUs) -
        latNow.toNat) 33000 := by
  have hwin := recordLatency_jitterWin client
    (some (client.firstGateUs.getD nowUs))
    (client.clockSync.frameLatencyUs arrivalUs captureTsUs)
  have hsync := recordLatency_clockSync
    { client with firstGateUs := some (client.firstGateUs.getD nowUs) }
    (client.clockSync.frameLatencyUs arrivalUs captureTsUs)
  rw [dejitterRelease] at h
  generalize recordLatency _ _ = recorded at h hwin hsync
  change recorded.clockSync = client.clockSync at hsync
  change recorded.jitterWin = client.windowAt captureTsUs arrivalUs at hwin
  rw [← hwin, ← hsync]
  by_cases hfew : recorded.jitterWin.length < jitterWindow / 2
  · simp only [if_pos hfew] at h
    cases h
  · simp only [if_neg hfew] at h
    by_cases hheld : (backlog || !recorded.dejitter) = true
    · simp only [if_pos hheld] at h
      cases h
    · simp only [if_neg hheld] at h
      cases hlat : recorded.clockSync.frameLatencyUs nowUs captureTsUs with
      | none =>
          simp only [hlat] at h
          split_ifs at h
      | some latNow =>
          by_cases hearly : latNow < min (percentiles recorded.jitterWin).2
              (saturatingAdd (percentiles recorded.jitterWin).1 dejitterMaxUs)
          · have hwait : some wait = some (min (min
                (percentiles recorded.jitterWin).2 (saturatingAdd
                  (percentiles recorded.jitterWin).1 dejitterMaxUs) - latNow)
                dejitterMaxUs).toNat := by
              simp only [hlat, if_pos hearly] at h
              split_ifs at h <;> exact h.symm
            have htarget := toNat_target recorded.jitterWin
            have hlt := UInt32.lt_iff_toNat_lt.mp hearly
            rw [htarget] at hlt
            refine ⟨?_, latNow, rfl, hlt, ?_⟩
            · cases backlog with
              | false => rfl
              | true => exact absurd rfl hheld
            · rw [Option.some.inj hwait, UInt32.toNat_min,
                UInt32.toNat_sub_of_le _ _ (UInt32.le_of_lt hearly), htarget]
              rfl
          · simp only [hlat, if_neg hearly] at h
            split_ifs at h

/-- Whatever becomes of the frame, the client keeps the window. -/
theorem dejitterRelease_jitterWin (client : Client) (nowUs : ℕ)
    (captureTsUs : UInt32) (arrivalUs : ℕ) (backlog : Bool) :
    (client.dejitterRelease nowUs captureTsUs arrivalUs backlog).1.jitterWin =
      client.windowAt captureTsUs arrivalUs := by
  rw [windowAt, ← recordLatency_jitterWin client
    (some (client.firstGateUs.getD nowUs)), dejitterRelease]
  generalize recordLatency _ _ = recorded
  simp only []
  split_ifs
  all_goals first
    | rfl
    | (split
       · rfl
       · split_ifs <;> rfl)

/-! ## Capture time in the client's clock -/

/-- Where the clock estimate puts the capture of a frame. -/
def captureUs (sync : ClockSync) (nowUs : ℕ) (captureTsUs : UInt32) :
    Option ℤ :=
  (sync.frameLatencyUs nowUs captureTsUs).map fun latency =>
    (nowUs : ℤ) - latency.toNat

end GameStreamer.Client

/-! ## Every run of deliveries -/

namespace GameStreamer.DejitterRun

open Client

/-- A frame that reaches the gate. -/
structure Delivery where
  nowUs : ℕ
  captureTsUs : UInt32
  arrivalUs : ℕ
  backlog : Bool
  deriving DecidableEq, Repr

inductive Event where
  | deliver (delivery : Delivery)
  /-- The embedder sets the shared switch. -/
  | toggle (enabled : Bool)
  /-- A ping/pong updates the clock estimate. -/
  | ping (sentUs receivedUs agentTsUs : ℕ)
  deriving DecidableEq, Repr

/-- The client with every latency that it has recorded, of which its window
keeps the last ones. -/
structure State where
  client : Client
  /-- Every latency recorded so far, oldest first. -/
  recorded : List UInt32
  deriving DecidableEq, Repr

def start (control : ControlPath) (clockSync : ClockSync) : State :=
  ⟨connected control clockSync, []⟩

/-- What the client makes of a delivery: its own next state and the wait. -/
def release (client : Client) (delivery : Delivery) : Client × Option ℕ :=
  client.dejitterRelease delivery.nowUs delivery.captureTsUs
    delivery.arrivalUs delivery.backlog

/-- One delivery, one use of the switch or one ping.  A delivery records its
latency where the clock estimate allows one. -/
def step (state : State) : Event → State
  | .deliver delivery =>
      { client := (release state.client delivery).1
        recorded := state.recorded ++
          (state.client.clockSync.frameLatencyUs delivery.arrivalUs
            delivery.captureTsUs).toList }
  | .toggle enabled =>
      { state with client := { state.client with dejitter := enabled } }
  | .ping sentUs receivedUs agentTsUs =>
      { state with client := { state.client with
          clockSync := state.client.clockSync.record sentUs receivedUs
            agentTsUs } }

/-- The last latencies, 32 at most. -/
def lastRecorded (recorded : List UInt32) : List UInt32 :=
  recorded.drop (recorded.length - 32)

/-- Recording a latency moves the window by one. -/
theorem lastRecorded_concat (recorded : List UInt32) (lat : UInt32) :
    lastRecorded (recorded ++ [lat]) =
      (if (lastRecorded recorded).length = jitterWindow then
        (lastRecorded recorded).tail else lastRecorded recorded) ++ [lat] := by
  have hlength : (lastRecorded recorded).length = min recorded.length 32 := by
    rw [lastRecorded, List.length_drop]
    omega
  rw [hlength, jitterWindow]
  split_ifs with hfull
  · have hdrop : (recorded ++ [lat]).length - 32 =
        recorded.length - 32 + 1 := by
      rw [List.length_append, List.length_singleton]
      omega
    rw [lastRecorded, hdrop, List.drop_append_of_le_length (by omega),
      lastRecorded, List.tail_drop]
  · have hdrop : (recorded ++ [lat]).length - 32 = 0 := by
      rw [List.length_append, List.length_singleton]
      omega
    have hall : recorded.length - 32 = 0 := by omega
    rw [lastRecorded, hdrop, lastRecorded, hall, List.drop_zero,
      List.drop_zero]

/-- The client's window is that of the recorded latencies. -/
def Windowed (state : State) : Prop :=
  state.client.jitterWin = lastRecorded state.recorded

theorem windowAt_eq {state : State} (h : Windowed state)
    (delivery : Delivery) :
    state.client.windowAt delivery.captureTsUs delivery.arrivalUs =
      lastRecorded (step state (.deliver delivery)).recorded := by
  simp only [windowAt, step]
  rw [Windowed] at h
  cases state.client.clockSync.frameLatencyUs delivery.arrivalUs
      delivery.captureTsUs with
  | none =>
      rw [Option.toList_none, List.append_nil]
      exact h
  | some lat =>
      rw [Option.toList_some, lastRecorded_concat, ← h]
      rfl

theorem windowed_step (state : State) (event : Event) (h : Windowed state) :
    Windowed (step state event) := by
  cases event with
  | deliver delivery =>
      rw [Windowed, ← windowAt_eq h delivery]
      exact dejitterRelease_jitterWin _ _ _ _ _
  | toggle enabled => exact h
  | ping sentUs receivedUs agentTsUs => exact h

theorem windowed_run (control : ControlPath) (clockSync : ClockSync)
    (events : List Event) :
    Windowed (events.foldl step (start control clockSync)) :=
  EventRun.foldl_preserves windowed_step events rfl

/-- **The de-jitter buffer never builds a standing delay.**  In any run, a
delivery computes without a failing index or subtraction, waits no longer than
33 ms, never with a backlog or at its target, and is released by the later of
its arrival at the gate and its capture time plus the target. -/
theorem dejitter_no_standing_delay (control : ControlPath)
    (clockSync : ClockSync) (events : List Event) (delivery : Delivery) :
    let state := events.foldl step (start control clockSync)
    let win := lastRecorded (step state (.deliver delivery)).recorded
    let wait := (release state.client delivery).2
    let captured := captureUs state.client.clockSync delivery.nowUs
      delivery.captureTsUs
    state.client.dejitterReleaseChecked delivery.nowUs delivery.captureTsUs
        delivery.arrivalUs delivery.backlog =
      some (release state.client delivery) ∧
    wait.getD 0 ≤ 33000 ∧
    (delivery.backlog = true → wait = none) ∧
    (captured = none → wait = none) ∧
    ∀ capturedUs, captured = some capturedUs →
      (capturedUs + targetUs win ≤ delivery.nowUs → wait = none) ∧
      ((delivery.nowUs + wait.getD 0 : ℕ) : ℤ) ≤
        max (delivery.nowUs : ℤ) (capturedUs + targetUs win) := by
  intro state win wait captured
  have hwin : state.client.windowAt delivery.captureTsUs delivery.arrivalUs =
      win := windowAt_eq (windowed_run control clockSync events) delivery
  refine ⟨dejitterReleaseChecked_eq _ _ _ _ _, ?_⟩
  cases hwait : wait with
  | none =>
      refine ⟨Nat.zero_le _, fun _ => rfl, fun _ => rfl, ?_⟩
      intro capturedUs _
      exact ⟨fun _ => rfl, le_max_left _ _⟩
  | some waited =>
      obtain ⟨hhead, latNow, hlat, hearly, rfl⟩ := dejitterRelease_wait hwait
      rw [hwin] at hearly ⊢
      have hcaptured : captured = some ((delivery.nowUs : ℤ) - latNow.toNat) :=
        congrArg (Option.map _) hlat
      refine ⟨Nat.min_le_right _ _, ?_, ?_, ?_⟩
      · intro hbacklog
        rw [hhead] at hbacklog
        cases hbacklog
      · intro hnone
        rw [hcaptured] at hnone
        cases hnone
      · intro capturedUs hsome
        rw [hcaptured, Option.some.injEq] at hsome
        subst hsome
        constructor
        · intro hlate
          omega
        · rw [Option.getD_some, le_max_iff]
          right
          omega

end GameStreamer.DejitterRun
