import GameStreamer.Client.ClockSync
import Mathlib.Algebra.Group.Nat.Defs

/-!
# Error of the clock estimate

An exchange with the agent bounds the offset between the two clocks by half
its round trip, and the client keeps the exchange with the lowest one.  A
frame latency is off by no more than the offset is, wherever the truncated
capture stamp stands in its wrap.
-/

namespace GameStreamer.ClockSync

/-- A ping/pong exchange whose agent stamp was taken between sending and
receiving, on a clock that is ahead of the client's by `trueOffset`. -/
structure Exchange (trueOffset : ℤ) where
  sentUs : ℕ
  receivedUs : ℕ
  agentTsUs : ℕ
  sent_le : (sentUs : ℤ) + trueOffset ≤ agentTsUs
  le_received : (agentTsUs : ℤ) ≤ receivedUs + trueOffset

variable {trueOffset : ℤ}

def Exchange.rtt (exchange : Exchange trueOffset) : ℕ :=
  exchange.receivedUs - exchange.sentUs

def recordExchange (sync : ClockSync) (exchange : Exchange trueOffset) :
    ClockSync :=
  sync.record exchange.sentUs exchange.receivedUs exchange.agentTsUs

/-- The estimate after the exchanges, from the default state. -/
def synced (exchanges : List (Exchange trueOffset)) : ClockSync :=
  exchanges.foldl recordExchange ⟨none⟩

/-! ## The machine's arithmetic -/

/-! ## The offset -/

/-- The estimate comes from a round trip of `rtt` and is off by at most half
of it, rounded up. -/
def Within (trueOffset : ℤ) (rtt : ℕ) (offset : ℤ) : Prop :=
  (offset - trueOffset).natAbs ≤ (rtt + 1) / 2

/-- A single exchange: the true offset lies within half a round trip of the
midpoint's. -/
theorem Exchange.within (exchange : Exchange trueOffset) :
    Within trueOffset exchange.rtt ((exchange.agentTsUs : ℤ) -
      (exchange.sentUs + exchange.rtt / 2 : ℕ)) := by
  have hsent := exchange.sent_le
  have hreceived := exchange.le_received
  rw [Within, Exchange.rtt]
  omega

/-- What one exchange leaves of a best sample. -/
theorem recordExchange_best (exchange : Exchange trueOffset) {rtt : ℕ}
    {offset : ℤ} (hwithin : Within trueOffset rtt offset) :
    ∃ offset', recordExchange ⟨some (rtt, offset)⟩ exchange =
        ⟨some (min rtt exchange.rtt, offset')⟩ ∧
      Within trueOffset (min rtt exchange.rtt) offset' := by
  by_cases hbetter : exchange.rtt < rtt
  · rw [Nat.min_eq_right (Nat.le_of_lt hbetter)]
    refine ⟨_, ?_, exchange.within⟩
    exact if_pos hbetter
  · rw [Nat.min_eq_left (Nat.le_of_not_lt hbetter)]
    exact ⟨offset, if_neg hbetter, hwithin⟩

theorem foldl_recordExchange_best (exchanges : List (Exchange trueOffset))
    {rtt : ℕ} {offset : ℤ} (hwithin : Within trueOffset rtt offset) :
    ∃ offset', exchanges.foldl recordExchange ⟨some (rtt, offset)⟩ =
        ⟨some ((exchanges.map Exchange.rtt).foldl min rtt, offset')⟩ ∧
      Within trueOffset ((exchanges.map Exchange.rtt).foldl min rtt)
        offset' := by
  induction exchanges generalizing rtt offset with
  | nil => exact ⟨offset, rfl, hwithin⟩
  | cons exchange exchanges ih =>
      obtain ⟨next, hrecord, hnext⟩ := recordExchange_best exchange hwithin
      rw [List.foldl_cons, hrecord]
      exact ih hnext

/-- The kept sample has the smallest round trip, and its offset is within half
of that. -/
theorem synced_best {exchanges : List (Exchange trueOffset)}
    (hne : exchanges ≠ []) :
    ∃ rtt offset, (exchanges.map Exchange.rtt).min? = some rtt ∧
      (synced exchanges).offsetUs = some offset ∧
      Within trueOffset rtt offset := by
  cases exchanges with
  | nil => exact absurd rfl hne
  | cons first rest =>
      obtain ⟨offset, hbest, hwithin⟩ :=
        foldl_recordExchange_best rest first.within
      refine ⟨_, offset, rfl, ?_, hwithin⟩
      exact congrArg offsetUs hbest

/-! ## Frame latency -/

/-- What an estimate at `offset` makes of a frame: `none` where the estimated
agent time is no clock reading. -/
theorem frameLatencyUs_eq_some {sync : ClockSync} {clientNowUs : ℕ}
    {captureTsWire latency : UInt32} {offset : ℤ}
    (hoffset : sync.offsetUs = some offset)
    (h : sync.frameLatencyUs clientNowUs captureTsWire = some latency) :
    0 ≤ (clientNowUs : ℤ) + offset ∧
      latency = UInt32.ofNat ((clientNowUs : ℤ) + offset).toNat -
        captureTsWire ∧
      latency.toNat < 10000000 := by
  rw [frameLatencyUs, hoffset, Option.bind_eq_bind, Option.bind_some,
    checkedAddSigned] at h
  by_cases hfits : 0 ≤ (clientNowUs : ℤ) + offset ∧
      (clientNowUs : ℤ) + offset < 2 ^ 64
  · rw [if_pos hfits, Option.bind_eq_bind, Option.bind_some] at h
    obtain ⟨hlt, hlatency⟩ := Option.ite_none_right_eq_some.mp h
    cases hlatency
    exact ⟨hfits.1, rfl, UInt32.lt_iff_toNat_lt.mp hlt⟩
  · rw [if_neg hfits] at h
    cases h

/-- The truncated difference recovers a distance that is below the cut-off,
and a stamp slightly ahead of the estimate never passes for one. -/
theorem toNat_wire_distance {agentNow captureUs : ℕ} {distance : ℤ}
    (hdistance : (agentNow : ℤ) - captureUs = distance)
    (hlower : -(2 ^ 32 - 10000000) ≤ distance) (hupper : distance < 2 ^ 32)
    (hcut : (UInt32.ofNat agentNow - wireTs captureUs).toNat < 10000000) :
    ((UInt32.ofNat agentNow - wireTs captureUs).toNat : ℤ) = distance := by
  rw [wireTs, UInt32.toNat_sub, UInt32.toNat_ofNat', UInt32.toNat_ofNat']
    at hcut ⊢
  omega

/-- **The error bound of the clock synchronisation.**  After any exchanges the
offset is within half the smallest round trip of the true one, and below ten
seconds a reported frame latency is within the same distance of the true
latency. -/
theorem clock_error_bound (trueOffset : ℤ)
    (exchanges : List (Exchange trueOffset)) (hne : exchanges ≠ []) :
    ∃ rtt offset, (exchanges.map Exchange.rtt).min? = some rtt ∧
      (synced exchanges).offsetUs = some offset ∧
      (offset - trueOffset).natAbs ≤ (rtt + 1) / 2 ∧
      (rtt < 10000000 → ∀ clientNowUs captureUs trueLatency : ℕ,
        trueLatency < 10000000 →
        (clientNowUs : ℤ) + trueOffset = captureUs + trueLatency →
        ∀ latency, (synced exchanges).frameLatencyUs clientNowUs
            (wireTs captureUs) = some latency →
          ((latency.toNat : ℤ) - trueLatency).natAbs ≤ (rtt + 1) / 2) := by
  obtain ⟨rtt, offset, hmin, hoffset, hwithin⟩ := synced_best hne
  refine ⟨rtt, offset, hmin, hoffset, hwithin, ?_⟩
  intro hrtt clientNowUs captureUs trueLatency htrue hcaptured latency hsome
  have herror : (offset - trueOffset).natAbs ≤ (rtt + 1) / 2 := hwithin
  obtain ⟨hnow, rfl, hcut⟩ := frameLatencyUs_eq_some hoffset hsome
  have hdistance : ((((clientNowUs : ℤ) + offset).toNat : ℕ) : ℤ) -
      captureUs = trueLatency + (offset - trueOffset) := by
    rw [Int.toNat_of_nonneg hnow]
    omega
  rw [toNat_wire_distance hdistance (by omega) (by omega) hcut]
  omega

/-- An exchange with an agent that is close to the wrap of its stamps. -/
def exchangeBeforeWrap : Exchange 4294960000 :=
  ⟨0, 9000, 4294964000, by decide, by decide⟩

/-- A frame captured before the wrap and observed after it: its latency of
4 ms is reported as 3.5 ms. -/
theorem clock_error_bound_at_wrap :
    (synced [exchangeBeforeWrap]).frameLatencyUs 10000 (wireTs 4294966000) =
        some 3500 ∧
      ∃ rtt, ([exchangeBeforeWrap].map Exchange.rtt).min? = some rtt ∧
        (((3500 : UInt32).toNat : ℤ) - 4000).natAbs ≤ (rtt + 1) / 2 := by
  have hlatency : (synced [exchangeBeforeWrap]).frameLatencyUs 10000
      (wireTs 4294966000) = some 3500 := by decide +kernel
  obtain ⟨rtt, offset, hmin, -, -, hframes⟩ := clock_error_bound 4294960000
    [exchangeBeforeWrap] (List.cons_ne_nil _ _)
  have hrtt : rtt = 9000 := Option.some.inj (hmin.symm.trans rfl)
  refine ⟨hlatency, rtt, hmin, ?_⟩
  exact hframes (by rw [hrtt]; decide) 10000 4294966000 4000 (by decide)
    (by decide) 3500 hlatency

end GameStreamer.ClockSync
