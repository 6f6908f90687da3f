import Mathlib.Data.List.Sort
import Mathlib.Data.UInt

/-!
# Presentation statistics

The embedder reports every frame that it hands to the display.  A gap that is
long against the rolling cadence is a stutter, a very long one a freeze, and
cadence breaks that follow one another closely are one visible episode.  The
summaries that are computed from the windows are left out.
-/

namespace GameStreamer

/-- A stutter, or a freeze when `hard`: the present at `nowUs` came too long
after the one at `prevUs`. -/
structure CadenceBreak where
  prevUs : ℕ
  nowUs : ℕ
  hard : Bool
  deriving DecidableEq, Repr

/-- Breaks this close together belong to one episode. -/
def episodeGapUs : ℕ := 1000000

/-- Breaks that make a cluster an episode; a lone freeze also qualifies. -/
def episodeMinBreaks : ℕ := 3

/-- The fields of the statistics that track episodes: the episodes so far, and
the cluster of cadence breaks that is still open. -/
structure EpisodeTracker where
  episodes : ℕ
  worstEpisodeUs : ℕ
  epBreaks : ℕ
  epStartUs : ℕ
  epLastBreakUs : ℕ
  epCounted : Bool
  deriving DecidableEq, Repr

namespace EpisodeTracker

def initial : EpisodeTracker := ⟨0, 0, 0, 0, 0, false⟩

/-- A break long after the last one starts a cluster. -/
def restart (tracker : EpisodeTracker) (brk : CadenceBreak) :
    EpisodeTracker :=
  if episodeGapUs < brk.nowUs - tracker.epLastBreakUs then
    { tracker with
      epBreaks := 0
      epStartUs := brk.prevUs
      epCounted := false }
  else tracker

/-- The cluster becomes an episode with its third break or a freeze. -/
def count (tracker : EpisodeTracker) (brk : CadenceBreak) : EpisodeTracker :=
  if (decide (episodeMinBreaks ≤ tracker.epBreaks) || brk.hard) &&
      !tracker.epCounted then
    { tracker with episodes := tracker.episodes + 1, epCounted := true }
  else tracker

/-- `if brk { .. }` of `on_presented`. -/
def note (tracker : EpisodeTracker) (brk : CadenceBreak) : EpisodeTracker :=
  let tracker := tracker.restart brk
  let tracker := { tracker with
    epBreaks := tracker.epBreaks + 1
    epLastBreakUs := brk.nowUs }
  let tracker := tracker.count brk
  if tracker.epCounted then
    { tracker with
      worstEpisodeUs :=
        max tracker.worstEpisodeUs (brk.nowUs - tracker.epStartUs) }
  else tracker

end EpisodeTracker

/-- One call of `on_presented`. -/
structure Present where
  latencyUs : Option UInt32
  captureTsUs : UInt32
  nowUs : ℕ
  deriving DecidableEq, Repr

/-- The presentation statistics of a client.  The two windows keep their last
3600 entries, about a minute; the counters go on for the whole session. -/
structure PresentStats where
  presented : ℕ
  lastPresentUs : Option ℕ
  /-- Rolling inter-present gaps. -/
  frametimesUs : List UInt32
  /-- Rolling capture-to-present latency, when clock sync allows it. -/
  latenciesUs : List UInt32
  stutters : ℕ
  /-- Cadence breaks already present in the source. -/
  srcStutters : ℕ
  lastCaptureTs : Option UInt32
  freezes : ℕ
  freezeUsTotal : ℕ
  firstPresentUs : Option ℕ
  episode : EpisodeTracker
  deriving DecidableEq, Repr

namespace PresentStats

/-- `WINDOW`. -/
def window : ℕ := 3600

/-- Cadence breaks in the first moments of presentation are startup ramp. -/
def warmupUs : ℕ := 2000000

/-- A gap this many times the rolling median cadence counts as a stutter. -/
def stutterFactor : UInt32 := 2

/-- Gaps below this never count as stutters. -/
def stutterMinUs : UInt32 := 40000

/-- A gap this long is a freeze regardless of cadence. -/
def freezeUs : UInt32 := 250000

/-- `PresentStats::default`. -/
def default : PresentStats where
  presented := 0
  lastPresentUs := none
  frametimesUs := []
  latenciesUs := []
  stutters := 0
  srcStutters := 0
  lastCaptureTs := none
  freezes := 0
  freezeUsTotal := 0
  firstPresentUs := none
  episode := .initial

def pushCapped (buf : List UInt32) (value : UInt32) : List UInt32 :=
  (if buf.length = window then buf.tail else buf) ++ [value]

def percentile (samples : List UInt32) (p : ℕ) : Option UInt32 :=
  let sorted := samples.insertionSort (· ≤ ·)
  if samples = [] then none else sorted[p * (sorted.length - 1) / 100]?

/-- `u32::saturating_mul`. -/
def saturatingMul (left right : UInt32) : UInt32 :=
  UInt32.ofNat (min (left.toNat * right.toNat) (2 ^ 32 - 1))

/-- The gap between two presents, capped to 32 bits. -/
def gapUs (prev nowUs : ℕ) : UInt32 :=
  UInt32.ofNat (min (nowUs - prev) (2 ^ 32 - 1))

/-- The head of `on_presented`: the source's own cadence, the counters and the
first present. -/
def notePresent (stats : PresentStats) (present : Present) : PresentStats :=
  let srcBreak := stats.lastCaptureTs.any fun prevTs =>
    decide (stutterMinUs < present.captureTsUs - prevTs) &&
      decide (present.captureTsUs - prevTs < 10000000)
  { stats with
    srcStutters := if srcBreak then stats.srcStutters + 1
      else stats.srcStutters
    lastCaptureTs := some present.captureTsUs
    presented := stats.presented + 1
    latenciesUs := match present.latencyUs with
      | some latency => pushCapped stats.latenciesUs latency
      | none => stats.latenciesUs
    firstPresentUs := some (stats.firstPresentUs.getD present.nowUs) }

/-- Past the startup ramp. -/
def warm (stats : PresentStats) (nowUs : ℕ) : Bool :=
  decide (warmupUs < nowUs - stats.firstPresentUs.getD nowUs)

/-- What a gap does to the cadence. -/
inductive Cadence where
  | smooth
  | stutter
  | freeze
  deriving DecidableEq, Repr

def cadence (stats : PresentStats) (nowUs : ℕ) (gap : UInt32) : Cadence :=
  if !stats.warm nowUs then .smooth
  else if freezeUs ≤ gap then .freeze
  else
    match percentile stats.frametimesUs 50 with
    | none => .smooth
    | some median =>
        if saturatingMul median stutterFactor < gap ∧ stutterMinUs < gap then
          .stutter
        else .smooth

/-- A present after the one at `prev`. -/
def noteGap (stats : PresentStats) (prev nowUs : ℕ) : PresentStats :=
  let gap := gapUs prev nowUs
  let noted := match stats.cadence nowUs gap with
    | .smooth => stats
    | .stutter => { stats with
        stutters := stats.stutters + 1
        episode := stats.episode.note ⟨prev, nowUs, false⟩ }
    | .freeze => { stats with
        freezes := stats.freezes + 1
        freezeUsTotal := stats.freezeUsTotal + gap.toNat
        episode := stats.episode.note ⟨prev, nowUs, true⟩ }
  { noted with frametimesUs := pushCapped noted.frametimesUs gap }

/-- One present: the statistics note it, and its gap to the previous present is
classified before it joins the window. -/
def onPresented (stats : PresentStats) (present : Present) : PresentStats :=
  let stats := stats.notePresent present
  let stats := match stats.lastPresentUs with
    | none => stats
    | some prev => stats.noteGap prev present.nowUs
  { stats with lastPresentUs := some present.nowUs }

/-! ## The breaks that a run classifies -/

/-- The break that a present makes, if any. -/
def breakAt (stats : PresentStats) (present : Present) :
    Option CadenceBreak :=
  match stats.lastPresentUs with
  | none => none
  | some prev =>
      match (stats.notePresent present).cadence present.nowUs
          (gapUs prev present.nowUs) with
      | .smooth => none
      | .stutter => some ⟨prev, present.nowUs, false⟩
      | .freeze => some ⟨prev, present.nowUs, true⟩

/-- The breaks of the presents, in order. -/
def breaks : PresentStats → List Present → List CadenceBreak
  | _, [] => []
  | stats, present :: presents =>
      (stats.breakAt present).toList ++
        breaks (stats.onPresented present) presents

/-- A present leaves the episodes as they are, or notes its break. -/
theorem episode_onPresented (stats : PresentStats) (present : Present) :
    (stats.onPresented present).episode =
      (stats.breakAt present).toList.foldl EpisodeTracker.note
        stats.episode := by
  have hkeeps : (stats.notePresent present).lastPresentUs =
      stats.lastPresentUs := rfl
  rw [onPresented, breakAt, hkeeps]
  cases stats.lastPresentUs with
  | none => rfl
  | some prev =>
      simp only [noteGap]
      cases (stats.notePresent present).cadence present.nowUs
          (gapUs prev present.nowUs) with
      | smooth => rfl
      | stutter => rfl
      | freeze => rfl

/-- The tracker of a run is that of its breaks. -/
theorem episode_foldl (stats : PresentStats) (presents : List Present) :
    (presents.foldl onPresented stats).episode =
      (stats.breaks presents).foldl EpisodeTracker.note stats.episode := by
  induction presents generalizing stats with
  | nil => rfl
  | cons present presents ih =>
      rw [List.foldl_cons, ih, breaks, List.foldl_append,
        episode_onPresented]

/-! ## Where breaks come from -/

/-- A break is made by a present after the warm-up. -/
theorem breakAt_spec {stats : PresentStats} {present : Present}
    {brk : CadenceBreak} (h : stats.breakAt present = some brk) :
    brk.nowUs = present.nowUs ∧ warmupUs < brk.nowUs := by
  rw [breakAt] at h
  cases hlast : stats.lastPresentUs with
  | none =>
      rw [hlast] at h
      cases h
  | some prev =>
      rw [hlast] at h
      have hcold : (stats.notePresent present).warm present.nowUs = false →
          (stats.notePresent present).cadence present.nowUs
            (gapUs prev present.nowUs) = .smooth := by
        intro hcold
        rw [cadence, hcold]
        rfl
      have hbreak : brk.nowUs = present.nowUs ∧
          (stats.notePresent present).cadence present.nowUs
            (gapUs prev present.nowUs) ≠ .smooth := by
        cases hcadence : (stats.notePresent present).cadence present.nowUs
            (gapUs prev present.nowUs) with
        | smooth => simp [hcadence] at h
        | stutter =>
            simp only [hcadence, Option.some.injEq] at h
            exact ⟨congrArg CadenceBreak.nowUs h.symm, Cadence.noConfusion⟩
        | freeze =>
            simp only [hcadence, Option.some.injEq] at h
            exact ⟨congrArg CadenceBreak.nowUs h.symm, Cadence.noConfusion⟩
      refine ⟨hbreak.1, ?_⟩
      have hwarm : (stats.notePresent present).warm present.nowUs = true := by
        by_contra hnot
        exact hbreak.2 (hcold (Bool.eq_false_of_not_eq_true hnot))
      have hlate := of_decide_eq_true hwarm
      rw [hbreak.1]
      omega

theorem nowUs_of_mem_breaks {stats : PresentStats} {presents : List Present}
    {brk : CadenceBreak} (h : brk ∈ stats.breaks presents) :
    warmupUs < brk.nowUs ∧ ∃ present ∈ presents, present.nowUs = brk.nowUs := by
  induction presents generalizing stats with
  | nil => cases h
  | cons present presents ih =>
      rw [breaks, List.mem_append, Option.mem_toList] at h
      rcases h with hhead | htail
      · obtain ⟨hnow, hlate⟩ := breakAt_spec hhead
        exact ⟨hlate, present, List.mem_cons_self, hnow.symm⟩
      · obtain ⟨hlate, later, hlater, hnow⟩ := ih htail
        exact ⟨hlate, later, List.mem_cons_of_mem _ hlater, hnow⟩

/-! ## How far breaks are apart -/

/-- Only a gap of at least `STUTTER_MIN_US` is a break. -/
theorem stutterMinUs_le_of_cadence {stats : PresentStats} {nowUs : ℕ}
    {gap : UInt32} (h : stats.cadence nowUs gap ≠ .smooth) :
    stutterMinUs ≤ gap := by
  rw [cadence] at h
  by_cases hwarm : (!stats.warm nowUs) = true
  · rw [if_pos hwarm] at h
    exact absurd rfl h
  rw [if_neg hwarm] at h
  by_cases hfreeze : freezeUs ≤ gap
  · exact UInt32.le_trans (by decide) hfreeze
  rw [if_neg hfreeze] at h
  cases hmedian : percentile stats.frametimesUs 50 with
  | none =>
      rw [hmedian] at h
      exact absurd rfl h
  | some median =>
      rw [hmedian] at h
      dsimp only at h
      by_cases hlong : saturatingMul median stutterFactor < gap ∧
          stutterMinUs < gap
      · exact UInt32.le_of_lt hlong.2
      · rw [if_neg hlong] at h
        exact absurd rfl h

/-- A break spans a gap after the present before it. -/
theorem breakAt_gap {stats : PresentStats} {present : Present}
    {brk : CadenceBreak} (h : stats.breakAt present = some brk) :
    ∃ prev, stats.lastPresentUs = some prev ∧
      prev + stutterMinUs.toNat ≤ present.nowUs := by
  rw [breakAt] at h
  cases hlast : stats.lastPresentUs with
  | none =>
      rw [hlast] at h
      cases h
  | some prev =>
      rw [hlast] at h
      dsimp only at h
      have hrough : (stats.notePresent present).cadence present.nowUs
          (gapUs prev present.nowUs) ≠ .smooth := by
        intro hsmooth
        rw [hsmooth] at h
        cases h
      have hgap := UInt32.le_iff_toNat_le.mp
        (stutterMinUs_le_of_cadence hrough)
      have hspan : (gapUs prev present.nowUs).toNat ≤
          present.nowUs - prev := by
        rw [gapUs, UInt32.toNat_ofNat']
        exact Nat.le_trans (Nat.mod_le _ _) (Nat.min_le_left _ _)
      have hpositive : 0 < stutterMinUs.toNat := by decide
      exact ⟨prev, rfl, by omega⟩

@[simp]
theorem lastPresentUs_onPresented (stats : PresentStats) (present : Present) :
    (stats.onPresented present).lastPresentUs = some present.nowUs := rfl

/-- Breaks come a gap after the last present, where the presents do not go
back in time. -/
theorem add_le_nowUs_of_mem_breaks {stats : PresentStats}
    {presents : List Present} {prev : ℕ}
    (hprev : stats.lastPresentUs = some prev)
    (hsorted : (prev :: presents.map Present.nowUs).Pairwise (· ≤ ·))
    {brk : CadenceBreak} (h : brk ∈ stats.breaks presents) :
    prev + stutterMinUs.toNat ≤ brk.nowUs := by
  induction presents generalizing stats prev with
  | nil => cases h
  | cons present presents ih =>
      rw [breaks, List.mem_append, Option.mem_toList] at h
      rw [List.map_cons, List.pairwise_cons] at hsorted
      have hle : prev ≤ present.nowUs := hsorted.1 _ List.mem_cons_self
      rcases h with hhead | htail
      · obtain ⟨last, hlast, hgap⟩ := breakAt_gap hhead
        rw [hprev, Option.some.injEq] at hlast
        rw [(breakAt_spec hhead).1, hlast]
        exact hgap
      · have hlater := ih (lastPresentUs_onPresented stats present)
          hsorted.2 htail
        omega

/-- Two breaks are at least the shortest stutter apart. -/
theorem breaks_spread (stats : PresentStats) {presents : List Present}
    (hsorted : (presents.map Present.nowUs).Pairwise (· ≤ ·)) :
    ((stats.breaks presents).map CadenceBreak.nowUs).Pairwise
      (fun earlier later => earlier + stutterMinUs.toNat ≤ later) := by
  induction presents generalizing stats with
  | nil => exact List.Pairwise.nil
  | cons present presents ih =>
      have hrest := ih (stats.onPresented present)
        (List.pairwise_cons.mp hsorted).2
      rw [breaks]
      cases hbreak : stats.breakAt present with
      | none => exact hrest
      | some brk =>
          rw [Option.toList_some, List.singleton_append, List.map_cons,
            List.pairwise_cons]
          refine ⟨?_, hrest⟩
          intro nowUs hmem
          obtain ⟨later, hlater, rfl⟩ := List.mem_map.mp hmem
          rw [(breakAt_spec hbreak).1]
          exact add_le_nowUs_of_mem_breaks
            (lastPresentUs_onPresented stats present) hsorted hlater

/-- Where the presents do not go back in time, neither do their breaks. -/
theorem breaks_sorted (stats : PresentStats) {presents : List Present}
    (hsorted : (presents.map Present.nowUs).Pairwise (· ≤ ·)) :
    ((stats.breaks presents).map CadenceBreak.nowUs).Pairwise (· ≤ ·) :=
  (stats.breaks_spread hsorted).imp (Nat.le_trans (Nat.le_add_right _ _))

end PresentStats

end GameStreamer
