import GameStreamer.Client.PresentStats
import GameStreamer.Core.Clusters

/-!
# Episodes

The incremental episode tracker counts what an offline clustering of the same
breaks counts: the clusters of at least three breaks or with a freeze, and the
longest of them.  It follows the cluster that is still open, so it is tied to
the last segment of the breaks so far, and the 32-bit counter of its breaks
does not overflow on a clock of 64 bits.
-/

namespace GameStreamer

namespace CadenceBreak

/-- A break joins the cluster of the one before it when it comes at most one
second later. -/
def joins (earlier later : CadenceBreak) : Bool :=
  decide (later.nowUs ≤ earlier.nowUs + 1000000)

/-- The maximal clusters of a list of breaks. -/
def clusters (breaks : List CadenceBreak) : List (List CadenceBreak) :=
  breaks.splitBy joins

/-- At least three breaks, or a freeze. -/
def qualifies (cluster : List CadenceBreak) : Bool :=
  decide (3 ≤ cluster.length) || cluster.any hard

/-- From the present before the first break to the last break. -/
def span (cluster : List CadenceBreak) : ℕ :=
  (cluster.getLast?.elim 0 nowUs) - (cluster.head?.elim 0 prevUs)

/-- How many clusters are episodes. -/
def episodeCount (clusters : List (List CadenceBreak)) : ℕ :=
  clusters.countP qualifies

/-- The longest episode, 0 without one. -/
def worstSpan (clusters : List (List CadenceBreak)) : ℕ :=
  ((clusters.filter qualifies).map span).foldl max 0

theorem episodeCount_concat (clusters : List (List CadenceBreak))
    (cluster : List CadenceBreak) :
    episodeCount (clusters ++ [cluster]) =
      episodeCount clusters + (if qualifies cluster then 1 else 0) := by
  rw [episodeCount, List.countP_append, List.countP_singleton, episodeCount]

theorem worstSpan_concat (clusters : List (List CadenceBreak))
    (cluster : List CadenceBreak) :
    worstSpan (clusters ++ [cluster]) =
      if qualifies cluster then max (worstSpan clusters) (span cluster)
      else worstSpan clusters := by
  rw [worstSpan, List.filter_append, List.filter_singleton, worstSpan]
  cases qualifies cluster with
  | true =>
      rw [cond_true, if_pos rfl, List.map_append, List.foldl_append]
      rfl
  | false =>
      rw [cond_false, if_neg Bool.false_ne_true, List.append_nil]

theorem qualifies_singleton (brk : CadenceBreak) :
    qualifies [brk] = brk.hard := by
  rw [qualifies, List.any_cons, List.any_nil, Bool.or_false]
  rfl

theorem qualifies_concat (cluster : List CadenceBreak) (brk : CadenceBreak) :
    qualifies (cluster ++ [brk]) =
      (qualifies cluster ||
        (decide (3 ≤ cluster.length + 1) || brk.hard)) := by
  have hlength : decide (3 ≤ cluster.length + 1) =
      (decide (3 ≤ cluster.length) || decide (3 ≤ cluster.length + 1)) := by
    rw [Bool.eq_iff_iff, Bool.or_eq_true, decide_eq_true_eq,
      decide_eq_true_eq]
    omega
  rw [qualifies, qualifies, List.length_append, List.any_append,
    List.length_singleton, List.any_cons, List.any_nil, Bool.or_false, hlength]
  cases decide (3 ≤ cluster.length) <;> cases decide (3 ≤ cluster.length + 1)
    <;> cases cluster.any hard <;> rfl

theorem span_concat {cluster : List CadenceBreak} {first : CadenceBreak}
    (hfirst : cluster.head? = some first) (brk : CadenceBreak) :
    span (cluster ++ [brk]) = brk.nowUs - first.prevUs := by
  rw [span, List.getLast?_concat, List.head?_append, hfirst]
  rfl

end CadenceBreak

namespace EpisodeTracker

open CadenceBreak

/-! ## One break -/

/-- The tracker after a break, where `counted` says whether its cluster was an
episode before. -/
def extend (tracker : EpisodeTracker) (breaks startUs : ℕ) (counted : Bool)
    (brk : CadenceBreak) : EpisodeTracker :=
  let qualified := decide (3 ≤ breaks + 1) || brk.hard
  { episodes := tracker.episodes +
      (if qualified && !counted then 1 else 0)
    worstEpisodeUs := if counted || qualified then
      max tracker.worstEpisodeUs (brk.nowUs - startUs)
      else tracker.worstEpisodeUs
    epBreaks := breaks + 1
    epStartUs := startUs
    epLastBreakUs := brk.nowUs
    epCounted := counted || qualified }

theorem note_of_gap {tracker : EpisodeTracker} {brk : CadenceBreak}
    (hgap : episodeGapUs < brk.nowUs - tracker.epLastBreakUs) :
    tracker.note brk = tracker.extend 0 brk.prevUs false brk := by
  simp only [note, restart, if_pos hgap, count, extend]
  cases brk.hard <;> rfl

theorem note_of_joins {tracker : EpisodeTracker} {brk : CadenceBreak}
    (hgap : ¬episodeGapUs < brk.nowUs - tracker.epLastBreakUs) :
    tracker.note brk = tracker.extend tracker.epBreaks tracker.epStartUs
      tracker.epCounted brk := by
  simp only [note, restart, if_neg hgap, count, extend, episodeMinBreaks]
  cases tracker.epCounted <;> cases brk.hard <;>
    cases decide (3 ≤ tracker.epBreaks + 1) <;> rfl

/-! ## Every list of breaks -/

/-- The tracker has counted the closed clusters and the one still open. -/
structure Tracks (tracker : EpisodeTracker)
    (closed : List (List CadenceBreak)) (cluster : List CadenceBreak)
    (first last : CadenceBreak) : Prop where
  head : cluster.head? = some first
  getLast : cluster.getLast? = some last
  breaks : tracker.epBreaks = cluster.length
  start : tracker.epStartUs = first.prevUs
  lastBreak : tracker.epLastBreakUs = last.nowUs
  counted : tracker.epCounted = qualifies cluster
  episodes : tracker.episodes = episodeCount (closed ++ [cluster])
  worst : tracker.worstEpisodeUs = worstSpan (closed ++ [cluster])

/-- A tracker that has counted the closed clusters takes up a new one. -/
theorem tracks_extend_new {tracker : EpisodeTracker}
    {closed : List (List CadenceBreak)} (brk : CadenceBreak)
    (hepisodes : tracker.episodes = episodeCount closed)
    (hworst : tracker.worstEpisodeUs = worstSpan closed) :
    Tracks (tracker.extend 0 brk.prevUs false brk) closed [brk] brk brk := by
  have hqualifies := qualifies_singleton brk
  constructor
  · rfl
  · rfl
  · rfl
  · rfl
  · rfl
  · exact hqualifies.symm
  · rw [episodeCount_concat, hqualifies, ← hepisodes]
    cases hhard : brk.hard <;> simp [extend, hhard]
  · rw [worstSpan_concat, hqualifies, ← hworst]
    cases hhard : brk.hard <;> simp [extend, hhard, span]

/-- A break that joins the open cluster is counted with it. -/
theorem Tracks.extend {tracker : EpisodeTracker}
    {closed : List (List CadenceBreak)} {cluster : List CadenceBreak}
    {first last : CadenceBreak} (h : Tracks tracker closed cluster first last)
    {brk : CadenceBreak} (hlater : last.nowUs ≤ brk.nowUs) :
    Tracks (tracker.extend tracker.epBreaks tracker.epStartUs
      tracker.epCounted brk) closed (cluster ++ [brk]) first brk := by
  have hcounted : (tracker.epCounted ||
      (decide (3 ≤ tracker.epBreaks + 1) || brk.hard)) =
        qualifies (cluster ++ [brk]) := by
    rw [qualifies_concat, h.counted, h.breaks]
  have hspan := span_concat h.head brk
  have hgrows : span cluster ≤ span (cluster ++ [brk]) := by
    rw [hspan, span, h.head, h.getLast]
    exact Nat.sub_le_sub_right hlater _
  constructor
  · rw [List.head?_append, h.head]
    rfl
  · exact List.getLast?_concat
  · rw [List.length_append, ← h.breaks]
    rfl
  · exact h.start
  · rfl
  · exact hcounted
  · rw [episodeCount_concat, ← hcounted]
    simp only [EpisodeTracker.extend, h.episodes, episodeCount_concat,
      ← h.counted]
    cases tracker.epCounted <;> cases decide (3 ≤ tracker.epBreaks + 1) <;>
      cases brk.hard <;> rfl
  · rw [worstSpan_concat, ← hcounted, hspan]
    simp only [EpisodeTracker.extend, h.worst, worstSpan_concat, ← h.counted,
      h.start]
    rw [hspan] at hgrows
    cases tracker.epCounted with
    | false => rfl
    | true =>
        simp only [Bool.true_or, if_true]
        rw [Nat.max_assoc, Nat.max_eq_right hgrows]

/-- After a non-empty list of breaks the tracker has counted its clusters. -/
theorem tracks_foldl {breaks : List CadenceBreak} (hne : breaks ≠ [])
    (hsorted : (breaks.map nowUs).Pairwise (· ≤ ·))
    (hlate : ∀ brk ∈ breaks, episodeGapUs < brk.nowUs) :
    ∃ closed cluster first last, clusters breaks = closed ++ [cluster] ∧
      breaks.getLast? = some last ∧
      Tracks (breaks.foldl note initial) closed cluster first last := by
  induction breaks using List.reverseRecOn with
  | nil => exact absurd rfl hne
  | append_singleton breaks brk ih =>
      have hlateBreak := hlate brk (List.mem_append_right _ List.mem_cons_self)
      rw [List.foldl_concat, List.getLast?_concat]
      by_cases hbefore : breaks = []
      · subst hbefore
        refine ⟨[], [brk], brk, brk, rfl, rfl, ?_⟩
        rw [List.foldl_nil, note_of_gap (by exact hlateBreak)]
        exact tracks_extend_new brk rfl rfl
      · rw [List.map_append, List.pairwise_append] at hsorted
        obtain ⟨closed, cluster, first, last, hclusters, hlast, htracks⟩ :=
          ih hbefore hsorted.1 fun other hother =>
            hlate other (List.mem_append_left _ hother)
        have hlater : last.nowUs ≤ brk.nowUs :=
          hsorted.2.2 _ (List.mem_map_of_mem (List.mem_of_getLast? hlast)) _
            (List.mem_map_of_mem List.mem_cons_self)
        by_cases hgap : episodeGapUs <
            brk.nowUs - (breaks.foldl note initial).epLastBreakUs
        · have happart : joins last brk = false := by
            rw [htracks.lastBreak, episodeGapUs] at hgap
            exact decide_eq_false (by omega)
          refine ⟨closed ++ [cluster], [brk], brk, brk, ?_, rfl, ?_⟩
          · rw [clusters, Clusters.splitBy_concat_of_not_joins, ← hclusters]
            · rfl
            · intro other hother
              rw [hlast] at hother
              cases hother
              exact happart
          · rw [note_of_gap hgap]
            exact tracks_extend_new brk htracks.episodes htracks.worst
        · have hjoins : joins last brk = true := by
            rw [htracks.lastBreak, episodeGapUs] at hgap
            exact decide_eq_true (by omega)
          refine ⟨closed, cluster ++ [brk], first, brk, ?_, rfl, ?_⟩
          · exact Clusters.splitBy_concat_of_joins hclusters htracks.getLast
              hjoins
          · rw [note_of_joins hgap]
            exact htracks.extend hlater

/-- The tracker agrees with the offline clustering. -/
theorem foldl_note_eq {breaks : List CadenceBreak}
    (hsorted : (breaks.map nowUs).Pairwise (· ≤ ·))
    (hlate : ∀ brk ∈ breaks, episodeGapUs < brk.nowUs) :
    (breaks.foldl note initial).episodes = episodeCount (clusters breaks) ∧
      (breaks.foldl note initial).worstEpisodeUs =
        worstSpan (clusters breaks) := by
  by_cases hne : breaks = []
  · rw [hne]
    exact ⟨rfl, rfl⟩
  · obtain ⟨closed, cluster, first, last, hclusters, -, htracks⟩ :=
      tracks_foldl hne hsorted hlate
    rw [hclusters]
    exact ⟨htracks.episodes, htracks.worst⟩

/-! ## How fast episodes can come -/

/-- Every episode so far took a second of its own, and so will the open
cluster if it becomes one. -/
def Spaced (tracker : EpisodeTracker) : Prop :=
  tracker.episodes * episodeGapUs +
    (if tracker.epCounted then 0 else episodeGapUs) ≤ tracker.epLastBreakUs

theorem spaced_extend {tracker : EpisodeTracker} {breaks startUs : ℕ}
    {counted : Bool} {brk : CadenceBreak}
    (h : tracker.episodes * episodeGapUs +
      (if counted then 0 else episodeGapUs) ≤ brk.nowUs) :
    Spaced (tracker.extend breaks startUs counted brk) := by
  rw [Spaced]
  simp only [extend]
  cases counted with
  | true => simpa using h
  | false =>
      rw [if_neg Bool.false_ne_true] at h
      by_cases hqualified : (decide (3 ≤ breaks + 1) || brk.hard) = true
      · simp only [hqualified]
        simpa [Nat.succ_mul] using h
      · simp only [Bool.eq_false_of_not_eq_true hqualified]
        simpa using h

theorem spaced_note {tracker : EpisodeTracker} {brk : CadenceBreak}
    (hlater : tracker.epLastBreakUs ≤ brk.nowUs)
    (h : tracker = initial ∧ episodeGapUs < brk.nowUs ∨ Spaced tracker) :
    Spaced (tracker.note brk) := by
  by_cases hgap : episodeGapUs < brk.nowUs - tracker.epLastBreakUs
  · have hroom : tracker.episodes * episodeGapUs ≤ tracker.epLastBreakUs := by
      rcases h with ⟨rfl, -⟩ | hspaced
      · exact Nat.le_of_eq (Nat.zero_mul _)
      · exact Nat.le_trans (Nat.le_add_right _ _) hspaced
    rw [note_of_gap hgap]
    apply spaced_extend
    rw [if_neg Bool.false_ne_true]
    clear h
    omega
  · have hspaced : Spaced tracker := by
      rcases h with ⟨rfl, hlate⟩ | hspaced
      · exact absurd hlate hgap
      · exact hspaced
    rw [note_of_joins hgap]
    exact spaced_extend (Nat.le_trans hspaced hlater)

theorem epLastBreakUs_note (tracker : EpisodeTracker) (brk : CadenceBreak) :
    (tracker.note brk).epLastBreakUs = brk.nowUs := by
  by_cases hgap : episodeGapUs < brk.nowUs - tracker.epLastBreakUs
  · rw [note_of_gap hgap]
    rfl
  · rw [note_of_joins hgap]
    rfl

/-- Breaks that are apart leave the open cluster as long as its count says. -/
theorem epBreaks_mul_le {apart : ℕ} {breaks : List CadenceBreak}
    (hapart : (breaks.map nowUs).Pairwise
      fun earlier later => earlier + apart ≤ later)
    (hlate : ∀ brk ∈ breaks, apart ≤ brk.nowUs) :
    (breaks.foldl note initial).epBreaks * apart ≤
      (breaks.getLast?).elim 0 nowUs := by
  induction breaks using List.reverseRecOn with
  | nil => exact Nat.le_of_eq (Nat.zero_mul _)
  | append_singleton breaks brk ih =>
      rw [List.map_append, List.pairwise_append] at hapart
      have hbefore := ih hapart.1 fun other hmem =>
        hlate other (List.mem_append_left _ hmem)
      have hroom : (breaks.getLast?).elim 0 nowUs + apart ≤ brk.nowUs := by
        cases hlast : breaks.getLast? with
        | none =>
            rw [Option.elim_none, Nat.zero_add]
            exact hlate brk (List.mem_append_right _ List.mem_cons_self)
        | some last =>
            exact hapart.2.2 _
              (List.mem_map_of_mem (List.mem_of_getLast? hlast)) _
              (List.mem_map_of_mem List.mem_cons_self)
      rw [List.foldl_concat, List.getLast?_concat, Option.elim_some]
      by_cases hgap : episodeGapUs <
          brk.nowUs - (breaks.foldl note initial).epLastBreakUs
      · rw [note_of_gap hgap]
        change (0 + 1) * apart ≤ brk.nowUs
        omega
      · rw [note_of_joins hgap]
        calc ((breaks.foldl note initial).epBreaks + 1) * apart
            = (breaks.foldl note initial).epBreaks * apart + apart :=
              Nat.succ_mul _ _
          _ ≤ (breaks.getLast?).elim 0 nowUs + apart :=
              Nat.add_le_add_right hbefore _
          _ ≤ brk.nowUs := hroom

/-- Episodes are at least a second apart, so that the source's 32-bit counter
lasts for more than a century. -/
theorem episodes_mul_le (breaks : List CadenceBreak)
    (hsorted : (breaks.map nowUs).Pairwise (· ≤ ·))
    (hlate : ∀ brk ∈ breaks, episodeGapUs < brk.nowUs) :
    (breaks.foldl note initial).episodes * episodeGapUs ≤
      (breaks.getLast?).elim 0 nowUs := by
  have hrun : ∀ brk, breaks.getLast? = some brk →
      Spaced (breaks.foldl note initial) ∧
        (breaks.foldl note initial).epLastBreakUs = brk.nowUs := by
    induction breaks using List.reverseRecOn with
    | nil => exact fun _ hnone => absurd hnone (Option.some_ne_none _).symm
    | append_singleton breaks brk ih =>
        rw [List.map_append, List.pairwise_append] at hsorted
        intro other hother
        rw [List.getLast?_concat, Option.some.injEq] at hother
        subst hother
        rw [List.foldl_concat, epLastBreakUs_note]
        refine ⟨?_, rfl⟩
        cases hlast : breaks.getLast? with
        | none =>
            rw [List.getLast?_eq_none_iff] at hlast
            subst hlast
            rw [List.foldl_nil]
            apply spaced_note (Nat.zero_le _) (Or.inl ⟨rfl, _⟩)
            exact hlate _ (List.mem_append_right _ List.mem_cons_self)
        | some last =>
            obtain ⟨hspaced, hlastBreak⟩ := ih hsorted.1 (fun other hmem =>
              hlate other (List.mem_append_left _ hmem)) last hlast
            refine spaced_note ?_ (Or.inr hspaced)
            rw [hlastBreak]
            exact hsorted.2.2 _
              (List.mem_map_of_mem (List.mem_of_getLast? hlast)) _
              (List.mem_map_of_mem List.mem_cons_self)
  cases hlast : breaks.getLast? with
  | none =>
      rw [List.getLast?_eq_none_iff] at hlast
      rw [hlast]
      exact Nat.le_of_eq (Nat.zero_mul _)
  | some last =>
      obtain ⟨hspaced, hlastBreak⟩ := hrun last hlast
      rw [Option.elim_some, ← hlastBreak]
      exact Nat.le_trans (Nat.le_add_right _ _) hspaced

end EpisodeTracker

namespace PresentStats

open CadenceBreak

/-- **Episodes are the qualifying clusters.**  After presents that do not go
back in time the statistics report as many episodes as the maximal clusters of
their breaks that qualify, and the longest of these. -/
theorem episodes_eq_clusters (presents : List Present)
    (hsorted : (presents.map Present.nowUs).Pairwise (· ≤ ·)) :
    (presents.foldl onPresented default).episode.episodes =
        ((clusters (default.breaks presents)).filter qualifies).length ∧
      (presents.foldl onPresented default).episode.worstEpisodeUs =
        (((clusters (default.breaks presents)).filter qualifies).map
          span).foldl max 0 := by
  have hlate (brk : CadenceBreak) (hmem : brk ∈ default.breaks presents) :
      episodeGapUs < brk.nowUs :=
    Nat.lt_trans (by decide) (nowUs_of_mem_breaks hmem).1
  obtain ⟨hepisodes, hworst⟩ :=
    EpisodeTracker.foldl_note_eq (breaks_sorted default hsorted) hlate
  rw [episode_foldl, ← List.countP_eq_length_filter]
  exact ⟨hepisodes, hworst⟩

/-- **The 32-bit counters last.**  The source counts episodes and the breaks
of the open cluster in a `u32`.  Episodes are a second apart and breaks forty
milliseconds, so neither counter overflows in the first five years. -/
theorem counters_fit {presents : List Present}
    (hsorted : (presents.map Present.nowUs).Pairwise (· ≤ ·))
    (hnow : ∀ present ∈ presents, present.nowUs < 2 ^ 32 * 40000) :
    (presents.foldl onPresented default).episode.episodes < 2 ^ 32 ∧
      (presents.foldl onPresented default).episode.epBreaks < 2 ^ 32 := by
  have hwarm (brk : CadenceBreak) (hmem : brk ∈ default.breaks presents) :
      warmupUs < brk.nowUs := (nowUs_of_mem_breaks hmem).1
  have hlast : ((default.breaks presents).getLast?).elim 0 nowUs <
      2 ^ 32 * 40000 := by
    cases hlast : (default.breaks presents).getLast? with
    | none => decide
    | some last =>
        obtain ⟨present, hmem, hsame⟩ :=
          (nowUs_of_mem_breaks (List.mem_of_getLast? hlast)).2
        rw [Option.elim_some, ← hsame]
        exact hnow present hmem
  have hepisodes := EpisodeTracker.episodes_mul_le (default.breaks presents)
    (breaks_sorted default hsorted)
    fun brk hmem => Nat.lt_trans (by decide) (hwarm brk hmem)
  have hbreaks := EpisodeTracker.epBreaks_mul_le
    (breaks_spread default hsorted)
    fun brk hmem => Nat.le_trans (by decide) (hwarm brk hmem).le
  have hsecond : episodeGapUs = 1000000 := rfl
  have hstutter : stutterMinUs.toNat = 40000 := rfl
  rw [hsecond] at hepisodes
  rw [hstutter] at hbreaks
  rw [episode_foldl]
  change (List.foldl _ EpisodeTracker.initial _).episodes < _ ∧
    (List.foldl _ EpisodeTracker.initial _).epBreaks < _
  omega

/-- Two seconds of smooth presents, three stutters within a second, and a
freeze two seconds later. -/
def jerky : List Present :=
  [⟨none, 0, 500⟩, ⟨none, 0, 17000⟩, ⟨none, 0, 33500⟩, ⟨none, 0, 50000⟩,
    ⟨none, 0, 66500⟩, ⟨none, 0, 83000⟩, ⟨none, 0, 99500⟩,
    ⟨none, 0, 2000400⟩, ⟨none, 0, 2016900⟩, ⟨none, 0, 2076900⟩,
    ⟨none, 0, 2093400⟩, ⟨none, 0, 2173400⟩, ⟨none, 0, 2189900⟩,
    ⟨none, 0, 2269900⟩, ⟨none, 0, 4269900⟩]

/-- The three stutters are one episode of 253 milliseconds, the freeze is one
of two seconds. -/
theorem episodes_eq_clusters_at_a_freeze :
    ((clusters (default.breaks jerky)).filter qualifies).length = 2 ∧
      (((clusters (default.breaks jerky)).filter qualifies).map
        span).foldl max 0 = 2000000 := by
  obtain ⟨hepisodes, hworst⟩ := episodes_eq_clusters jerky (by decide)
  rw [← hepisodes, ← hworst]
  decide +kernel

end PresentStats

end GameStreamer
