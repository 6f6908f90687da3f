import GameStreamer.Client.Run

/-!
# Reference-chain safety of the gate

The encoder's rule: a P frame references the frame before it, except that the
frame an announced recovery point names references only frames the client
holds.  A frame is *clean* when everything it references is.  This module
proves exactly when every frame that the gate hands over is clean: the gate
remembers the last recovery point for ever, so a freeze that comes after the
announced frame is lifted by the next P frame whatever it references.
-/

namespace GameStreamer.ReferenceChain

open SerialNumber ClientRun

/-- The newest delivered frame, if it was clean when it was delivered and no
decode error was reported since. -/
def cleanTip : History → Option ℕ
  | [] => none
  | .delivered id kind :: older =>
      if kind = .idr ∨ .announced (wire id) ∈ older ∨
          (cleanTip older).map (· + 1) = some id then some id
      else none
  | .rejected _ :: _ => none
  | .announced _ :: older => cleanTip older
  | .asked _ :: older => cleanTip older

/-- A frame delivered on top of `older` references only what the decoder
has. -/
def Clean (older : History) (id : ℕ) (kind : FrameKind) : Prop :=
  kind = .idr ∨ .announced (wire id) ∈ older ∨
    (cleanTip older).map (· + 1) = some id

instance (older : History) (id : ℕ) (kind : FrameKind) :
    Decidable (Clean older id kind) :=
  inferInstanceAs (Decidable (_ ∨ _ ∨ _))

def AllClean : History → Prop
  | [] => True
  | .delivered id kind :: older => Clean older id kind ∧ AllClean older
  | _ :: older => AllClean older

instance decidableAllClean : (history : History) →
    Decidable (AllClean history)
  | [] => inferInstanceAs (Decidable True)
  | .delivered _ _ :: older =>
      have := decidableAllClean older
      inferInstanceAs (Decidable (_ ∧ _))
  | .rejected _ :: older => decidableAllClean older
  | .announced _ :: older => decidableAllClean older
  | .asked _ :: older => decidableAllClean older

/-- Frame `id` was delivered and no decode error was reported since. -/
def Intact (history : History) (id : ℕ) : Prop :=
  ∃ newer kind older, history = newer ++ .delivered id kind :: older ∧
    ∀ rejected, .rejected rejected ∉ newer

/-- Between the frame `broken` and the frame `id` the decoder was
resynchronised, by an IDR before `id` or by the named frame of a recovery
point. -/
def Resynced (history : History) (broken id : ℕ) : Prop :=
  ∃ point newer kind older, broken < point ∧ point ≤ id ∧
    history = newer ++ .delivered point kind :: older ∧
    ((kind = .idr ∧ point < id) ∨ .announced (wire point) ∈ older)

/-- No P frame is delivered after a missing or rejected frame without a
resynchronisation in between. -/
def NoSmear (history : History) : Prop :=
  ∀ newer id kind older, history = newer ++ .delivered id kind :: older →
    kind ≠ .idr → ∀ broken < id, ¬ Intact older broken →
      Resynced (.delivered id kind :: older) broken id

/-- Every delivered frame is clean, and nothing smears. -/
def ChainSafe (history : History) : Prop :=
  AllClean history ∧ NoSmear history

theorem Intact.cons {history : History} {id : ℕ} (hintact : Intact history id)
    {entry : Entry} (hentry : ∀ rejected, entry ≠ .rejected rejected) :
    Intact (entry :: history) id := by
  obtain ⟨newer, kind, older, rfl, hquiet⟩ := hintact
  refine ⟨entry :: newer, kind, older, rfl, fun rejected hmem => ?_⟩
  rcases List.mem_cons.mp hmem with heq | hmem
  · exact hentry rejected heq.symm
  · exact hquiet rejected hmem

theorem Resynced.cons {history : History} {broken id later : ℕ}
    (hresynced : Resynced history broken id) (hle : id ≤ later)
    (entry : Entry) : Resynced (entry :: history) broken later := by
  obtain ⟨point, newer, kind, older, hlt, hpoint, rfl, hwhy⟩ := hresynced
  refine ⟨point, entry :: newer, kind, older, hlt, hpoint.trans hle, rfl, ?_⟩
  rcases hwhy with ⟨hidr, hbefore⟩ | hannounced
  · exact Or.inl ⟨hidr, hbefore.trans_le hle⟩
  · exact Or.inr hannounced

/-- Walking down a clean chain from its tip, one meets either the frame
itself, intact, or a resynchronisation above it. -/
theorem intact_or_resynced {history : History} {tip : ℕ}
    (htip : cleanTip history = some tip) {id : ℕ} (hle : id ≤ tip) :
    Intact history id ∨ Resynced history id (tip + 1) := by
  induction history generalizing tip with
  | nil => simp [cleanTip] at htip
  | cons entry older ih =>
      cases entry with
      | rejected _ => simp [cleanTip] at htip
      | announced firstSafe =>
          rcases ih (by simpa [cleanTip] using htip) hle with h | h
          · exact Or.inl (h.cons (by simp))
          · exact Or.inr (h.cons le_rfl _)
      | asked message =>
          rcases ih (by simpa [cleanTip] using htip) hle with h | h
          · exact Or.inl (h.cons (by simp))
          · exact Or.inr (h.cons le_rfl _)
      | delivered newest kind =>
          simp only [cleanTip] at htip
          split at htip
          · rename_i hclean
            obtain rfl : newest = tip := by simpa using htip
            rcases Nat.eq_or_lt_of_le hle with rfl | hlt
            · exact Or.inl ⟨[], kind, older, rfl, by simp⟩
            · rcases hclean with hidr | hannounced | hprev
              · exact Or.inr ⟨newest, [], kind, older, hlt, by omega, rfl,
                  Or.inl ⟨hidr, by omega⟩⟩
              · exact Or.inr ⟨newest, [], kind, older, hlt, by omega, rfl,
                  Or.inr hannounced⟩
              · obtain ⟨previous, hprevious, rfl⟩ :=
                  Option.map_eq_some_iff.mp hprev
                rcases ih hprevious (by omega) with h | h
                · exact Or.inl (h.cons (by simp))
                · exact Or.inr (h.cons (by omega) _)
          · simp at htip

/-- Cleanliness of every delivered frame already rules out smearing. -/
theorem noSmear_of_allClean {history : History} (hclean : AllClean history) :
    NoSmear history := by
  rintro newer id kind older rfl hkind broken hlt hbroken
  have hthis : Clean older id kind := by
    induction newer with
    | nil => exact hclean.1
    | cons entry newer ih =>
        apply ih
        cases entry with
        | delivered _ _ => exact hclean.2
        | rejected _ => exact hclean
        | announced _ => exact hclean
        | asked _ => exact hclean
  rcases hthis with hidr | hannounced | hprev
  · exact absurd hidr hkind
  · exact ⟨id, [], kind, older, hlt, le_rfl, rfl, Or.inr hannounced⟩
  · obtain ⟨previous, hprevious, rfl⟩ := Option.map_eq_some_iff.mp hprev
    rcases intact_or_resynced hprevious (by omega : broken ≤ previous) with
      h | h
    · exact absurd h hbroken
    · exact h.cons le_rfl _

theorem chainSafe_iff_allClean {history : History} :
    ChainSafe history ↔ AllClean history :=
  ⟨And.left, fun hclean => ⟨hclean, noSmear_of_allClean hclean⟩⟩

/-! ## Histories of one step -/

@[simp]
theorem cleanTip_recordAsked (sent : List C2A) (history : History) :
    cleanTip (recordAsked sent history) = cleanTip history := by
  induction sent using List.reverseRecOn with
  | nil => rfl
  | append_singleton front message ih =>
      simpa [recordAsked, cleanTip] using ih

@[simp]
theorem allClean_recordAsked (sent : List C2A) (history : History) :
    AllClean (recordAsked sent history) ↔ AllClean history := by
  induction sent using List.reverseRecOn with
  | nil => rfl
  | append_singleton front message ih =>
      simpa [recordAsked, AllClean] using ih

@[simp]
theorem announced_mem_recordAsked (sent : List C2A) (history : History)
    (firstSafe : UInt32) :
    Entry.announced firstSafe ∈ recordAsked sent history ↔
      Entry.announced firstSafe ∈ history := by
  simp [recordAsked]

/-! ## The gate -/

/-- What links the gate's flags to the clean chain. -/
structure Tracks (state : State) : Prop where
  flagged : state.client.decodeError = true →
    cleanTip state.history = none
  thawed : state.client.awaitingIdr = false →
    ∃ last, state.newest = some last ∧
      state.client.lastFrameId = some (wire last) ∧
      (state.client.decodeError = false →
        cleanTip state.history = some last)
  frozen : state.client.awaitingIdr = true →
    ∀ tip, cleanTip state.history = some tip →
      ∃ last, state.newest = some last ∧ tip < last

/-- The stale branch is not taken: when a P frame meets a frozen gate whose
recovery point is at or before it, and the gate gets as far as looking at the
recovery point, then the frame is itself one that was announced. -/
def NoStaleThaw (state : State) : Event → Prop
  | .frame released _ env =>
      released.kind ≠ .idr →
      state.client.frozenFor released.arrived.frame = true →
      (state.client.awaitingIdr = true ∨
        state.client.requestFails env.breakRequest = false) →
      state.client.recoveryCovers (wire released.id) = true →
      .announced (wire released.id) ∈ state.history
  | _ => True

instance (state : State) : (event : Event) →
    Decidable (NoStaleThaw state event)
  | .frame _ _ _ => inferInstanceAs (Decidable (_ → _ → _ → _ → _))
  | .recoveryPoint _ => inferInstanceAs (Decidable True)
  | .embedderRejects _ => inferInstanceAs (Decidable True)
  | .decodeFailed _ => inferInstanceAs (Decidable True)

theorem tracks_start (control : ControlPath) (clockSync : ClockSync) :
    Tracks (start control clockSync) where
  flagged := by simp [start, Client.connected]
  thawed := by simp [start, Client.connected]
  frozen := by simp [start, cleanTip]

/-- A P frame that a frozen gate meets is not the direct successor of a clean
tip. -/
theorem cleanTip_ne_of_frozen {state : State} (htracks : Tracks state)
    {released : Released}
    (horder : ∀ last ∈ state.newest,
      last < released.id ∧ released.id - last ≤ halfRange.toNat)
    (hfrozen : state.client.frozenFor released.arrived.frame = true) :
    (cleanTip state.history).map (· + 1) ≠ some released.id := by
  intro hnext
  obtain ⟨tip, htip, hsucc⟩ := Option.map_eq_some_iff.mp hnext
  have hflag : state.client.decodeError = false := by
    cases hflag : state.client.decodeError with
    | false => rfl
    | true => rw [htracks.flagged hflag] at htip; cases htip
  cases hawaiting : state.client.awaitingIdr with
  | true =>
      obtain ⟨last, hlast, hlt⟩ := htracks.frozen hawaiting tip htip
      have := (horder last hlast).1
      omega
  | false =>
      obtain ⟨last, hlast, hid, hclean⟩ := htracks.thawed hawaiting
      rw [hclean hflag] at htip
      obtain rfl : last = tip := by simpa using htip
      have hgap := gapBefore_wire hid (horder last hlast).1
        (horder last hlast).2
      have hbreak : state.client.gapBefore (wire released.id) = true := by
        simpa [Client.frozenFor, hawaiting, hflag, Released.arrived]
          using hfrozen
      rw [hgap] at hbreak
      simp [hsucc] at hbreak

/-- An open gate delivers only the direct successor of a clean tip. -/
theorem cleanTip_of_open {state : State} (htracks : Tracks state)
    {released : Released}
    (horder : ∀ last ∈ state.newest,
      last < released.id ∧ released.id - last ≤ halfRange.toNat)
    (hopen : state.client.frozenFor released.arrived.frame = false) :
    (cleanTip state.history).map (· + 1) = some released.id := by
  simp only [Client.frozenFor, Bool.or_eq_false_iff] at hopen
  obtain ⟨⟨hawaiting, hflag⟩, hgap⟩ := hopen
  obtain ⟨last, hlast, hid, hclean⟩ := htracks.thawed hawaiting
  rw [show released.arrived.frame.frameId = wire released.id from rfl,
    gapBefore_wire hid (horder last hlast).1 (horder last hlast).2] at hgap
  have hnext : released.id = last + 1 := by simpa using hgap
  rw [hclean hflag, hnext]
  rfl

theorem tracks_step (state : State) (event : Event)
    (htracks : AllClean state.history → Tracks state)
    (horder : InOrder state event) :
    AllClean (step state event).history → Tracks (step state event) := by
  intro hafter
  cases event with
  | recoveryPoint firstSafe =>
      have ht := htracks hafter
      exact ⟨ht.flagged, ht.thawed, ht.frozen⟩
  | embedderRejects id =>
      have ht := htracks hafter
      exact
        { flagged := fun _ => rfl
          thawed := fun hawaiting => by
            obtain ⟨last, hlast, hid, -⟩ := ht.thawed hawaiting
            exact ⟨last, hlast, hid, fun h => by simp [step] at h⟩
          frozen := fun _ tip htip => by simp [step, cleanTip] at htip }
  | decodeFailed env =>
      simp only [step] at hafter ⊢
      cases hlast : lastDelivered state.history with
      | none =>
          simp only [hlast] at hafter
          exact htracks hafter
      | some id =>
          obtain ⟨time, htime⟩ := Client.requestKeyframeThrottled_client
            { state.client with awaitingIdr := true } env
          exact
            { flagged := fun _ => by simp [cleanTip]
              thawed := fun h => by
                simp [Client.decodeFailed, Client.freeze, htime] at h
              frozen := fun _ tip htip => by simp [cleanTip] at htip }
  | frame released backlog env =>
      obtain ⟨hhistory, hover⟩ | ⟨hhistory, hheld⟩ :=
        step_frame_cases state released backlog env
      · rw [hhistory] at hafter
        have htip : cleanTip (step state
            (.frame released backlog env)).history = some released.id := by
          rw [hhistory]
          exact if_pos hafter.1
        exact
          { flagged := fun h => by rw [hover.decodeError] at h; cases h
            thawed := fun _ => ⟨released.id, rfl, hover.lastFrameId,
              fun _ => htip⟩
            frozen := fun h => by rw [hover.awaitingIdr] at h; cases h }
      · rw [hhistory, allClean_recordAsked] at hafter
        have ht := htracks hafter
        refine
          { flagged := fun h => by rw [hheld.decodeError] at h; cases h
            thawed := fun h => by rw [hheld.awaitingIdr] at h; cases h
            frozen := fun _ tip htip => ⟨released.id, rfl, ?_⟩ }
        rw [hhistory, cleanTip_recordAsked] at htip
        -- the tip entered the gate before this frame did
        cases hawaiting : state.client.awaitingIdr with
        | true =>
            obtain ⟨last, hlast, hlt⟩ := ht.frozen hawaiting tip htip
            exact hlt.trans (horder last hlast).1
        | false =>
            obtain ⟨last, hlast, -, hcleanTip⟩ := ht.thawed hawaiting
            cases hflag : state.client.decodeError with
            | true => rw [ht.flagged hflag] at htip; cases htip
            | false =>
                rw [hcleanTip hflag] at htip
                obtain rfl : last = tip := by simpa using htip
                exact (horder last hlast).1

theorem allClean_of_step (state : State) (event : Event)
    (hafter : AllClean (step state event).history) :
    AllClean state.history := by
  cases event with
  | recoveryPoint firstSafe => exact hafter
  | embedderRejects id => exact hafter
  | decodeFailed env =>
      simp only [step] at hafter
      split at hafter
      · exact hafter
      · simpa [AllClean] using hafter
  | frame released backlog env =>
      obtain ⟨hhistory, -⟩ | ⟨hhistory, -⟩ :=
        step_frame_cases state released backlog env
      · rw [hhistory] at hafter
        exact (allClean_recordAsked _ _).mp hafter.2
      · rw [hhistory] at hafter
        exact (allClean_recordAsked _ _).mp hafter

/-- From a clean state, one step stays clean exactly when it does not take
the stale branch. -/
theorem allClean_step_iff (state : State) (event : Event)
    (htracks : Tracks state) (hclean : AllClean state.history)
    (horder : InOrder state event) :
    AllClean (step state event).history ↔ NoStaleThaw state event := by
  cases event with
  | recoveryPoint firstSafe => exact iff_of_true hclean trivial
  | embedderRejects id => exact iff_of_true hclean trivial
  | decodeFailed env =>
      refine iff_of_true ?_ trivial
      simp only [step]
      split
      · exact hclean
      · simpa [AllClean] using hclean
  | frame released backlog env =>
      obtain ⟨hhistory, hover⟩ | ⟨hhistory, hheld⟩ :=
        step_frame_cases state released backlog env
      · rw [hhistory]
        simp only [AllClean, allClean_recordAsked, hclean, and_true, Clean,
          announced_mem_recordAsked, cleanTip_recordAsked]
        constructor
        · rintro (hidr | hannounced | hnext) hkind hfrozen - -
          · exact absurd hidr hkind
          · exact hannounced
          · exact absurd hnext (cleanTip_ne_of_frozen htracks horder hfrozen)
        · intro hcond
          by_cases hkind : released.kind = .idr
          · exact Or.inl hkind
          cases hfrozen : state.client.frozenFor released.arrived.frame with
          | false =>
              exact Or.inr (Or.inr (cleanTip_of_open htracks horder hfrozen))
          | true =>
              rcases hover.admitted with hidr | hopen | ⟨hcovers, hreach⟩
              · exact absurd hidr hkind
              · rw [hopen] at hfrozen; cases hfrozen
              · exact Or.inr (Or.inl (hcond hkind hfrozen hreach hcovers))
      · rw [hhistory, allClean_recordAsked]
        refine iff_of_true hclean ?_
        intro hkind _ hreach hcovers
        rcases hheld.refused with ⟨-, hno⟩ | ⟨hawaiting, hfails⟩
        · rw [show released.arrived.frame.frameId = wire released.id from rfl]
            at hno
          rw [hno] at hcovers; cases hcovers
        · rcases hreach with h | h
          · rw [hawaiting] at h; cases h
          · rw [hfails] at h; cases h

/-! ## Whole runs -/

/-- A run delivers only clean frames, and nothing that smears, exactly when
none of its steps takes the stale branch: whenever a P frame thaws the gate on
a recovery point, that very frame was announced. -/
theorem chainSafe_iff_noStaleThaw (control : ControlPath)
    (clockSync : ClockSync) (events : List Event)
    (horder : EventRun.Along step InOrder (start control clockSync) events) :
    ChainSafe (events.foldl step (start control clockSync)).history ↔
      EventRun.Along step NoStaleThaw (start control clockSync) events := by
  rw [chainSafe_iff_allClean]
  refine EventRun.good_iff_along
    (fun state => AllClean state.history → Tracks state)
    (fun state => AllClean state.history) ?_ ?_ ?_ ?_ ?_ horder
  · exact fun state event htracks hstep => tracks_step state event htracks hstep
  · exact fun state event _ => allClean_of_step state event
  · exact fun state event htracks hclean hstep =>
      allClean_step_iff state event (htracks hclean) hclean hstep
  · exact fun _ => tracks_start control clockSync
  · trivial

/-- Frame 1 is lost, the agent announces 4 as safe, and the chain heals. -/
def healedRun : List Event :=
  [.plainFrame 0 .idr 1000000, .plainFrame 2 .p 1032000, .recoveryPoint 4,
    .plainFrame 3 .p 1048000, .plainFrame 4 .p 1064000]

theorem chainSafe_healedRun :
    ChainSafe
      (healedRun.foldl step (start .writer ⟨some (4000, 0)⟩)).history :=
  (chainSafe_iff_noStaleThaw .writer ⟨some (4000, 0)⟩ healedRun
    (by decide)).mpr (by decide)

/-- Then frame 5 is lost too, and the recovery point of the first loss still
thaws the gate for frame 6. -/
def secondLossRun : List Event :=
  healedRun ++ [.plainFrame 6 .p 1096000]

theorem not_chainSafe_secondLossRun :
    EventRun.Along step InOrder (start .writer ⟨some (4000, 0)⟩)
        secondLossRun ∧
      ¬ ChainSafe (secondLossRun.foldl step
        (start .writer ⟨some (4000, 0)⟩)).history :=
  ⟨by decide, fun hsafe => absurd hsafe.1 (by decide)⟩

end GameStreamer.ReferenceChain
