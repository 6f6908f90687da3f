import GameStreamer.Session.SenderTask

/-!
# Dropped backlogs

When the sender task falls behind, it drops every chunk that waits and asks
for a keyframe.  Frames that the encoder holds at that moment still follow,
and the decoder cannot use them.  Here the way of every chunk from the encoder
to its fate is followed, and the gap that a drop leaves is shown to close with
the first frame that is submitted after it.
-/

namespace GameStreamer

/-- The part of the sender task and the encoder through which chunks pass: the
frames inside the encoder, the queue, the chunk at work, and the fates so
far. -/
structure Backlog where
  inside : List SubmittedFrame
  requested : List Bool
  lost : List ℕ
  produced : ℕ
  chunks : List EncodedChunk
  /-- The chunk at work. -/
  current : Option EncodedChunk
  fates : List (EncodedChunk × ChunkFate)
  forceIdr : Bool

def SenderTask.backlog {Bitrate : Type*} (task : SenderTask Bitrate) :
    Backlog where
  inside := task.inside
  requested := task.requested
  lost := task.lost
  produced := task.produced
  chunks := task.chunks
  current := task.phase.chunk
  fates := task.fates
  forceIdr := task.forceIdr

/-- The ways in which one event moves the chunks, where `obeys` says that the
encoder does as it is asked. -/
inductive BacklogMove (obeys : Prop) (backlog : Backlog) : Backlog → Prop
  | submit : BacklogMove obeys backlog
      { backlog with
        forceIdr := false
        inside := backlog.inside ++
          [⟨backlog.requested.length, backlog.forceIdr⟩]
        requested := backlog.requested ++ [backlog.forceIdr] }
  | encoded (frame : SubmittedFrame) (rest : List SubmittedFrame)
      (hinside : backlog.inside = frame :: rest) (chunk : EncodedChunk)
      (hframeId : chunk.frameId = backlog.produced)
      (hserial : chunk.serial = frame.serial)
      (hkind : obeys → frame.idr = true → chunk.kind = .idr) :
      BacklogMove obeys backlog
        { backlog with
          inside := rest
          produced := backlog.produced + 1
          chunks := backlog.chunks ++ [chunk] }
  | lose (frame : SubmittedFrame) (rest : List SubmittedFrame)
      (hinside : backlog.inside = frame :: rest) :
      BacklogMove obeys backlog
        { backlog with
          inside := rest
          lost := backlog.lost ++ [frame.serial] }
  | requestKeyframe : BacklogMove obeys backlog { backlog with forceIdr := true }
  | stay : BacklogMove obeys backlog backlog
  | take (chunk : EncodedChunk) (rest : List EncodedChunk)
      (hchunks : backlog.chunks = chunk :: rest)
      (hcurrent : backlog.current = none) :
      BacklogMove obeys backlog
        { backlog with chunks := rest, current := some chunk }
  | fail (chunk : EncodedChunk) (rest : List EncodedChunk)
      (hchunks : backlog.chunks = chunk :: rest)
      (hcurrent : backlog.current = none) :
      BacklogMove obeys backlog
        { backlog with
          chunks := rest
          fates := backlog.fates ++ [(chunk, .failed)] }
  | finish (chunk : EncodedChunk) (hcurrent : backlog.current = some chunk) :
      BacklogMove obeys backlog
        { backlog with
          current := none
          fates := backlog.fates ++ [(chunk, .sent)] }
  | drop (chunk : EncodedChunk) (rest : List EncodedChunk)
      (hchunks : backlog.chunks = chunk :: rest)
      (hcap : SenderTask.sendBacklogCap < rest.length)
      (hcurrent : backlog.current = none) :
      BacklogMove obeys backlog
        { backlog with
          chunks := []
          fates := backlog.fates ++ (chunk :: rest).map fun chunk =>
            (chunk, .dropped backlog.requested.length)
          forceIdr := true }

namespace SenderTask

variable {Bitrate : Type*} {task : SenderTask Bitrate} {obeys : Prop}

theorem backlog_resendOne (seq : UInt32) :
    (task.resendOne seq).backlog = task.backlog := by
  unfold resendOne
  split <;> rfl

theorem backlog_foldl_resendOne (seqs : List UInt32)
    (task : SenderTask Bitrate) :
    (seqs.foldl resendOne task).backlog = task.backlog := by
  induction seqs generalizing task with
  | nil => rfl
  | cons seq seqs ih => exact (ih _).trans (backlog_resendOne seq)

theorem move_takeChunk (env : SenderEnv) {chunk : EncodedChunk}
    {rest : List EncodedChunk} (hchunks : task.chunks = chunk :: rest)
    (hphase : task.phase = .waiting) :
    BacklogMove obeys task.backlog (task.takeChunk env chunk rest).backlog := by
  have hcurrent : task.backlog.current = none :=
    congrArg SenderPhase.chunk hphase
  unfold takeChunk
  split
  · next hcap => exact .drop chunk rest hchunks hcap hcurrent
  · split
    · exact .take chunk rest hchunks hcurrent
    · exact .fail chunk rest hchunks hcurrent
    · exact .take chunk rest hchunks hcurrent

/-- Only the chunk at work matters of a phase. -/
theorem backlog_phase (task : SenderTask Bitrate) {phase : SenderPhase}
    (hchunk : phase.chunk = task.phase.chunk) :
    { task with phase := phase }.backlog = task.backlog := by
  unfold backlog
  dsimp only
  rw [hchunk]

theorem move_same {after : SenderTask Bitrate}
    (hsame : after.backlog = task.backlog) :
    BacklogMove obeys task.backlog after.backlog := by
  rw [hsame]
  exact .stay

theorem move_await (budget : ProbeBudget Bitrate) (env : SenderEnv)
    (hphase : task.phase = .waiting) :
    BacklogMove obeys task.backlog (task.await budget env).backlog := by
  unfold await
  split
  · exact move_same (backlog_foldl_resendOne _ _)
  · apply move_same
    unfold startProbe backlog
    dsimp only
    rw [hphase]
    split <;> rfl
  · next hchunks => exact move_takeChunk env hchunks hphase
  · exact .stay

theorem move_send (env : SenderEnv) {chunk : EncodedChunk}
    {rest : List Bytes} (hphase : task.phase = .sending chunk rest) :
    BacklogMove obeys task.backlog (task.send env chunk rest).backlog := by
  have hcurrent : task.backlog.current = some chunk :=
    congrArg SenderPhase.chunk hphase
  cases rest with
  | nil => exact .finish chunk hcurrent
  | cons datagram rest =>
      apply move_same
      unfold SenderTask.send
      dsimp only
      cases hstamp : task.stamp env.nowUs none datagram with
      | none => exact backlog_phase task hcurrent.symm
      | some result =>
          obtain ⟨after, stamped⟩ := result
          obtain ⟨-, rfl⟩ := stamp_eq_some hstamp
          exact backlog_phase _ hcurrent.symm

theorem move_release (env : SenderEnv) {chunk : EncodedChunk}
    {datagram : Bytes} {rest : List Bytes}
    (hphase : task.phase = .pacing chunk datagram rest) :
    BacklogMove obeys task.backlog
      (task.release env chunk datagram rest).backlog := by
  apply move_same
  unfold SenderTask.release retain backlog
  dsimp only
  rw [hphase]
  split <;> rfl

theorem move_sendProbe (env : SenderEnv) {cluster size total sent : ℕ}
    (hphase : task.phase = .probing cluster size total sent) :
    BacklogMove obeys task.backlog
      (task.sendProbe env cluster size total sent).backlog := by
  have hcurrent : task.backlog.current = none :=
    congrArg SenderPhase.chunk hphase
  apply move_same
  unfold SenderTask.sendProbe
  split
  · cases hstamp : task.stamp env.nowUs (some cluster)
      (encodePadding size) with
    | none => exact backlog_phase task hcurrent.symm
    | some result =>
        obtain ⟨after, stamped⟩ := result
        obtain ⟨-, rfl⟩ := stamp_eq_some hstamp
        refine (backlog_phase _ ?_).trans (backlog_phase task rfl)
        rw [show task.phase.chunk = none from hcurrent]
        split <;> rfl
  · exact backlog_phase task hcurrent.symm

/-- Every event makes one of the moves. -/
theorem move_step (budget : ProbeBudget Bitrate) (task : SenderTask Bitrate)
    (event : SenderEvent Bitrate) :
    BacklogMove (task.Obeys event) task.backlog
      (task.step budget event).backlog := by
  cases event with
  | submit => exact .submit
  | encoded kind data captureTsUs =>
      unfold SenderTask.step produce
      dsimp only
      split
      · exact .stay
      · next frame rest hinside =>
          apply BacklogMove.encoded frame rest hinside _ rfl rfl
          intro hobeys hidr
          exact hobeys frame (by rw [hinside]; rfl) hidr
  | lose =>
      unfold SenderTask.step
      dsimp only
      split
      · exact .stay
      · next frame rest hinside => exact .lose frame rest hinside
  | requestKeyframe => exact .requestKeyframe
  | nack seqs => exact .stay
  | probe job => exact .stay
  | takeUpto maxSeq => exact .stay
  | turn env =>
      unfold SenderTask.step SenderTask.turn
      dsimp only
      split
      · next hphase => exact move_await budget env hphase
      · next hphase => exact move_send env hphase
      · next hphase => exact move_release env hphase
      · next hphase => exact move_sendProbe env hphase
      · exact .stay

end SenderTask

namespace Backlog

/-- Every chunk the encoder has produced, oldest first: those that are done
with, the one at work and those that wait. -/
def lineup (backlog : Backlog) : List EncodedChunk :=
  backlog.fates.map Prod.fst ++ backlog.current.toList ++ backlog.chunks

/-- The submissions that are under way or done with, oldest first. -/
def order (backlog : Backlog) : List ℕ :=
  backlog.lineup.map EncodedChunk.serial ++
    backlog.inside.map SubmittedFrame.serial

/-- What every move keeps. -/
structure Inv (backlog : Backlog) : Prop where
  frameIds : backlog.lineup.map EncodedChunk.frameId =
    List.range backlog.produced
  inside : ∀ frame ∈ backlog.inside,
    backlog.requested[frame.serial]? = some frame.idr
  increasing : backlog.order.Pairwise (· < ·)
  bounded : ∀ serial ∈ backlog.order, serial < backlog.requested.length
  covered : ∀ serial < backlog.requested.length,
    serial ∈ backlog.order ∨ serial ∈ backlog.lost
  older : ∀ chunk submitted, (chunk, .dropped submitted) ∈ backlog.fates →
    chunk.serial < submitted
  forced : ∀ chunk submitted, (chunk, .dropped submitted) ∈ backlog.fates →
    submitted = backlog.requested.length ∧ backlog.forceIdr = true ∨
      backlog.requested[submitted]? = some true

/-- Every chunk that was asked to be a keyframe is one. -/
def Keyed (backlog : Backlog) : Prop :=
  ∀ chunk ∈ backlog.lineup,
    backlog.requested[chunk.serial]? = some true → chunk.kind = .idr

/-- A move of the sender task alone leaves the line-up as it is. -/
structure SameLineup (backlog after : Backlog) : Prop where
  inside : after.inside = backlog.inside
  requested : after.requested = backlog.requested
  lost : after.lost = backlog.lost
  produced : after.produced = backlog.produced
  lineup : after.lineup = backlog.lineup
  forceIdr : backlog.forceIdr = true → after.forceIdr = true
  fates : ∀ chunk submitted, (chunk, .dropped submitted) ∈ after.fates →
    (chunk, .dropped submitted) ∈ backlog.fates ∨
      chunk ∈ backlog.lineup ∧ submitted = backlog.requested.length ∧
        after.forceIdr = true

theorem Inv.sameLineup {backlog after : Backlog} (hinv : backlog.Inv)
    (hsame : SameLineup backlog after) : after.Inv := by
  have horder : after.order = backlog.order := by
    rw [order, order, hsame.lineup, hsame.inside]
  constructor
  · rw [hsame.lineup, hsame.produced]
    exact hinv.frameIds
  · rw [hsame.inside, hsame.requested]
    exact hinv.inside
  · rw [horder]
    exact hinv.increasing
  · rw [horder, hsame.requested]
    exact hinv.bounded
  · rw [horder, hsame.requested, hsame.lost]
    exact hinv.covered
  · intro chunk submitted hmem
    rcases hsame.fates chunk submitted hmem with hold | ⟨hlineup, rfl, -⟩
    · exact hinv.older chunk submitted hold
    · exact hinv.bounded _ (List.mem_append_left _
        (List.mem_map_of_mem hlineup))
  · intro chunk submitted hmem
    rw [hsame.requested]
    rcases hsame.fates chunk submitted hmem with hold | ⟨-, rfl, hforced⟩
    · rcases hinv.forced chunk submitted hold with ⟨heq, hforced⟩ | hidr
      · exact Or.inl ⟨heq, hsame.forceIdr hforced⟩
      · exact Or.inr hidr
    · exact Or.inl ⟨rfl, hforced⟩

theorem Keyed.sameLineup {backlog after : Backlog} (hkeyed : backlog.Keyed)
    (hsame : SameLineup backlog after) : after.Keyed := by
  rw [Keyed, hsame.lineup, hsame.requested]
  exact hkeyed

variable {backlog : Backlog}

theorem sameLineup_take {chunk : EncodedChunk} {rest : List EncodedChunk}
    (hchunks : backlog.chunks = chunk :: rest)
    (hcurrent : backlog.current = none) :
    SameLineup backlog
      { backlog with chunks := rest, current := some chunk } where
  inside := rfl
  requested := rfl
  lost := rfl
  produced := rfl
  lineup := by
    simp only [lineup, hchunks, hcurrent, Option.toList_some,
      Option.toList_none, List.append_nil, List.append_assoc,
      List.singleton_append]
  forceIdr := id
  fates := fun _ _ hmem => Or.inl hmem

/-- A chunk is done with, other than by a drop. -/
theorem mem_concat_fate {fates : List (EncodedChunk × ChunkFate)}
    {done chunk : EncodedChunk} {fate : ChunkFate} {submitted : ℕ}
    (hfate : ∀ submitted, fate ≠ .dropped submitted)
    (hmem : (chunk, .dropped submitted) ∈ fates ++ [(done, fate)]) :
    (chunk, .dropped submitted) ∈ fates := by
  rcases List.mem_append.mp hmem with hold | hnew
  · exact hold
  · exact absurd (congrArg Prod.snd (List.mem_singleton.mp hnew)).symm
      (hfate submitted)

theorem sameLineup_fail {chunk : EncodedChunk} {rest : List EncodedChunk}
    (hchunks : backlog.chunks = chunk :: rest)
    (hcurrent : backlog.current = none) :
    SameLineup backlog
      { backlog with
        chunks := rest
        fates := backlog.fates ++ [(chunk, .failed)] } where
  inside := rfl
  requested := rfl
  lost := rfl
  produced := rfl
  lineup := by
    simp only [lineup, hchunks, hcurrent, Option.toList_none, List.map_append,
      List.map_cons, List.map_nil, List.append_nil, List.append_assoc,
      List.singleton_append]
  forceIdr := id
  fates := fun _ _ hmem =>
    Or.inl (mem_concat_fate (fun _ => ChunkFate.noConfusion) hmem)

theorem sameLineup_finish {chunk : EncodedChunk}
    (hcurrent : backlog.current = some chunk) :
    SameLineup backlog
      { backlog with
        current := none
        fates := backlog.fates ++ [(chunk, .sent)] } where
  inside := rfl
  requested := rfl
  lost := rfl
  produced := rfl
  lineup := by
    simp only [lineup, hcurrent, Option.toList_some, Option.toList_none,
      List.map_append, List.map_cons, List.map_nil, List.append_nil]
  forceIdr := id
  fates := fun _ _ hmem =>
    Or.inl (mem_concat_fate (fun _ => ChunkFate.noConfusion) hmem)

theorem sameLineup_drop {chunk : EncodedChunk} {rest : List EncodedChunk}
    (hchunks : backlog.chunks = chunk :: rest)
    (hcurrent : backlog.current = none) :
    SameLineup backlog
      { backlog with
        chunks := []
        fates := backlog.fates ++ (chunk :: rest).map fun chunk =>
          (chunk, .dropped backlog.requested.length)
        forceIdr := true } where
  inside := rfl
  requested := rfl
  lost := rfl
  produced := rfl
  lineup := by
    have hfst : ((chunk :: rest).map fun chunk =>
        (chunk, ChunkFate.dropped backlog.requested.length)).map Prod.fst =
          chunk :: rest := by
      rw [List.map_map]
      exact List.map_id _
    simp only [lineup, hchunks, hcurrent, Option.toList_none,
      List.map_append, hfst, List.append_nil]
  forceIdr := fun _ => rfl
  fates := by
    intro done submitted hmem
    rcases List.mem_append.mp hmem with hold | hnew
    · exact Or.inl hold
    · obtain ⟨source, hsource, hpair⟩ := List.mem_map.mp hnew
      obtain ⟨rfl, hsubmitted⟩ := Prod.mk.inj hpair
      refine Or.inr ⟨?_, (ChunkFate.dropped.inj hsubmitted).symm, rfl⟩
      rw [lineup, hchunks]
      exact List.mem_append_right _ hsource

theorem Inv.submit (hinv : backlog.Inv) :
    Inv { backlog with
      forceIdr := false
      inside := backlog.inside ++
        [⟨backlog.requested.length, backlog.forceIdr⟩]
      requested := backlog.requested ++ [backlog.forceIdr] } := by
  have horder : order { backlog with
      forceIdr := false
      inside := backlog.inside ++
        [⟨backlog.requested.length, backlog.forceIdr⟩]
      requested := backlog.requested ++ [backlog.forceIdr] } =
        backlog.order ++ [backlog.requested.length] := by
    simp only [order, List.map_append, List.map_cons, List.map_nil,
      List.append_assoc]
    rfl
  have hget : ∀ {serial}, serial < backlog.requested.length →
      (backlog.requested ++ [backlog.forceIdr])[serial]? =
        backlog.requested[serial]? :=
    fun hlt => List.getElem?_append_left hlt
  constructor
  · exact hinv.frameIds
  · intro frame hframe
    rcases List.mem_append.mp hframe with hold | hnew
    · rw [hget (hinv.bounded _ (List.mem_append_right _
        (List.mem_map_of_mem hold)))]
      exact hinv.inside frame hold
    · rw [List.mem_singleton.mp hnew]
      exact List.getElem?_concat_length
  · rw [horder, List.pairwise_append]
    refine ⟨hinv.increasing, List.pairwise_singleton _ _, ?_⟩
    intro serial hserial last hlast
    rw [List.mem_singleton.mp hlast]
    exact hinv.bounded serial hserial
  · intro serial hserial
    rw [horder] at hserial
    rw [List.length_append, List.length_singleton]
    rcases List.mem_append.mp hserial with hold | hnew
    · exact Nat.lt_succ_of_lt (hinv.bounded serial hold)
    · rw [List.mem_singleton.mp hnew]
      exact Nat.lt_succ_self _
  · intro serial hserial
    rw [List.length_append, List.length_singleton] at hserial
    rw [horder]
    rcases Nat.lt_succ_iff_lt_or_eq.mp hserial with hlt | heq
    · exact (hinv.covered serial hlt).imp_left (List.mem_append_left _)
    · exact Or.inl (List.mem_append_right _ (List.mem_singleton.mpr heq))
  · exact hinv.older
  · intro chunk submitted hmem
    right
    rcases hinv.forced chunk submitted hmem with ⟨rfl, hforced⟩ | hidr
    · rw [hforced]
      exact List.getElem?_concat_length
    · rw [hget (List.getElem?_eq_some_iff.mp hidr).1]
      exact hidr

theorem Keyed.submit (hkeyed : backlog.Keyed) (hinv : backlog.Inv) :
    Keyed { backlog with
      forceIdr := false
      inside := backlog.inside ++
        [⟨backlog.requested.length, backlog.forceIdr⟩]
      requested := backlog.requested ++ [backlog.forceIdr] } := by
  intro chunk hchunk hidr
  rw [List.getElem?_append_left (hinv.bounded _ (List.mem_append_left _
    (List.mem_map_of_mem hchunk)))] at hidr
  exact hkeyed chunk hchunk hidr

/-- The frame that leaves the encoder is the next in the order, whether it
becomes a chunk or not. -/
theorem order_cons {frame : SubmittedFrame} {rest : List SubmittedFrame}
    (hinside : backlog.inside = frame :: rest) :
    backlog.order = backlog.lineup.map EncodedChunk.serial ++
      frame.serial :: rest.map SubmittedFrame.serial := by
  rw [order, hinside, List.map_cons]

theorem lineup_encoded (backlog : Backlog) (rest : List SubmittedFrame)
    (chunk : EncodedChunk) :
    lineup { backlog with
      inside := rest
      produced := backlog.produced + 1
      chunks := backlog.chunks ++ [chunk] } = backlog.lineup ++ [chunk] := by
  simp only [lineup, List.append_assoc]

theorem Inv.encoded (hinv : backlog.Inv) {frame : SubmittedFrame}
    {rest : List SubmittedFrame} (hinside : backlog.inside = frame :: rest)
    {chunk : EncodedChunk} (hframeId : chunk.frameId = backlog.produced)
    (hserial : chunk.serial = frame.serial) :
    Inv { backlog with
      inside := rest
      produced := backlog.produced + 1
      chunks := backlog.chunks ++ [chunk] } := by
  have hlineup := backlog.lineup_encoded rest chunk
  have horder : order { backlog with
      inside := rest
      produced := backlog.produced + 1
      chunks := backlog.chunks ++ [chunk] } = backlog.order := by
    rw [order, hlineup, order_cons hinside, List.map_append, List.map_cons,
      List.map_nil, hserial, List.append_assoc]
    rfl
  constructor
  · rw [hlineup, List.map_append, hinv.frameIds, List.range_succ, ← hframeId]
    rfl
  · intro other hother
    exact hinv.inside other (hinside ▸ List.mem_cons_of_mem _ hother)
  · rw [horder]
    exact hinv.increasing
  · rw [horder]
    exact hinv.bounded
  · rw [horder]
    exact hinv.covered
  · exact hinv.older
  · exact hinv.forced

theorem Keyed.encoded (hkeyed : backlog.Keyed) (hinv : backlog.Inv)
    {frame : SubmittedFrame} {rest : List SubmittedFrame}
    (hinside : backlog.inside = frame :: rest) {chunk : EncodedChunk}
    (hserial : chunk.serial = frame.serial)
    (hkind : frame.idr = true → chunk.kind = .idr) :
    Keyed { backlog with
      inside := rest
      produced := backlog.produced + 1
      chunks := backlog.chunks ++ [chunk] } := by
  intro other hother hidr
  rw [lineup_encoded] at hother
  rcases List.mem_append.mp hother with hold | hnew
  · exact hkeyed other hold hidr
  · obtain rfl := List.mem_singleton.mp hnew
    apply hkind
    rw [hserial, hinv.inside frame (hinside ▸ List.mem_cons_self)] at hidr
    exact Option.some.inj hidr

theorem Inv.lose (hinv : backlog.Inv) {frame : SubmittedFrame}
    {rest : List SubmittedFrame}
    (hinside : backlog.inside = frame :: rest) :
    Inv { backlog with
      inside := rest
      lost := backlog.lost ++ [frame.serial] } := by
  have hsublist : (order { backlog with
      inside := rest
      lost := backlog.lost ++ [frame.serial] }).Sublist backlog.order := by
    rw [order_cons hinside]
    exact List.Sublist.append (List.Sublist.refl _) (List.sublist_cons_self _ _)
  constructor
  · exact hinv.frameIds
  · intro other hother
    exact hinv.inside other (hinside ▸ List.mem_cons_of_mem _ hother)
  · exact hinv.increasing.sublist hsublist
  · exact fun serial hserial => hinv.bounded serial (hsublist.subset hserial)
  · intro serial hserial
    rcases hinv.covered serial hserial with horder | hlost
    · rw [order_cons hinside] at horder
      rcases List.mem_append.mp horder with hfront | hback
      · exact Or.inl (List.mem_append_left _ hfront)
      · rcases List.mem_cons.mp hback with rfl | hrest
        · exact Or.inr (List.mem_append_right _ List.mem_cons_self)
        · exact Or.inl (List.mem_append_right _ hrest)
    · exact Or.inr (List.mem_append_left _ hlost)
  · exact hinv.older
  · exact hinv.forced

theorem sameLineup_requestKeyframe :
    SameLineup backlog { backlog with forceIdr := true } :=
  ⟨rfl, rfl, rfl, rfl, rfl, fun _ => rfl, fun _ _ hmem => Or.inl hmem⟩

theorem Inv.move {after : Backlog} {obeys : Prop} (hinv : backlog.Inv)
    (hmove : BacklogMove obeys backlog after) : after.Inv := by
  cases hmove with
  | submit => exact hinv.submit
  | encoded frame rest hinside chunk hframeId hserial =>
      exact hinv.encoded hinside hframeId hserial
  | lose frame rest hinside => exact hinv.lose hinside
  | requestKeyframe => exact hinv.sameLineup sameLineup_requestKeyframe
  | stay => exact hinv
  | take chunk rest hchunks hcurrent =>
      exact hinv.sameLineup (sameLineup_take hchunks hcurrent)
  | fail chunk rest hchunks hcurrent =>
      exact hinv.sameLineup (sameLineup_fail hchunks hcurrent)
  | finish chunk hcurrent =>
      exact hinv.sameLineup (sameLineup_finish hcurrent)
  | drop chunk rest hchunks hcap hcurrent =>
      exact hinv.sameLineup (sameLineup_drop hchunks hcurrent)

/-- Chunks are what they were asked to be while the encoder obeys. -/
theorem Keyed.move {after : Backlog} {obeys : Prop} (hkeyed : backlog.Keyed)
    (hinv : backlog.Inv) (hmove : BacklogMove obeys backlog after)
    (hobeys : obeys) : after.Keyed := by
  cases hmove with
  | submit => exact hkeyed.submit hinv
  | encoded frame rest hinside chunk _ hserial hkind =>
      exact hkeyed.encoded hinv hinside hserial (hkind hobeys)
  | lose frame rest hinside => exact hkeyed
  | requestKeyframe => exact hkeyed.sameLineup sameLineup_requestKeyframe
  | stay => exact hkeyed
  | take chunk rest hchunks hcurrent =>
      exact hkeyed.sameLineup (sameLineup_take hchunks hcurrent)
  | fail chunk rest hchunks hcurrent =>
      exact hkeyed.sameLineup (sameLineup_fail hchunks hcurrent)
  | finish chunk hcurrent =>
      exact hkeyed.sameLineup (sameLineup_finish hcurrent)
  | drop chunk rest hchunks hcap hcurrent =>
      exact hkeyed.sameLineup (sameLineup_drop hchunks hcurrent)

/-- Between the serials of two neighbours there is none of the order. -/
theorem Inv.not_mem_between (hinv : backlog.Inv) {i : ℕ}
    {first second : EncodedChunk} (hfirst : backlog.lineup[i]? = some first)
    (hsecond : backlog.lineup[i + 1]? = some second) {serial : ℕ}
    (hlow : first.serial < serial) (hhigh : serial < second.serial) :
    serial ∉ backlog.order := by
  intro hmem
  obtain ⟨j, hj, hget⟩ := List.mem_iff_getElem.mp hmem
  have hincreasing := List.pairwise_iff_getElem.mp hinv.increasing
  have hat : ∀ {k chunk}, backlog.lineup[k]? = some chunk →
      ∃ hk : k < backlog.order.length, backlog.order[k] = chunk.serial := by
    intro k chunk hchunk
    have hserial : backlog.order[k]? = some chunk.serial := by
      have hk := (List.getElem?_eq_some_iff.mp hchunk).1
      rw [order, List.getElem?_append_left (by rwa [List.length_map]),
        List.getElem?_map, hchunk]
      rfl
    exact List.getElem?_eq_some_iff.mp hserial
  obtain ⟨hi, hfirstAt⟩ := hat hfirst
  obtain ⟨hi', hsecondAt⟩ := hat hsecond
  rcases Nat.lt_trichotomy j i with hlt | rfl | hgt
  · have := hincreasing j i hj hi hlt
    omega
  · omega
  · rcases Nat.lt_trichotomy j (i + 1) with hlt | rfl | hgt'
    · omega
    · omega
    · have := hincreasing (i + 1) j hi' hj hgt'
      omega

theorem lineup_of_fates {i : ℕ} {chunk : EncodedChunk} {fate : ChunkFate}
    (hget : backlog.fates[i]? = some (chunk, fate)) :
    backlog.lineup[i]? = some chunk := by
  have hi := (List.getElem?_eq_some_iff.mp hget).1
  rw [lineup, List.append_assoc,
    List.getElem?_append_left (by rwa [List.length_map]), List.getElem?_map,
    hget]
  rfl

theorem Inv.next_of_dropped (hinv : backlog.Inv) (hkeyed : backlog.Keyed)
    {i submitted : ℕ} {chunk next : EncodedChunk} {fate : ChunkFate}
    (hchunk : backlog.fates[i]? = some (chunk, .dropped submitted))
    (hnext : backlog.fates[i + 1]? = some (next, fate))
    (hkind : next.kind ≠ .idr) :
    next.serial < submitted ∨ submitted ∈ backlog.lost := by
  have hdropped := List.mem_of_getElem? hchunk
  have hnextLineup := lineup_of_fates hnext
  have hmem := List.mem_of_getElem? hnextLineup
  have hbound := hinv.bounded next.serial
    (List.mem_append_left _ (List.mem_map_of_mem hmem))
  rcases Nat.lt_or_ge next.serial submitted with hlt | hle
  · exact Or.inl hlt
  · right
    have hidr : backlog.requested[submitted]? = some true := by
      rcases hinv.forced chunk submitted hdropped with ⟨heq, -⟩ | hidr
      · omega
      · exact hidr
    have hne : submitted ≠ next.serial := by
      rintro rfl
      exact hkind (hkeyed next hmem hidr)
    apply (hinv.covered submitted (Nat.lt_of_le_of_lt hle hbound)).resolve_left
    exact hinv.not_mem_between (lineup_of_fates hchunk) hnextLineup
      (hinv.older chunk submitted hdropped) (Nat.lt_of_le_of_ne hle hne)

end Backlog

namespace SenderTask

variable {Bitrate : Type*}

theorem inv_start : (start : SenderTask Bitrate).backlog.Inv where
  frameIds := rfl
  inside := fun _ hmem => absurd hmem List.not_mem_nil
  increasing := List.Pairwise.nil
  bounded := fun _ hmem => absurd hmem List.not_mem_nil
  covered := fun _ hlt => absurd hlt (Nat.not_lt_zero _)
  older := fun _ _ hmem => absurd hmem List.not_mem_nil
  forced := fun _ _ hmem => absurd hmem List.not_mem_nil

theorem inv_foldl (budget : ProbeBudget Bitrate)
    (events : List (SenderEvent Bitrate)) :
    (events.foldl (SenderTask.step budget) start).backlog.Inv :=
  @EventRun.foldl_preserves _ _ (SenderTask.step budget)
    (fun task => task.backlog.Inv)
    (fun task event hinv => hinv.move (move_step budget task event))
    start events inv_start

theorem keyed_foldl (budget : ProbeBudget Bitrate)
    {events : List (SenderEvent Bitrate)}
    (hobeys : EventRun.Along (SenderTask.step budget) Obeys start events) :
    (events.foldl (SenderTask.step budget) start).backlog.Keyed := by
  have hstart : (start : SenderTask Bitrate).backlog.Inv ∧
      (start : SenderTask Bitrate).backlog.Keyed :=
    ⟨inv_start, fun _ hmem => absurd hmem List.not_mem_nil⟩
  have hboth := @EventRun.foldl_invariant _ _ (SenderTask.step budget)
    (fun task => task.backlog.Inv ∧ task.backlog.Keyed) Obeys
    (fun task event h hobeys =>
      ⟨h.1.move (move_step budget task event),
        h.2.move h.1 (move_step budget task event) hobeys⟩)
    start events hstart hobeys
  exact hboth.2

/-- Every chunk that the encoder produces has exactly one fate, or waits or is
at work, in the order of the frame ids.  The first frame submitted after a
drop is asked to be a keyframe.  Where the encoder makes keyframes of the
frames that it is asked to, a frame that comes next after a dropped one and is
no keyframe was submitted before the drop, unless the encoder lost that
keyframe. -/
theorem foldl_step_resync (budget : ProbeBudget Bitrate)
    (events : List (SenderEvent Bitrate)) :
    let task := events.foldl (SenderTask.step budget) start
    (task.fates.map Prod.fst ++ task.phase.chunk.toList ++ task.chunks).map
        EncodedChunk.frameId = List.range task.produced ∧
      (∀ chunk submitted, (chunk, .dropped submitted) ∈ task.fates →
        submitted = task.requested.length ∧ task.forceIdr = true ∨
          task.requested[submitted]? = some true) ∧
        (EventRun.Along (SenderTask.step budget) Obeys start events →
          ∀ (i : ℕ) chunk submitted next fate,
            task.fates[i]? = some (chunk, .dropped submitted) →
              task.fates[i + 1]? = some (next, fate) → next.kind ≠ .idr →
                next.serial < submitted ∨ submitted ∈ task.lost) := by
  have hinv := inv_foldl budget events
  refine ⟨hinv.frameIds, hinv.forced, ?_⟩
  intro hobeys i chunk submitted next fate hchunk hnext hkind
  exact hinv.next_of_dropped (keyed_foldl budget hobeys) hchunk hnext hkind

/-- Seven frames go in, and six chunks wait when the task looks at them, so
that they are dropped.  The seventh frame and the keyframe follow. -/
def backlogged : List (SenderEvent ℕ) :=
  let turns := List.replicate 4 (.turn ⟨1200, 0, 0, true⟩)
  List.replicate 7 .submit ++ List.replicate 6 (.encoded .p [7] 0) ++
    [.turn ⟨1200, 0, 0, true⟩, .submit] ++
    (.encoded .p [7] 0 :: turns) ++ (.encoded .idr [7] 0 :: turns)

/-- The frame after the dropped ones is no keyframe and was inside when they
were dropped, and the one after it is the keyframe. -/
theorem foldl_step_resync_backlogged :
    let task := backlogged.foldl (SenderTask.step fun _ => 0) start
    task.fates.map (fun fate => (fate.1.kind, fate.2)) =
        List.replicate 6 (.p, .dropped 7) ++ [(.p, .sent), (.idr, .sent)] ∧
      ∀ next fate, task.fates[6]? = some (next, fate) → next.kind ≠ .idr →
        next.serial < 7 ∨ 7 ∈ task.lost := by
  obtain ⟨-, -, hnext⟩ := foldl_step_resync (fun _ => 0) backlogged
  refine ⟨by decide, ?_⟩
  intro next fate hfate hkind
  have hdropped : (backlogged.foldl (SenderTask.step fun _ => 0)
      start).fates[5]? = some (⟨5, 5, .p, [7], 0⟩, .dropped 7) := by decide
  exact hnext (by decide) 5 _ _ _ _ hdropped hfate hkind

end SenderTask

end GameStreamer
