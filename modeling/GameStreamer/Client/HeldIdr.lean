import GameStreamer.Client.Accounting
import Mathlib.Data.List.TakeWhile

/-!
# IDR frames in the held queue

An IDR at the head of the held queue goes out whatever is pending, but the
drain looks at the head only.  A completed IDR goes out in the push that
completes it unless a frame that is held in front of it still waits.  Which
one it is can be read off the state before the push.
-/

namespace GameStreamer.Reassembler

/-- The shard makes an IDR complete. -/
def CompletesIdr (reassembler : Reassembler) (shard : Shard) : Prop :=
  ¬reassembler.skips shard.header.frameId ∧
    (reassembler.assembly shard).Complete ∧
    (reassembler.assembly shard).frameData.isSome ∧
    shard.header.kind = .idr

/-- The held frames that a frame with this id goes behind. -/
def ahead (reassembler : Reassembler) (frameId : UInt32) :
    List CompletedFrame :=
  reassembler.held.takeWhile fun other => ¬older frameId other.frameId

/-- Nothing is held in front of an IDR that the shard completes; or else the
queue overflows, and what is pending behind the first frame of it keeps no
other frame in front of the IDR waiting. -/
def ClearsWay (reassembler : Reassembler) (shard : Shard) : Prop :=
  reassembler.CompletesIdr shard →
    reassembler.ahead shard.header.frameId = [] ∨
      holdLimit ≤ reassembler.held.length ∧
        ∀ first ∈ (reassembler.ahead shard.header.frameId).head?,
          ∀ frame ∈ reassembler.ahead shard.header.frameId,
            ∀ id ∈ reassembler.pending.keys, id ≠ shard.header.frameId →
              older id frame.frameId → older id first.frameId

def NoIdrHeld (reassembler : Reassembler) : Prop :=
  ∀ frame ∈ reassembler.held, frame.kind ≠ .idr

/-- After the push no IDR is held, and one that it completed went out. -/
def IdrGoesOut (reassembler : Reassembler) (shard : Shard) : Prop :=
  (reassembler.push shard.header shard.payload).1.NoIdrHeld ∧
    ∀ data ∈ (reassembler.assembly shard).frameData,
      reassembler.CompletesIdr shard →
        completed shard data ∈
          (reassembler.push shard.header shard.payload).2

/-- Draining cuts the held queue in two. -/
theorem drain_append_held (reassembler : Reassembler) :
    reassembler.drain.2 ++ reassembler.drain.1.held = reassembler.held := by
  have hrelease : ∀ (state : Reassembler) head rest log,
      state.held = head :: rest →
      ¬(state.Blocked head ∧ ¬state.Forced head) →
      log ++ state.held = reassembler.held →
      log ++ [head] ++ (state.release head rest).held = reassembler.held := by
    intro state head rest log hheld _ hwhole
    rw [← hwhole, hheld, List.append_assoc]
    rfl
  exact @drain_rule (fun state log => log ++ state.held = reassembler.held)
    hrelease reassembler [] rfl

theorem blocked_release {reassembler : Reassembler}
    {head frame : CompletedFrame}
    {rest : List CompletedFrame} :
    (reassembler.release head rest).Blocked frame ↔
      ∃ id ∈ reassembler.pending.keys,
        ¬older id head.frameId ∧ older id frame.frameId := by
  rw [Blocked, keys_release]
  simp only [List.mem_filter, decide_eq_true_eq]
  constructor
  · rintro ⟨id, ⟨hid, hnewer⟩, hblocks⟩
    exact ⟨id, hid, hnewer, hblocks⟩
  · rintro ⟨id, hid, hnewer, hblocks⟩
    exact ⟨id, ⟨hid, hnewer⟩, hblocks⟩

theorem drain_of_held_cons {reassembler : Reassembler} {head : CompletedFrame}
    {rest : List CompletedFrame} (hheld : reassembler.held = head :: rest)
    (hgoes : ¬(reassembler.Blocked head ∧ ¬reassembler.Forced head)) :
    reassembler.drain = ((reassembler.release head rest).drain.1,
      head :: (reassembler.release head rest).drain.2) := by
  rcases reassembler.drainFrom_cons head rest hheld with
    ⟨hblocked, hfree, -⟩ | ⟨-, heq⟩
  · exact absurd ⟨hblocked, hfree⟩ hgoes
  · rw [drain, hheld, heq]
    rfl

theorem drain_of_waits {reassembler : Reassembler} {head : CompletedFrame}
    {rest : List CompletedFrame} (hheld : reassembler.held = head :: rest)
    (hblocked : reassembler.Blocked head) (hfree : ¬reassembler.Forced head) :
    reassembler.drain = (reassembler, []) := by
  rcases reassembler.drainFrom_cons head rest hheld with
    ⟨-, -, heq⟩ | ⟨hgoes, -⟩
  · rw [drain, hheld, heq]
  · exact absurd ⟨hblocked, hfree⟩ hgoes

/-- In a queue that does not overflow, an IDR goes out exactly when nothing in
front of it is blocked. -/
theorem idr_drained_iff {reassembler : Reassembler} {idr : CompletedFrame}
    {front back : List CompletedFrame}
    (hheld : reassembler.held = front ++ idr :: back) (hidr : idr.kind = .idr)
    (hfront : ∀ frame ∈ front, frame.kind ≠ .idr)
    (hshort : reassembler.held.length ≤ holdLimit) :
    (∃ out, reassembler.drain.2 = front ++ idr :: out) ↔
      ∀ frame ∈ front, ¬reassembler.Blocked frame := by
  induction front generalizing reassembler with
  | nil =>
      apply iff_of_true
      · refine ⟨_, congrArg Prod.snd (drain_of_held_cons hheld ?_)⟩
        rintro ⟨-, hfree⟩
        exact hfree (Or.inl hidr)
      · intro frame hframe
        cases hframe
  | cons head front ih =>
      have hhead := hfront head List.mem_cons_self
      have hfree : ¬reassembler.Forced head := by
        rintro (hkind | hlong)
        · exact hhead hkind
        · exact absurd hshort (Nat.not_le.mpr hlong)
      by_cases hblocked : reassembler.Blocked head
      · rw [drain_of_waits hheld hblocked hfree]
        apply iff_of_false
        · rintro ⟨out, hout⟩
          cases hout
        · intro hclear
          exact hclear head List.mem_cons_self hblocked
      · have hcons : reassembler.held = head :: (front ++ idr :: back) := hheld
        have hlength : (front ++ idr :: back).length ≤ holdLimit := by
          rw [hcons] at hshort
          exact (Nat.le_succ _).trans hshort
        have hsame : ∀ frame,
            (reassembler.release head (front ++ idr :: back)).Blocked frame ↔
              reassembler.Blocked frame := by
          intro frame
          rw [blocked_release]
          constructor
          · rintro ⟨id, hid, -, hblocks⟩
            exact ⟨id, hid, hblocks⟩
          · rintro ⟨id, hid, hblocks⟩
            exact ⟨id, hid, fun holder => hblocked ⟨id, hid, holder⟩, hblocks⟩
        calc
          (∃ out, reassembler.drain.2 = head :: front ++ idr :: out) ↔
              ∃ out, (reassembler.release head
                (front ++ idr :: back)).drain.2 = front ++ idr :: out := by
            rw [drain_of_held_cons hcons fun h => hblocked h.1]
            simp only [List.cons_append, List.cons.injEq, true_and]
          _ ↔ ∀ frame ∈ front, ¬(reassembler.release head
                (front ++ idr :: back)).Blocked frame :=
            ih rfl (fun frame hframe =>
              hfront frame (List.mem_cons_of_mem _ hframe)) hlength
          _ ↔ ∀ frame ∈ head :: front, ¬reassembler.Blocked frame := by
            simp only [hsame, List.forall_mem_cons, hblocked, not_false_eq_true,
              true_and]

/-- In a queue that overflows by one, the head goes out and what is older than
it is given up; the rest must not be blocked by anything newer. -/
theorem idr_drained_overflow_iff {reassembler : Reassembler}
    {first idr : CompletedFrame} {front back : List CompletedFrame}
    (hheld : reassembler.held = first :: front ++ idr :: back)
    (hidr : idr.kind = .idr)
    (hfront : ∀ frame ∈ first :: front, frame.kind ≠ .idr)
    (hlong : reassembler.held.length = holdLimit + 1) :
    (∃ out, reassembler.drain.2 = first :: front ++ idr :: out) ↔
      ∀ frame ∈ first :: front, ∀ id ∈ reassembler.pending.keys,
        older id frame.frameId → older id first.frameId := by
  have hcons : reassembler.held = first :: (front ++ idr :: back) := hheld
  have hgoes : ¬(reassembler.Blocked first ∧ ¬reassembler.Forced first) := by
    rintro ⟨-, hfree⟩
    exact hfree (Or.inr (hlong ▸ Nat.lt_succ_self holdLimit))
  have hlength : (front ++ idr :: back).length ≤ holdLimit := by
    rw [hcons, List.length_cons] at hlong
    exact (Nat.succ.inj hlong).le
  calc
    (∃ out, reassembler.drain.2 = first :: front ++ idr :: out) ↔
        ∃ out, (reassembler.release first
          (front ++ idr :: back)).drain.2 = front ++ idr :: out := by
      rw [drain_of_held_cons hcons hgoes]
      simp only [List.cons_append, List.cons.injEq, true_and]
    _ ↔ ∀ frame ∈ front, ¬(reassembler.release first
          (front ++ idr :: back)).Blocked frame :=
      idr_drained_iff rfl hidr (fun frame hframe =>
        hfront frame (List.mem_cons_of_mem _ hframe)) hlength
    _ ↔ ∀ frame ∈ first :: front, ∀ id ∈ reassembler.pending.keys,
          older id frame.frameId → older id first.frameId := by
      rw [List.forall_mem_cons, and_iff_right fun _ _ holder => holder]
      apply forall₂_congr
      intro frame _
      rw [blocked_release]
      push Not
      apply forall₂_congr
      intro id _
      exact ⟨fun h holder => by_contra fun hnewer => h hnewer holder,
        fun h hnewer holder => hnewer (h holder)⟩

/-- Among frames that are no IDRs, the one IDR is not held after draining
exactly when it went out with all that was in front of it. -/
theorem noIdrHeld_drain_iff {reassembler : Reassembler} {idr : CompletedFrame}
    {front back : List CompletedFrame}
    (hheld : reassembler.held = front ++ idr :: back) (hidr : idr.kind = .idr)
    (hback : ∀ frame ∈ back, frame.kind ≠ .idr) :
    reassembler.drain.1.NoIdrHeld ↔
      ∃ out, reassembler.drain.2 = front ++ idr :: out := by
  have hcut := reassembler.drain_append_held
  rw [hheld] at hcut
  constructor
  · intro hnone
    rcases List.append_eq_append_iff.mp hcut with
      ⟨kept, -, hlast⟩ | ⟨out, hout, hlast⟩
    · refine absurd hidr (hnone idr ?_)
      rw [hlast]
      exact List.mem_append_right _ List.mem_cons_self
    · cases out with
      | nil =>
          refine absurd hidr (hnone idr ?_)
          rw [List.nil_append] at hlast
          rw [← hlast]
          exact List.mem_cons_self
      | cons next out =>
          rw [List.cons_append, List.cons.injEq] at hlast
          exact ⟨out, hlast.1 ▸ hout⟩
  · rintro ⟨out, hout⟩ frame hframe
    rw [hout, List.append_assoc, List.append_cancel_left_eq, List.cons_append,
      List.cons.injEq] at hcut
    apply hback frame
    rw [← hcut.2]
    exact List.mem_append_right _ hframe

/-- A push that completes an IDR drains a queue with the IDR in its place. -/
theorem CompletesIdr.settle_eq {reassembler : Reassembler} {shard : Shard}
    (h : reassembler.CompletesIdr shard) :
    ∃ data, (reassembler.assembly shard).frameData = some data ∧
      (reassembler.settle shard).held =
        reassembler.ahead shard.header.frameId ++ completed shard data ::
          reassembler.held.dropWhile (fun other =>
            ¬older shard.header.frameId other.frameId) ∧
      (reassembler.settle shard).pending.keys =
        reassembler.pending.keys.erase shard.header.frameId := by
  obtain ⟨-, hcomplete, hdata, -⟩ := h
  obtain ⟨data, hdata⟩ := Option.isSome_iff_exists.mp hdata
  refine ⟨data, hdata, ?_, ?_⟩
  · rw [settle, if_neg (not_not.mpr hcomplete)]
    simp only [hdata]
    exact held_hold _ _
  · rw [settle, if_neg (not_not.mpr hcomplete)]
    simp only [hdata]
    exact keys_closed reassembler shard

/-- A push that completes no IDR adds none to the held queue. -/
theorem noIdrHeld_settle {reassembler : Reassembler} {shard : Shard}
    (hnone : reassembler.NoIdrHeld)
    (hskips : ¬reassembler.skips shard.header.frameId)
    (hother : ¬reassembler.CompletesIdr shard) :
    (reassembler.settle shard).NoIdrHeld := by
  have hsettled := settled_settle reassembler shard
  generalize reassembler.settle shard = next at hsettled
  cases hsettled with
  | waiting hopen hroom => exact hnone
  | evicting hopen hfull holdest => exact hnone
  | failing hcomplete hdata => exact hnone
  | @completing hcomplete data hdata =>
      intro frame hframe
      rcases List.mem_cons.mp ((perm_held_hold _ _).mem_iff.mp hframe) with
        rfl | hold
      · intro hkind
        exact hother ⟨hskips, hcomplete, hdata ▸ rfl, hkind⟩
      · exact hnone frame hold

theorem noIdrHeld_drain {reassembler : Reassembler}
    (hnone : reassembler.NoIdrHeld) : reassembler.drain.1.NoIdrHeld := by
  intro frame hframe
  apply hnone
  rw [← drain_append_held]
  exact List.mem_append_right _ hframe

/-- The first frame in front of an id heads the queue. -/
theorem head_of_ahead {reassembler : Reassembler} {frameId : UInt32}
    {first : CompletedFrame} {front : List CompletedFrame}
    (hfront : reassembler.ahead frameId = first :: front) :
    reassembler.held.head? = some first ∧ ¬older frameId first.frameId := by
  have hhead : (reassembler.ahead frameId).head? = some first := by
    rw [hfront]
    rfl
  rw [ahead, List.head?_takeWhile, Option.filter_eq_some_iff,
    decide_eq_true_eq] at hhead
  exact hhead

/-- Where a push completes an IDR, the bounds on what waits decide whether the
frames in front of it can go. -/
theorem goesOut_iff_of_completes {reassembler : Reassembler} {shard : Shard}
    (hbounded : Bounded reassembler) (hnone : reassembler.NoIdrHeld)
    (hidr : reassembler.CompletesIdr shard) {data : Bytes}
    (hheld : (reassembler.settle shard).held =
      reassembler.ahead shard.header.frameId ++ completed shard data ::
        reassembler.held.dropWhile fun other =>
          ¬older shard.header.frameId other.frameId)
    (hkeys : (reassembler.settle shard).pending.keys =
      reassembler.pending.keys.erase shard.header.frameId) :
    (∃ out, (reassembler.settle shard).drain.2 =
        reassembler.ahead shard.header.frameId ++
          completed shard data :: out) ↔
      reassembler.ClearsWay shard := by
  rw [ClearsWay, forall_prop_of_true hidr]
  have hkind : (completed shard data).kind = .idr := hidr.2.2.2
  have hlength : (reassembler.settle shard).held.length =
      reassembler.held.length + 1 := by
    rw [hheld, List.length_append, List.length_cons, ← Nat.add_assoc,
      ← List.length_append, ahead, List.takeWhile_append_dropWhile]
  have hahead : ∀ frame ∈ reassembler.ahead shard.header.frameId,
      frame.kind ≠ .idr :=
    fun frame hframe => hnone frame ((List.takeWhile_subset _) hframe)
  have hpending : ∀ id, id ∈ (reassembler.settle shard).pending.keys ↔
      id ≠ shard.header.frameId ∧ id ∈ reassembler.pending.keys := by
    intro id
    rw [hkeys]
    exact reassembler.pending.keys_nodup.mem_erase_iff
  cases hfront : reassembler.ahead shard.header.frameId with
  | nil =>
      rw [hfront] at hheld
      refine iff_of_true ?_ (Or.inl rfl)
      refine ⟨_, congrArg Prod.snd (drain_of_held_cons hheld ?_)⟩
      rintro ⟨-, hfree⟩
      exact hfree (Or.inl hkind)
  | cons first front =>
      rw [hfront] at hheld hahead
      rw [or_iff_right (List.cons_ne_nil first front)]
      by_cases hfull : holdLimit ≤ reassembler.held.length
      · have hlong : (reassembler.settle shard).held.length =
            holdLimit + 1 := by
          rw [hlength, Nat.le_antisymm hbounded.held hfull]
        rw [and_iff_right hfull,
          idr_drained_overflow_iff hheld hkind hahead hlong]
        constructor
        · intro hclear head hhead frame hframe id hid hne
          obtain rfl := Option.some.inj hhead
          exact hclear frame hframe id ((hpending id).mpr ⟨hne, hid⟩)
        · intro hclear frame hframe id hid
          obtain ⟨hne, hin⟩ := (hpending id).mp hid
          exact hclear first rfl frame hframe id hin hne
      · have hshort : (reassembler.settle shard).held.length ≤ holdLimit := by
          omega
        rw [idr_drained_iff hheld hkind hahead hshort]
        apply iff_of_false _ fun h => hfull h.1
        intro hclear
        obtain ⟨hhead, hnewer⟩ := head_of_ahead hfront
        obtain ⟨-, id, hid, hblocks⟩ := hbounded.head first hhead
        apply hclear first List.mem_cons_self
        refine ⟨id, (hpending id).mpr ⟨?_, hid⟩, hblocks⟩
        rintro rfl
        exact hnewer hblocks

/-- One push keeps IDRs out of the held queue exactly when it clears the way
of the one that it completes. -/
theorem idrGoesOut_iff {reassembler : Reassembler} {shard : Shard}
    (hbounded : Bounded reassembler) (hnone : reassembler.NoIdrHeld) :
    reassembler.IdrGoesOut shard ↔ reassembler.ClearsWay shard := by
  rw [IdrGoesOut, push_eq]
  by_cases hidr : reassembler.CompletesIdr shard
  · obtain ⟨data, hdata, hheld, hkeys⟩ := hidr.settle_eq
    have hback : ∀ frame ∈ reassembler.held.dropWhile (fun other =>
        ¬older shard.header.frameId other.frameId), frame.kind ≠ .idr :=
      fun frame hframe => hnone frame (List.dropWhile_subset _ hframe)
    rw [if_neg hidr.1, hdata,
      noIdrHeld_drain_iff hheld hidr.2.2.2 hback,
      goesOut_iff_of_completes hbounded hnone hidr hheld hkeys]
    apply and_iff_left_of_imp
    intro hclear data' hdata' _
    obtain rfl := Option.some.inj hdata'
    obtain ⟨out, hout⟩ :=
      (goesOut_iff_of_completes hbounded hnone hidr hheld hkeys).mpr hclear
    rw [hout]
    exact List.mem_append_right _ List.mem_cons_self
  · apply iff_of_true
    · refine ⟨?_, fun data _ h => absurd h hidr⟩
      split_ifs with hskips
      · exact hnone
      · exact noIdrHeld_drain (noIdrHeld_settle hnone hskips hidr)
    · intro h
      exact absurd h hidr

end GameStreamer.Reassembler

namespace GameStreamer.Playback

open Reassembler EventRun

theorem bounded_step {playback : Playback} (shard : Shard)
    (h : Bounded playback.reassembler) :
    Bounded (playback.step shard).reassembler := by
  by_cases hskips : playback.reassembler.skips shard.header.frameId
  · rwa [step_of_skips hskips]
  · rw [step_of_settles hskips]
    exact bounded_drain
      (pending_settled h.pending (settled_settle playback.reassembler shard))

/-- In every run: no push leaves an IDR in the held queue, and every push that
completes one releases it, exactly when every push that completes one clears
its way. -/
theorem idr_never_held_iff (shards : List Shard) :
    Along step (fun playback shard => playback.reassembler.IdrGoesOut shard)
        start shards ↔
      Along step (fun playback shard => playback.reassembler.ClearsWay shard)
        start shards := by
  apply along_iff_along fun playback =>
    Bounded playback.reassembler ∧ playback.reassembler.NoIdrHeld
  · rintro playback shard ⟨hbounded, -⟩ hgood
    exact ⟨bounded_step shard hbounded, hgood.1⟩
  · rintro playback shard ⟨hbounded, hnone⟩
    exact idrGoesOut_iff hbounded hnone
  · refine ⟨bounded_new, fun frame hframe => ?_⟩
    cases hframe

/-- A frame waits for its second shard, a later one is held behind it, and an
IDR completes after both. -/
def idrBehindHeld : List Shard :=
  [firstOfTwo 1, soleShard 2 .p, soleShard 3 .idr]

/-- The IDR is held behind the frame that waits. -/
theorem idr_held_behind :
    (after idrBehindHeld).reassembler.held.map CompletedFrame.kind =
        [.p, .idr] ∧
      (after idrBehindHeld).released = [] ∧
      ¬Along step (fun playback shard =>
        playback.reassembler.IdrGoesOut shard) start idrBehindHeld := by
  have hheld : (after idrBehindHeld).reassembler.held.map CompletedFrame.kind =
      [.p, .idr] := by decide +kernel
  refine ⟨hheld, by decide +kernel, ?_⟩
  rintro ⟨-, -, hlast, -⟩
  have hidr : FrameKind.idr ∈
      (after idrBehindHeld).reassembler.held.map CompletedFrame.kind := by
    rw [hheld]
    decide
  obtain ⟨frame, hframe, hkind⟩ := List.mem_map.mp hidr
  exact hlast.1 frame hframe hkind

end GameStreamer.Playback
