import GameStreamer.Capture.TextureRing
import GameStreamer.Core.Loans

/-!
# Who holds a texture

A texture is held by the callback that found it, by a frame on its way into the
channel, by the frame in the slot and by the encode thread's frame.  The counts
say so at every step, so that a callback never writes what somebody holds, and
three textures are always enough.

The invariant has one part for the calls into the channel, one for the counts,
one for the pictures that the held textures show and one for what the callback
inside relies on.  Each step is first said of the parts that it concerns.
-/

namespace GameStreamer.Capture.TextureRing

open Loans

variable {Memory α : Type}

/-- The callback's own handles. -/
def Callback.clones : Callback α → List ℕ
  | .found _ _ texture | .copied _ _ texture | .submitting texture => [texture]
  | _ => []

/-- The picture that the callback has not submitted yet. -/
def Callback.picture : Callback α → List α
  | .scanning _ picture _ | .found _ picture _ | .copied _ picture _ =>
      [picture]
  | _ => []

namespace State

def clones (state : State Memory α) : List ℕ :=
  (state.inside.map fun held => held.2.clones).getD []

/-- The frame that the callback inside is handing to the channel. -/
def sending (state : State Memory α) : Option (Captured α) :=
  match state.inside with
  | some (p, .submitting _) => (state.channel.producers (p + 1)).carried
  | _ => none

/-- The frames that somebody holds. -/
def frames (state : State Memory α) : List (Captured α) :=
  state.sending.toList ++
    (state.channel.slot.toList ++ state.encoding.toList)

/-- The textures of the frames that somebody holds. -/
def lent (state : State Memory α) : List ℕ :=
  state.frames.map Captured.texture

/-- All handles but the ring's own. -/
def handles (state : State Memory α) : List ℕ :=
  state.clones ++ state.lent

/-- The picture that is delivered but not stored yet. -/
def inHand (state : State Memory α) : List α :=
  (state.inside.map fun held => held.2.picture).getD [] ++
    (state.sending.map Captured.picture).toList

end State

/-! ## The counts -/

/-- The ring and the counts of the textures, beside the handles that are
out. -/
structure Books (strong : ℕ → ℕ) (ring handles : List ℕ) (created : ℕ) :
    Prop where
  counted : Counted strong ring handles
  nodup : ring.Nodup
  full : ring = [] ∨ ring.length = ringTextures
  past : ∀ texture, texture ∈ ring ∨ texture ∈ handles → texture < created

namespace Books

variable {strong : ℕ → ℕ} {ring handles : List ℕ} {created texture : ℕ}

theorem perm (h : Books strong ring handles created) {handles' : List ℕ}
    (hperm : handles.Perm handles') : Books strong ring handles' created where
  counted := h.counted.perm hperm
  nodup := h.nodup
  full := h.full
  past := fun texture hmem =>
    h.past texture (hmem.imp_right hperm.mem_iff.mpr)

/-- One more handle on a texture that has one. -/
theorem clone (h : Books strong ring handles created)
    (hheld : texture ∈ ring ∨ texture ∈ handles) :
    Books (Function.update strong texture (strong texture + 1)) ring
      (texture :: handles) created where
  counted := h.counted.clone texture
  nodup := h.nodup
  full := h.full
  past := by
    rintro other (hring | hother)
    · exact h.past other (Or.inl hring)
    · rcases List.mem_cons.mp hother with rfl | hearlier
      · exact h.past other hheld
      · exact h.past other (Or.inr hearlier)

/-- One handle less. -/
theorem drop (h : Books strong ring (texture :: handles) created) :
    Books (Function.update strong texture (strong texture - 1)) ring handles
      created where
  counted := h.counted.drop
  nodup := h.nodup
  full := h.full
  past := fun other hmem =>
    h.past other (hmem.imp_right (List.mem_cons_of_mem texture))

/-- The ring is given up; who holds a texture keeps it. -/
theorem disown (h : Books strong ring handles created) :
    Books (fun texture => strong texture - ring.count texture) [] handles
      created where
  counted := h.counted.disown
  nodup := List.nodup_nil
  full := Or.inl rfl
  past := fun other hmem =>
    h.past other (Or.inr (hmem.resolve_left List.not_mem_nil))

/-- A new ring of textures that nobody has a handle on yet. -/
theorem make (h : Books strong [] handles created) :
    Books (fun texture =>
        if texture ∈ List.range' created ringTextures then 1
        else strong texture)
      (List.range' created ringTextures) handles
      (created + ringTextures) where
  counted := by
    apply h.counted.make List.nodup_range'
    intro texture hmade hheld
    exact absurd (List.mem_range'_1.mp hmade).1
      (Nat.not_le.mpr (h.past texture (Or.inr hheld)))
  nodup := List.nodup_range'
  full := Or.inr List.length_range'
  past := by
    rintro texture (hmade | hheld)
    · exact (List.mem_range'_1.mp hmade).2
    · exact Nat.lt_add_right _ (h.past texture (Or.inr hheld))

/-- A ring of three has a free texture while two handles are out at most. -/
theorem exists_free (h : Books strong ring handles created)
    (hring : ring ≠ []) (hfew : handles.length ≤ 2) :
    ∃ texture ∈ ring, strong texture = 1 := by
  apply h.counted.exists_free h.nodup
  rw [h.full.resolve_left hring]
  exact Nat.lt_succ_of_le hfew

end Books

/-! ## The invariant -/

/-- What a callback relies on between its steps: while it searches, that one
of the textures still to look at is free, and then that nobody else holds the
texture it found and that this shows the picture once it is copied. -/
def Callback.Relies (strong : ℕ → ℕ) (ring lent : List ℕ)
    (contents : ℕ → Option α) : Callback α → Prop
  | .locked _ | .submitting _ => True
  | .scanning _ _ rest => (∀ texture ∈ rest, texture ∈ ring) ∧
      ∃ texture ∈ rest, strong texture = 1
  | .found _ _ texture => texture ∉ lent
  | .copied _ picture texture =>
      texture ∉ lent ∧ contents texture = some picture

/-- Only the callback inside is in a call of the channel, the control thread
brings no frame, and the encode thread asks for none while it has one. -/
structure Calls (state : State Memory α) : Prop where
  control : (state.channel.producers 0).carried = none
  outside : ∀ p, (∀ texture, state.inside ≠ some (p, .submitting texture)) →
    state.channel.producers (p + 1) = .idle
  taken : state.encoding.isSome = true → state.channel.receiver = .idle

/-- No callback found the ring saturated, and the encoder read pictures of its
frames only. -/
structure Faultless (ringSaturated : ℕ)
    (reads : List (Captured α × Option α)) : Prop where
  unsaturated : ringSaturated = 0
  reads : ∀ entry ∈ reads, entry.2 = some entry.1.picture

/-- What holds in every interleaving.  The ring's books agree with the handles
that are out, the calls of the channel are where the callbacks stand, and every
held frame finds its picture. -/
structure Inv (device : Device Memory α) (state : State Memory α) :
    Prop where
  calls : Calls state
  books : Books state.strong state.ring state.handles state.created
  intact : Intact Captured.texture (fun frame => some frame.picture)
    (device.contents state.memory) state.frames
  relies : ∀ held ∈ state.inside, held.2.Relies state.strong state.ring
    state.lent (device.contents state.memory)
  faultless : Faultless state.ringSaturated state.reads
  delivered : state.channel.stored.map Captured.picture ++ state.inHand =
    state.delivered

theorem start_inv (device : Device Memory α) (size : Size)
    (memory : Memory) : Inv device (start size memory) where
  calls := ⟨rfl, fun _ _ => rfl, fun h => by cases h⟩
  books :=
    ⟨fun _ => rfl, List.nodup_nil, Or.inl rfl, fun _ hmem =>
      absurd (hmem.elim id id) List.not_mem_nil⟩
  intact _ hmem := by cases hmem
  relies _ hmem := by cases hmem
  faultless := ⟨rfl, fun _ hmem => by cases hmem⟩
  delivered := rfl

section Steps

variable {device : Device Memory α} {state : State Memory α}

theorem sending_channel {channel : FrameChannel.State (Captured α)}
    (hcarried : ∀ i, (channel.producers i).carried =
      (state.channel.producers i).carried) :
    ({ state with channel := channel } : State Memory α).sending =
      state.sending := by
  simp only [State.sending, hcarried]

/-- A step of the channel that moves no frame. -/
theorem Inv.channel (h : Inv device state)
    {channel : FrameChannel.State (Captured α)}
    (hcarried : ∀ i, (channel.producers i).carried =
      (state.channel.producers i).carried)
    (hidle : ∀ p, (∀ texture,
        state.inside ≠ some (p, .submitting texture)) →
      channel.producers (p + 1) = .idle)
    (hslot : channel.slot = state.channel.slot)
    (hstored : channel.stored = state.channel.stored)
    (hreceiver : state.encoding.isSome = true →
      state.channel.receiver = .idle → channel.receiver = .idle) :
    Inv device { state with channel := channel } := by
  have hframes : ({ state with channel := channel } :
      State Memory α).frames = state.frames := by
    rw [State.frames, sending_channel hcarried, State.frames]
    dsimp only
    rw [hslot]
  have hlent : ({ state with channel := channel } :
      State Memory α).lent = state.lent :=
    congrArg (List.map Captured.texture) hframes
  have hhandles : ({ state with channel := channel } :
      State Memory α).handles = state.handles :=
    congrArg (state.clones ++ ·) hlent
  have hhand : ({ state with channel := channel } : State Memory α).inHand =
      state.inHand := by
    rw [State.inHand, sending_channel hcarried]
    rfl
  constructor
  case calls =>
    exact ⟨(hcarried 0).trans h.calls.control, hidle,
      fun hsome => hreceiver hsome (h.calls.taken hsome)⟩
  case books => rw [hhandles]; exact h.books
  case intact => rw [hframes]; exact h.intact
  case relies => rw [hlent]; exact h.relies
  case faultless => exact h.faultless
  case delivered =>
    rw [hhand]
    dsimp only
    rw [hstored]
    exact h.delivered

/-! ## The callback outside the channel -/

/-- No callback is in the sink's `submit`. -/
def Quiet (state : State Memory α) : Prop :=
  ∀ p texture, state.inside ≠ some (p, .submitting texture)

theorem Quiet.sending (h : Quiet state) : state.sending = none := by
  rw [State.sending]
  split
  case h_1 p texture hinside => exact absurd hinside (h p texture)
  case h_2 => rfl

theorem Quiet.frames (h : Quiet state) :
    state.frames =
      state.channel.slot.toList ++ state.encoding.toList := by
  rw [State.frames, h.sending]
  rfl

theorem Quiet.inHand (h : Quiet state) :
    state.inHand =
      (state.inside.map fun held => held.2.picture).getD [] := by
  rw [State.inHand, h.sending]
  exact List.append_nil _

/-- A step of the callback inside that stays out of the channel. -/
theorem Inv.quiet (h : Inv device state) {state' : State Memory α}
    (hold : Quiet state) (hnew : Quiet state')
    (hchannel : state'.channel = state.channel)
    (hencoding : state'.encoding = state.encoding)
    (hbooks : Books state'.strong state'.ring (state'.clones ++ state.lent)
      state'.created)
    (hintact : Intact Captured.texture (fun frame => some frame.picture)
      (device.contents state'.memory) state.frames)
    (hrelies : ∀ held ∈ state'.inside, held.2.Relies state'.strong
      state'.ring state.lent (device.contents state'.memory))
    (hfaultless : Faultless state'.ringSaturated state'.reads)
    (hdelivered : state.channel.stored.map Captured.picture ++
      (state'.inside.map fun held => held.2.picture).getD [] =
        state'.delivered) : Inv device state' := by
  have hframes : state'.frames = state.frames := by
    rw [hnew.frames, hold.frames, hchannel, hencoding]
  have hlent : state'.lent = state.lent :=
    congrArg (List.map Captured.texture) hframes
  have hhandles : state'.handles = state'.clones ++ state.lent :=
    congrArg (state'.clones ++ ·) hlent
  constructor
  case calls =>
    constructor
    · rw [hchannel]
      exact h.calls.control
    · rw [hchannel]
      exact fun p _ => h.calls.outside p (hold p)
    · rw [hencoding, hchannel]
      exact h.calls.taken
  case books => rw [hhandles]; exact hbooks
  case intact => rw [hframes]; exact hintact
  case relies => rw [hlent]; exact hrelies
  case faultless => exact hfaultless
  case delivered => rw [hchannel, hnew.inHand]; exact hdelivered

/-- What holds while the callback inside, if any, has no handle and no picture
yet. -/
structure Idle (state : State Memory α) : Prop where
  quiet : Quiet state
  clones : state.clones = []
  picture : (state.inside.map fun held => held.2.picture).getD [] = []

theorem idle_of_none (hinside : state.inside = none) : Idle state where
  quiet p texture h := by
    rw [hinside] at h
    cases h
  clones := by rw [State.clones, hinside]; rfl
  picture := by rw [hinside]; rfl

theorem idle_of_locked {p captureTsUs : ℕ}
    (hinside : state.inside = some (p, .locked captureTsUs)) :
    Idle state where
  quiet p texture h := by
    rw [hinside] at h
    cases h
  clones := by rw [State.clones, hinside]; rfl
  picture := by rw [hinside]; rfl

namespace Idle

variable (hold : Idle state)

include hold

theorem handles : state.handles = state.lent := by
  rw [State.handles, hold.clones, List.nil_append]

theorem inHand : state.inHand = [] := by
  rw [hold.quiet.inHand, hold.picture]

theorem delivered (h : Inv device state) :
    state.channel.stored.map Captured.picture = state.delivered := by
  rw [← h.delivered, hold.inHand, List.append_nil]

theorem books (h : Inv device state) :
    Books state.strong state.ring state.lent state.created := by
  rw [← hold.handles]
  exact h.books

end Idle

/-- Only the callback inside changes, and it stays without a handle. -/
theorem Inv.idle (h : Inv device state) (hold : Idle state)
    {waiting : ℕ → Option ℕ} {inside : Option (ℕ × Callback α)}
    (hinside : inside = none ∨
      ∃ p captureTsUs, inside = some (p, .locked captureTsUs)) :
    Inv device { state with waiting := waiting, inside := inside } := by
  have hnew : Idle { state with waiting := waiting, inside := inside } := by
    rcases hinside with hnone | ⟨p, captureTsUs, hlocked⟩
    · exact idle_of_none hnone
    · exact idle_of_locked hlocked
  apply h.quiet hold.quiet hnew.quiet rfl rfl
  case hbooks => rw [hnew.clones]; exact hold.books h
  case hintact => exact h.intact
  case hrelies =>
    rcases hinside with rfl | ⟨p, captureTsUs, rfl⟩
    · exact fun held hmem => by cases hmem
    · rintro held ⟨⟩
      trivial
  case hfaultless => exact h.faultless
  case hdelivered =>
    rw [hnew.picture, List.append_nil]
    exact hold.delivered h

/-- The ring of another size is given up; who holds a texture keeps it. -/
theorem Inv.resize (h : Inv device state) (hold : Idle state)
    (content : Size) :
    Inv device { state.resize content with inside := none } := by
  apply h.quiet hold.quiet
  case hnew => exact (idle_of_none rfl).quiet
  case hchannel => rfl
  case hencoding => rfl
  case hbooks => exact (hold.books h).disown
  case hintact => exact h.intact
  case hrelies => exact fun held hmem => by cases hmem
  case hfaultless => exact h.faultless
  case hdelivered => exact (List.append_nil _).trans (hold.delivered h)

/-- At most the frame in the slot and the encoder's are held while a callback
looks for a texture. -/
theorem Quiet.few (hold : Quiet state) : state.lent.length ≤ 2 := by
  have hslot : state.channel.slot.toList.length ≤ 1 := by
    cases state.channel.slot <;> simp
  have hencoding : state.encoding.toList.length ≤ 1 := by
    cases state.encoding <;> simp
  rw [State.lent, List.length_map, hold.frames, List.length_append]
  omega

/-- A search through a ring of three always finds a free texture. -/
theorem Inv.scan (h : Inv device state) (hold : Idle state)
    {p captureTsUs : ℕ} (picture : α) (hring : state.ring ≠ []) :
    Inv device { state with
      inside := some (p, .scanning captureTsUs picture state.ring)
      delivered := state.delivered ++ [picture] } := by
  apply h.quiet hold.quiet
  case hnew => exact fun _ _ hphase => by cases hphase
  case hchannel => rfl
  case hencoding => rfl
  case hbooks => exact hold.books h
  case hintact => exact h.intact
  case hrelies =>
    rintro held ⟨⟩
    exact ⟨fun _ hmem => hmem,
      (hold.books h).exists_free hring hold.quiet.few⟩
  case hfaultless => exact h.faultless
  case hdelivered => rw [hold.delivered h]; rfl

/-- A new ring. -/
theorem Inv.buildRing (h : Inv device state) (hold : Idle state)
    {created : Bool} {built : State Memory α}
    (hbuilt : state.buildRing created = some built) :
    Inv device built ∧ Idle built ∧ built.ring ≠ [] := by
  rw [State.buildRing] at hbuilt
  split at hbuilt
  case isTrue hring =>
    obtain rfl := Option.some.inj hbuilt
    exact ⟨h, hold, hring⟩
  case isFalse hring =>
    split at hbuilt
    case isFalse => cases hbuilt
    case isTrue =>
      obtain rfl := Option.some.inj hbuilt
      have hbooks := hold.books h
      rw [not_not.mp hring] at hbooks
      refine ⟨?_, ⟨hold.quiet, hold.clones, hold.picture⟩, by
        simp [ringTextures]⟩
      apply h.quiet hold.quiet
      case hnew => exact hold.quiet
      case hchannel => rfl
      case hencoding => rfl
      case hbooks =>
        have hclones := hold.clones
        rw [State.clones] at hclones ⊢
        rw [hclones]
        exact hbooks.make
      case hintact => exact h.intact
      case hrelies =>
        intro held hmem
        have hrelies := h.relies held hmem
        have hpicture := hold.picture
        rw [show state.inside = some held from hmem] at hpicture
        obtain ⟨p, callback⟩ := held
        cases callback with
        | scanning captureTsUs picture rest => cases hpicture
        | _ => exact hrelies
      case hfaultless => exact h.faultless
      case hdelivered =>
        have hdelivered := h.delivered
        rw [hold.quiet.inHand] at hdelivered
        exact hdelivered

theorem Inv.deliver (h : Inv device state) {p captureTsUs : ℕ}
    (hinside : state.inside = some (p, .locked captureTsUs))
    (pulled : Pulled α) (created : Bool) :
    Inv device (state.deliver p captureTsUs pulled created) := by
  have hold := idle_of_locked hinside
  cases pulled with
  | failed => exact h.idle hold (Or.inl rfl)
  | frame content picture =>
      simp only [State.deliver]
      split
      case isTrue => exact h.resize hold content
      case isFalse =>
        split
        case h_1 => exact h.idle hold (Or.inl rfl)
        case h_2 built hbuilt =>
          obtain ⟨hinv, hidle, hring⟩ := h.buildRing hold hbuilt
          exact hinv.scan hidle picture hring

theorem quiet_of_scanning {p captureTsUs : ℕ} {picture : α} {rest : List ℕ}
    (hinside : state.inside = some (p, .scanning captureTsUs picture rest)) :
    Quiet state := by
  intro q texture h
  rw [hinside] at h
  cases h

theorem Inv.look (h : Inv device state) {p captureTsUs : ℕ} {picture : α}
    {rest : List ℕ}
    (hinside : state.inside = some (p, .scanning captureTsUs picture rest)) :
    Inv device (state.look p captureTsUs picture rest) := by
  have hold := quiet_of_scanning hinside
  obtain ⟨hring, free, hfree, hone⟩ := h.relies _ hinside
  have hbooks : Books state.strong state.ring state.lent state.created := by
    have hbooks := h.books
    rw [State.handles, State.clones, hinside] at hbooks
    exact hbooks
  have hdelivered := h.delivered
  rw [hold.inHand, hinside] at hdelivered
  cases rest with
  | nil => cases hfree
  | cons texture rest =>
      have htexture := hring texture List.mem_cons_self
      simp only [State.look]
      split
      case isTrue hcount =>
        apply h.quiet hold
        case hnew => exact fun _ _ hphase => by cases hphase
        case hchannel => rfl
        case hencoding => rfl
        case hbooks => exact hbooks.clone (Or.inl htexture)
        case hintact => exact h.intact
        case hrelies =>
          rintro held ⟨⟩
          exact hbooks.counted.free htexture hcount
        case hfaultless => exact h.faultless
        case hdelivered => exact hdelivered
      case isFalse hcount =>
        apply h.quiet hold
        case hnew => exact fun _ _ hphase => by cases hphase
        case hchannel => rfl
        case hencoding => rfl
        case hbooks => exact hbooks
        case hintact => exact h.intact
        case hrelies =>
          rintro held ⟨⟩
          refine ⟨fun other hmem => hring other (List.mem_cons_of_mem _ hmem),
            free, ?_, hone⟩
          rcases List.mem_cons.mp hfree with rfl | hlater
          · exact absurd hone hcount
          · exact hlater
        case hfaultless => exact h.faultless
        case hdelivered => exact hdelivered

/-- Only a texture that nobody else holds is written. -/
theorem Inv.copy (hdevice : device.Documented) (h : Inv device state)
    {p captureTsUs : ℕ} {picture : α} {texture : ℕ}
    (hinside : state.inside = some (p, .found captureTsUs picture texture)) :
    Inv device { state with
      inside := some (p, .copied captureTsUs picture texture)
      memory := device.copyResource state.memory texture picture } := by
  have hold : Quiet state := by
    intro q other hphase
    rw [hinside] at hphase
    cases hphase
  have hunheld : texture ∉ state.lent := h.relies _ hinside
  have hbooks := h.books
  rw [State.handles, State.clones, hinside] at hbooks
  have hdelivered := h.delivered
  rw [hold.inHand, hinside] at hdelivered
  have hcontents := hdevice.contents_copyResource state.memory texture picture
  apply h.quiet hold
  case hnew => exact fun _ _ hphase => by cases hphase
  case hchannel => rfl
  case hencoding => rfl
  case hbooks => exact hbooks
  case hintact =>
    rw [hcontents]
    exact h.intact.write hunheld (some picture)
  case hrelies =>
    rintro held ⟨⟩
    exact ⟨hunheld, hdevice.copied _ _ _⟩
  case hfaultless => exact h.faultless
  case hdelivered => exact hdelivered

/-! ## The callback in the channel -/

theorem sending_of_submitting {p texture : ℕ}
    (hinside : state.inside = some (p, .submitting texture)) :
    state.sending = (state.channel.producers (p + 1)).carried := by
  rw [State.sending, hinside]

theorem clones_of_submitting {p texture : ℕ}
    (hinside : state.inside = some (p, .submitting texture)) :
    state.clones = [texture] := by
  rw [State.clones, hinside]
  rfl

/-- In a call of the channel the callback relies on nothing. -/
theorem relies_of_submitting {p texture : ℕ} {strong : ℕ → ℕ}
    {ring lent : List ℕ} {contents : ℕ → Option α}
    (hinside : state.inside = some (p, .submitting texture)) :
    ∀ held ∈ state.inside, held.2.Relies strong ring lent contents := by
  rw [hinside]
  rintro held ⟨⟩
  trivial

/-- The frame goes into the channel with a handle of its own. -/
theorem Inv.submit (h : Inv device state) {p captureTsUs : ℕ} {picture : α}
    {texture : ℕ}
    (hinside : state.inside = some (p, .copied captureTsUs picture texture)) :
    Inv device { state.clone texture with
      inside := some (p, .submitting texture)
      channel := FrameChannel.step state.channel
        (.submit (p + 1) (state.captured captureTsUs picture texture)) } := by
  have hold : Quiet state := by
    intro q other hphase
    rw [hinside] at hphase
    cases hphase
  have hcontents := (h.relies _ hinside).2
  have hidle : state.channel.producers (p + 1) = .idle :=
    h.calls.outside p (hold p)
  have hhandles : state.handles = texture :: state.lent := by
    rw [State.handles, State.clones, hinside]
    rfl
  have hdelivered := h.delivered
  rw [hold.inHand, hinside] at hdelivered
  set frame := state.captured captureTsUs picture texture with hframe
  have hchannel : FrameChannel.step state.channel (.submit (p + 1) frame) =
      { state.channel.setProducer (p + 1) (.submitting frame) with
        offered := state.channel.offered + 1 } := by
    simp only [FrameChannel.step, hidle]
  rw [hchannel]
  set state' : State Memory α := { state.clone texture with
    inside := some (p, .submitting texture)
    channel := { state.channel.setProducer (p + 1) (.submitting frame) with
      offered := state.channel.offered + 1 } } with hstate'
  have hinside' : state'.inside = some (p, .submitting texture) := rfl
  have hsending : state'.sending = some frame := by
    rw [sending_of_submitting hinside']
    simp only [hstate', FrameChannel.setProducer_self]
    rfl
  have hframes : state'.frames = frame :: state.frames := by
    rw [State.frames, hsending, hold.frames]
    rfl
  have hhandles' : state'.handles = texture :: state.handles := by
    rw [State.handles, State.lent, hframes, hhandles]
    rfl
  constructor
  case calls =>
    refine ⟨h.calls.control, ?_, h.calls.taken⟩
    intro q hq
    have hne : q + 1 ≠ p + 1 := by
      rintro heq
      obtain rfl := Nat.succ.inj heq
      exact hq texture rfl
    exact (FrameChannel.setProducer_of_ne _ _ hne).trans
      (h.calls.outside q (hold q))
  case books =>
    rw [hhandles']
    exact h.books.clone (Or.inr (hhandles ▸ List.mem_cons_self))
  case intact => rw [hframes]; exact h.intact.lend hcontents
  case relies => exact relies_of_submitting hinside'
  case faultless => exact h.faultless
  case delivered =>
    rw [State.inHand, hsending]
    exact hdelivered

/-- The callback is back from `submit` and drops its own handle. -/
theorem Inv.unlock (h : Inv device state) {p texture : ℕ}
    (hinside : state.inside = some (p, .submitting texture))
    (hidle : state.channel.producers (p + 1) = .idle) :
    Inv device { state.drop texture with inside := none } := by
  have hsending : state.sending = none := by
    rw [sending_of_submitting hinside, hidle]
    rfl
  set state' : State Memory α := { state.drop texture with inside := none }
    with hstate'
  have hframes : state'.frames = state.frames := by
    rw [State.frames, State.frames, hsending]
    rfl
  have hhandles : state'.handles = state.lent :=
    congrArg (List.map Captured.texture) hframes
  constructor
  case calls =>
    refine ⟨h.calls.control, ?_, h.calls.taken⟩
    intro q hq
    by_cases hqp : q = p
    · rw [hqp]
      exact hidle
    · apply h.calls.outside q
      intro other hphase
      rw [hinside] at hphase
      cases hphase
      exact hqp rfl
  case books =>
    have hbooks := h.books
    rw [State.handles, clones_of_submitting hinside] at hbooks
    rw [hhandles]
    exact hbooks.drop
  case intact => rw [hframes]; exact h.intact
  case relies => exact fun held hmem => by cases hmem
  case faultless => exact h.faultless
  case delivered =>
    have hdelivered := h.delivered
    rw [State.inHand, hsending, hinside] at hdelivered
    exact hdelivered

/-- A producer may go on if it is the control thread or the callback inside. -/
theorem Calls.outside_update (h : Calls state) {i : ℕ}
    {next : FrameChannel.Producer (Captured α)}
    (hwho : i = 0 ∨ ∃ p texture, i = p + 1 ∧
      state.inside = some (p, .submitting texture))
    {p : ℕ} (hp : ∀ texture, state.inside ≠ some (p, .submitting texture)) :
    Function.update state.channel.producers i next (p + 1) = .idle := by
  have hne : p + 1 ≠ i := by
    rcases hwho with rfl | ⟨q, texture, rfl, hinside⟩
    · exact Nat.succ_ne_zero p
    · rintro heq
      obtain rfl := Nat.succ.inj heq
      exact hp texture hinside
  rw [Function.update_of_ne hne]
  exact h.outside p hp

/-- A producer's step within a call that stores nothing. -/
theorem Inv.moves (h : Inv device state) {i : ℕ}
    {next : FrameChannel.Producer (Captured α)}
    {channel : FrameChannel.State (Captured α)}
    (hwho : i = 0 ∨ ∃ p texture, i = p + 1 ∧
      state.inside = some (p, .submitting texture))
    (hproducers : channel.producers =
      Function.update state.channel.producers i next)
    (hcarried : next.carried = (state.channel.producers i).carried)
    (hslot : channel.slot = state.channel.slot)
    (hstored : channel.stored = state.channel.stored)
    (hreceiver : state.channel.receiver = .idle → channel.receiver = .idle) :
    Inv device { state with channel := channel } := by
  apply h.channel _ _ hslot hstored fun _ => hreceiver
  · intro j
    rw [hproducers]
    by_cases hj : j = i
    · rw [hj, Function.update_self]
      exact hcarried
    · rw [Function.update_of_ne hj]
  · rw [hproducers]
    exact fun p hp => h.calls.outside_update hwho hp

/-- The frame is in the slot, and the one that was there is dropped. -/
theorem Inv.stores (h : Inv device state) {p texture : ℕ} {frame : Captured α}
    {channel : FrameChannel.State (Captured α)} {strong : ℕ → ℕ}
    (hinside : state.inside = some (p, .submitting texture))
    (hphase : state.channel.producers (p + 1) = .locked frame)
    (hproducers : channel.producers =
      Function.update state.channel.producers (p + 1) .stored)
    (hslot : channel.slot = some frame)
    (hstored : channel.stored = state.channel.stored ++ [frame])
    (hreceiver : channel.receiver = state.channel.receiver)
    (hbooks : Books strong state.ring (texture :: frame.texture ::
      state.encoding.toList.map Captured.texture) state.created) :
    Inv device { state with channel := channel, strong := strong } := by
  set state' : State Memory α :=
    { state with channel := channel, strong := strong } with hstate'
  have hinside' : state'.inside = some (p, .submitting texture) := hinside
  have hsending : state.sending = some frame := by
    rw [sending_of_submitting hinside, hphase]
    rfl
  have hsending' : state'.sending = none := by
    rw [sending_of_submitting hinside']
    simp only [hstate', hproducers, Function.update_self]
    rfl
  have hframes' : state'.frames = frame :: state.encoding.toList := by
    rw [State.frames, hsending']
    simp only [hstate', hslot]
    rfl
  constructor
  case calls =>
    constructor
    · simp only [hstate', hproducers]
      rw [Function.update_of_ne (Nat.succ_ne_zero p).symm]
      exact h.calls.control
    · simp only [hstate', hproducers]
      exact fun q hq =>
        h.calls.outside_update (Or.inr ⟨p, texture, rfl, hinside⟩) hq
    · simp only [hstate', hreceiver]
      exact h.calls.taken
  case books =>
    rw [State.handles, State.lent, clones_of_submitting hinside', hframes']
    exact hbooks
  case intact =>
    apply h.intact.mono
    rw [hframes', State.frames, hsending]
    rintro held hmem
    rcases List.mem_cons.mp hmem with rfl | hencoding
    · exact List.mem_cons_self
    · exact List.mem_append_right _ (List.mem_append_right _ hencoding)
  case relies => exact relies_of_submitting hinside'
  case faultless => exact h.faultless
  case delivered =>
    have hdelivered := h.delivered
    rw [State.inHand, hsending, hinside] at hdelivered
    rw [State.inHand, hsending']
    simp only [hstate', hstored, hinside, List.map_append]
    rw [List.append_assoc]
    exact hdelivered

/-- The handles while the callback inside is about to store a frame. -/
theorem handles_of_locked {p texture : ℕ} {frame : Captured α}
    (hinside : state.inside = some (p, .submitting texture))
    (hphase : state.channel.producers (p + 1) = .locked frame) :
    state.handles = texture :: frame.texture ::
      (state.channel.slot.toList.map Captured.texture ++
        state.encoding.toList.map Captured.texture) := by
  rw [State.handles, State.lent, State.frames, clones_of_submitting hinside,
    sending_of_submitting hinside, hphase, List.map_append, List.map_append]
  rfl

/-- Storing a frame, with the one in the slot before it dropped. -/
theorem Inv.produce_locked (h : Inv device state) {p texture : ℕ}
    {frame : Captured α}
    (hinside : state.inside = some (p, .submitting texture))
    (hphase : state.channel.producers (p + 1) = .locked frame)
    {channel : FrameChannel.State (Captured α)}
    (hchannel : FrameChannel.produce state.channel (p + 1) = channel)
    (hproducers : channel.producers =
      Function.update state.channel.producers (p + 1) .stored)
    (hslot : channel.slot = some frame)
    (hstored : channel.stored = state.channel.stored ++ [frame])
    (hreceiver : channel.receiver = state.channel.receiver) :
    Inv device (state.produce (p + 1)) := by
  have hbooks := h.books
  rw [handles_of_locked hinside hphase] at hbooks
  cases hold : state.channel.slot with
  | none =>
      have hproduce : state.produce (p + 1) =
          { state with channel := channel } := by
        simp only [State.produce, hphase, hold, FrameChannel.step, hchannel]
      rw [hold] at hbooks
      rw [hproduce]
      exact h.stores hinside hphase hproducers hslot hstored hreceiver hbooks
  | some old =>
      have hproduce : state.produce (p + 1) =
          { state.drop old.texture with channel := channel } := by
        simp only [State.produce, hphase, hold, FrameChannel.step, hchannel]
      rw [hold] at hbooks
      rw [hproduce]
      apply h.stores hinside hphase hproducers hslot hstored hreceiver
      apply Books.drop
      apply hbooks.perm
      exact @List.perm_middle _ old.texture [texture, frame.texture] _

theorem Inv.produce (h : Inv device state) (i : ℕ) :
    Inv device (state.produce i) := by
  have hidle : state.channel.producers i = .idle →
      state.produce i = state := by
    intro hphase
    simp only [State.produce, hphase, FrameChannel.step,
      FrameChannel.produce_of_idle hphase]
  have hproduced := FrameChannel.produced state.channel i
  by_cases hwho : i = 0 ∨ ∃ p texture, i = p + 1 ∧
      state.inside = some (p, .submitting texture)
  case neg =>
    have hquiet : state.channel.producers i = .idle := by
      obtain ⟨p, rfl⟩ := Nat.exists_eq_succ_of_ne_zero fun hzero =>
        hwho (Or.inl hzero)
      exact h.calls.outside p fun texture hinside =>
        hwho (Or.inr ⟨p, texture, rfl, hinside⟩)
    rw [hidle hquiet]
    exact h
  case pos =>
    cases hproduced with
    | moves next hproducers hcarried hlocked hslot hstored hreceiver =>
        have hproduce : state.produce i = { state with
            channel := FrameChannel.produce state.channel i } := by
          unfold State.produce
          dsimp only
          split
          case h_1 frame old hphase hold => exact absurd hphase (hlocked frame)
          case h_2 => rfl
        rw [hproduce]
        exact h.moves hwho hproducers hcarried hslot hstored hreceiver
    | stores frame hphase hproducers hslot hstored hreceiver =>
        rcases hwho with rfl | ⟨p, texture, rfl, hinside⟩
        · have hcontrol := h.calls.control
          rw [hphase] at hcontrol
          cases hcontrol
        · exact h.produce_locked hinside hphase rfl hproducers hslot hstored
            hreceiver

/-! ## The encode thread -/

/-- The encode thread takes the frame out of the slot. -/
theorem Inv.takes (h : Inv device state)
    {channel : FrameChannel.State (Captured α)} {frame : Captured α}
    (hproducers : channel.producers = state.channel.producers)
    (hbefore : state.channel.slot = some frame) (hslot : channel.slot = none)
    (hstored : channel.stored = state.channel.stored)
    (hbusy : state.channel.receiver ≠ .idle)
    (hreceiver : channel.receiver = .idle) :
    Inv device
      { state with channel := channel, encoding := some frame } := by
  have hnone : state.encoding = none := by
    by_contra hsome
    exact hbusy (h.calls.taken (Option.isSome_iff_ne_none.mpr hsome))
  set state' : State Memory α :=
    { state with channel := channel, encoding := some frame } with hstate'
  have hsending : state'.sending = state.sending := by
    simp only [hstate', State.sending, hproducers]
  have hframes : state'.frames = state.frames := by
    rw [State.frames, State.frames, hsending, hnone, hbefore]
    simp only [hstate', hslot]
    rfl
  have hlent : state'.lent = state.lent :=
    congrArg (List.map Captured.texture) hframes
  constructor
  case calls =>
    constructor
    · simp only [hstate', hproducers]
      exact h.calls.control
    · simp only [hstate', hproducers]
      exact h.calls.outside
    · exact fun _ => hreceiver
  case books =>
    rw [State.handles, hlent]
    exact h.books
  case intact => rw [hframes]; exact h.intact
  case relies => rw [hlent]; exact h.relies
  case faultless => exact h.faultless
  case delivered =>
    rw [State.inHand, hsending]
    simp only [hstate', hstored]
    exact h.delivered

/-- The frame in the slot becomes the encode thread's. -/
theorem Inv.receive (h : Inv device state) :
    Inv device (step device state .receive) := by
  have hreceived := FrameChannel.received state.channel
  simp only [step, FrameChannel.step]
  cases hreceived with
  | waits hproducers hslot hstored hreceiver hanswered =>
      rw [hanswered, Option.none_or]
      apply h.channel _ _ hslot hstored fun _ => hreceiver
      · rw [hproducers]
        exact fun _ => rfl
      · rw [hproducers]
        exact h.calls.outside
  | takes frame hproducers hbefore hslot hstored hbusy hreceiver hanswered =>
      rw [hanswered, Option.some_or]
      exact h.takes hproducers hbefore hslot hstored hbusy hreceiver

/-- What the callback relies on is not hurt when a handle is dropped. -/
theorem Inv.relies_release (h : Inv device state) {texture : ℕ}
    {kept : List ℕ} (hheld : texture ∈ state.handles)
    (hkept : ∀ other ∈ kept, other ∈ state.lent) {held : ℕ × Callback α}
    (hinside : held ∈ state.inside) :
    held.2.Relies (Function.update state.strong texture
      (state.strong texture - 1)) state.ring kept
        (device.contents state.memory) := by
  have hrelies := h.relies held hinside
  obtain ⟨p, callback⟩ := held
  cases callback with
  | locked | submitting => trivial
  | scanning captureTsUs picture rest =>
      obtain ⟨hring, free, hfree, hone⟩ := hrelies
      refine ⟨hring, free, hfree, ?_⟩
      -- a texture that is free already is not the one that is dropped
      have hne : free ≠ texture := by
        rintro rfl
        exact h.books.counted.free (hring _ hfree) hone hheld
      exact (Function.update_of_ne hne ..).trans hone
  | found captureTsUs picture other =>
      exact fun hmem => hrelies (hkept other hmem)
  | copied captureTsUs picture other =>
      exact ⟨fun hmem => hrelies.1 (hkept other hmem), hrelies.2⟩

/-- The encode thread is done with its frame. -/
theorem Inv.release (h : Inv device state) {frame : Captured α}
    (hencoding : state.encoding = some frame) :
    Inv device { state.drop frame.texture with encoding := none } := by
  set state' : State Memory α :=
    { state.drop frame.texture with encoding := none } with hstate'
  have hframes : state.frames = state'.frames ++ [frame] := by
    simp only [State.frames, hencoding, List.append_assoc]
    rfl
  have hlent : state.lent = state'.lent ++ [frame.texture] := by
    rw [State.lent, hframes, List.map_append]
    rfl
  have hhandles : state.handles.Perm (frame.texture :: state'.handles) := by
    rw [State.handles, hlent, ← List.append_assoc]
    exact List.perm_append_singleton ..
  constructor
  case calls =>
    exact ⟨h.calls.control, h.calls.outside, fun hsome => by cases hsome⟩
  case books => exact (h.books.perm hhandles).drop
  case intact =>
    apply h.intact.mono
    rw [hframes]
    exact fun held hmem => List.mem_append_left _ hmem
  case relies =>
    intro held hinside
    apply h.relies_release _ _ hinside
    · exact hhandles.mem_iff.mpr List.mem_cons_self
    · rw [hlent]
      exact fun other hmem => List.mem_append_left _ hmem
  case faultless => exact h.faultless
  case delivered => exact h.delivered

/-- The encoder sees the picture that the frame was captured from. -/
theorem Inv.read (h : Inv device state) {frame : Captured α}
    (hencoding : state.encoding = some frame) :
    Inv device { state with
      reads := state.reads ++
        [(frame, device.contents state.memory frame.texture)] } := by
  have hheld : frame ∈ state.frames := by
    rw [State.frames, hencoding]
    exact List.mem_append_right _ (List.mem_append_right _
      List.mem_cons_self)
  have hshown : device.contents state.memory frame.texture =
      some frame.picture := h.intact frame hheld
  constructor
  case calls => exact ⟨h.calls.control, h.calls.outside, h.calls.taken⟩
  case books => exact h.books
  case intact => exact h.intact
  case relies => exact h.relies
  case faultless =>
    refine ⟨h.faultless.unsaturated, ?_⟩
    intro entry hentry
    rcases List.mem_append.mp hentry with hearlier | hnow
    · exact h.faultless.reads entry hearlier
    · obtain rfl := List.mem_singleton.mp hnow
      exact hshown
  case delivered => exact h.delivered

/-! ## Every step -/

/-- A callback waits for the lock. -/
theorem Inv.waits (h : Inv device state) (waiting : ℕ → Option ℕ) :
    Inv device { state with waiting := waiting } where
  calls := ⟨h.calls.control, h.calls.outside, h.calls.taken⟩
  books := h.books
  intact := h.intact
  relies := h.relies
  faultless := h.faultless
  delivered := h.delivered

/-- The receiver alone goes on, without an answer. -/
theorem Inv.receiver (h : Inv device state) {receiver : FrameChannel.Receiver}
    (hidle : state.encoding.isSome = true → state.channel.receiver = .idle →
      receiver = .idle) :
    Inv device { state with
      channel := { state.channel with receiver := receiver } } :=
  h.channel (fun _ => rfl) h.calls.outside rfl rfl hidle

/-- A wait of the receiver ends without a notification. -/
theorem Inv.wakes (h : Inv device state) (timedOut : Bool) :
    Inv device { state with
      channel :=
        if state.channel.receiver = .waiting then
          { state.channel with receiver := .woken timedOut }
        else state.channel } := by
  split
  case isTrue hwaiting =>
    apply h.receiver
    intro _ hidle
    rw [hidle] at hwaiting
    cases hwaiting
  case isFalse => exact h

/-- The encode thread asks for a frame. -/
theorem Inv.recvLatest (h : Inv device state) :
    Inv device (step device state .recvLatest) := by
  simp only [step]
  split
  case h_1 hencoding =>
    simp only [FrameChannel.step]
    split
    · apply h.receiver
      intro hsome
      rw [hencoding] at hsome
      cases hsome
    · exact h
  case h_2 => exact h

theorem Inv.close (h : Inv device state) :
    Inv device (step device state .close) := by
  simp only [step, FrameChannel.step]
  split
  case h_1 hphase =>
    have hproducers : Function.update state.channel.producers 0
        .closing = (state.channel.setProducer 0 .closing).producers := rfl
    exact h.moves (Or.inl rfl) hproducers.symm (by rw [hphase]; rfl) rfl rfl id
  case h_2 => exact h

theorem Inv.step (hdevice : device.Documented) (h : Inv device state)
    (event : Event α) : Inv device (step device state event) := by
  cases event with
  | arrived p captureTsUs =>
      simp only [TextureRing.step]
      split
      case isTrue => exact h
      case isFalse => exact h.waits _
  | lock p =>
      simp only [TextureRing.step]
      split
      case h_1 captureTsUs hinside hwaiting =>
        exact h.idle (idle_of_none hinside) (Or.inr ⟨p, captureTsUs, rfl⟩)
      case h_2 => exact h
  | deliver pulled created =>
      simp only [TextureRing.step]
      split
      case h_1 p captureTsUs hinside => exact h.deliver hinside pulled created
      case h_2 => exact h
  | look =>
      simp only [TextureRing.step]
      split
      case h_1 p captureTsUs picture rest hinside => exact h.look hinside
      case h_2 => exact h
  | copy =>
      simp only [TextureRing.step]
      split
      case h_1 p captureTsUs picture texture hinside => exact h.copy hdevice hinside
      case h_2 => exact h
  | submit =>
      simp only [TextureRing.step]
      split
      case h_1 p captureTsUs picture texture hinside => exact h.submit hinside
      case h_2 => exact h
  | produce i => exact h.produce i
  | unlock =>
      simp only [TextureRing.step]
      split
      case h_1 p texture hinside =>
        split
        case h_1 hidle => exact h.unlock hinside hidle
        case h_2 => exact h
      case h_2 => exact h
  | close => exact h.close
  | recvLatest => exact h.recvLatest
  | receive => exact h.receive
  | spurious => exact h.wakes false
  | timeout => exact h.wakes true
  | read =>
      simp only [TextureRing.step]
      split
      case h_1 frame hencoding => exact h.read hencoding
      case h_2 => exact h
  | release =>
      simp only [TextureRing.step]
      split
      case h_1 frame hencoding => exact h.release hencoding
      case h_2 => exact h

/-- `deliver` does not get as far as the channel. -/
theorem channel_deliver (p captureTsUs : ℕ) (pulled : Pulled α)
    (created : Bool) :
    (state.deliver p captureTsUs pulled created).channel = state.channel := by
  cases pulled with
  | failed => rfl
  | frame content picture =>
      simp only [State.deliver]
      split
      case isTrue => rfl
      case isFalse =>
        split
        case h_1 => rfl
        case h_2 built hbuilt =>
          rw [State.buildRing] at hbuilt
          split_ifs at hbuilt <;> obtain rfl := Option.some.inj hbuilt
          · rfl
          · rfl

theorem channel_look (p captureTsUs : ℕ) (picture : α) (rest : List ℕ) :
    (state.look p captureTsUs picture rest).channel = state.channel := by
  cases rest with
  | nil => rfl
  | cons texture rest =>
      simp only [State.look]
      split <;> rfl

/-- The channel takes its own steps only. -/
theorem channel_step (state : State Memory α) (event : Event α) :
    (step device state event).channel = state.channel ∨
      ∃ moved, (step device state event).channel =
        FrameChannel.step state.channel moved := by
  cases event with
  | arrived p captureTsUs =>
      simp only [TextureRing.step]
      split <;> exact Or.inl rfl
  | lock p =>
      simp only [TextureRing.step]
      split <;> exact Or.inl rfl
  | deliver pulled created =>
      simp only [TextureRing.step]
      split
      case h_1 p captureTsUs hinside =>
        exact Or.inl (channel_deliver p captureTsUs pulled created)
      case h_2 => exact Or.inl rfl
  | look =>
      simp only [TextureRing.step]
      split
      case h_1 p captureTsUs picture rest hinside =>
        exact Or.inl (channel_look p captureTsUs picture rest)
      case h_2 => exact Or.inl rfl
  | copy =>
      simp only [TextureRing.step]
      split <;> exact Or.inl rfl
  | submit =>
      simp only [TextureRing.step]
      split
      case h_1 p captureTsUs picture texture hinside =>
        exact Or.inr ⟨.submit (p + 1)
          (state.captured captureTsUs picture texture), rfl⟩
      case h_2 => exact Or.inl rfl
  | produce i =>
      right
      refine ⟨.produce i, ?_⟩
      simp only [TextureRing.step, State.produce]
      split <;> rfl
  | unlock =>
      simp only [TextureRing.step]
      split
      · split <;> exact Or.inl rfl
      · exact Or.inl rfl
  | close => exact Or.inr ⟨.close 0, rfl⟩
  | recvLatest =>
      simp only [TextureRing.step]
      split
      · exact Or.inr ⟨.recvLatest, rfl⟩
      · exact Or.inl rfl
  | receive => exact Or.inr ⟨.receive, rfl⟩
  | spurious => exact Or.inr ⟨.spurious, rfl⟩
  | timeout => exact Or.inr ⟨.timeout, rfl⟩
  | read =>
      simp only [TextureRing.step]
      split <;> exact Or.inl rfl
  | release =>
      simp only [TextureRing.step]
      split <;> exact Or.inl rfl

theorem accounted_step (state : State Memory α) (event : Event α)
    (haccounted : FrameChannel.Accounted state.channel) :
    FrameChannel.Accounted (step device state event).channel := by
  rcases @channel_step _ _ device state event with hsame | ⟨moved, hmoved⟩
  · rw [hsame]
    exact haccounted
  · rw [hmoved]
    exact FrameChannel.step_accounted _ moved haccounted

end Steps

/-- In every interleaving of the capture callbacks with the encode thread,
whatever the encoder reads in the texture of a frame is the picture which that
frame was captured from, no callback finds the ring saturated, and the encode
thread gets delivered pictures only, in their order and none of them twice. -/
theorem foldl_step_reads {device : Device Memory α}
    (hdevice : device.Documented) (size : Size) (memory : Memory)
    (events : List (Event α)) :
    let state := events.foldl (step device) (start size memory)
    (∀ entry ∈ state.reads, entry.2 = some entry.1.picture) ∧
      state.ringSaturated = 0 ∧
      (state.channel.returned.reduceOption.map Captured.picture).Sublist
        state.delivered := by
  intro state
  have hinv : Inv device state :=
    EventRun.foldl_preserves (fun _ event h => h.step hdevice event) events
      (start_inv device size memory)
  have haccounted : FrameChannel.Accounted state.channel := by
    have hstep : ∀ (state : State Memory α) event,
        FrameChannel.Accounted state.channel →
        FrameChannel.Accounted (step device state event).channel :=
      accounted_step
    exact EventRun.foldl_preserves hstep events
      FrameChannel.start_accounted
  refine ⟨hinv.faultless.reads, hinv.faultless.unsaturated, ?_⟩
  rw [← hinv.delivered]
  have hreturned := (List.sublist_append_left ..).trans haccounted.order
  exact (hreturned.map Captured.picture).trans (List.sublist_append_left ..)

/-- Two callbacks deliver a picture each, the second one while the first one's
frame is still in the slot, and the encoder reads the second picture. -/
def twice : List (Event ℕ) :=
  let callback (p picture : ℕ) : List (Event ℕ) :=
    [.arrived p 7, .lock p, .deliver (.frame ⟨1280, 720⟩ picture) true,
      .look, .look, .copy, .submit, .produce (p + 1), .produce (p + 1),
      .produce (p + 1), .produce (p + 1), .unlock]
  callback 0 41 ++ callback 1 42 ++
    [.recvLatest, .receive, .receive, .read, .release]

/-- The encoder reads what the second frame was captured from. -/
theorem foldl_step_reads_twice :
    let state := twice.foldl (step Device.table)
      (start ⟨1280, 720⟩ fun _ => none)
    state.reads.map (fun entry => (entry.1.picture, entry.2)) =
        [(42, some 42)] ∧
      state.ringSaturated = 0 ∧
      (state.channel.returned.reduceOption.map Captured.picture).Sublist
        [41, 42] := by
  obtain ⟨hreads, hsaturated, hreturned⟩ := foldl_step_reads
    Device.documented_table ⟨1280, 720⟩ (fun _ => none) twice
  have hpictures : (twice.foldl (step Device.table)
      (start ⟨1280, 720⟩ fun _ => none)).reads.map
        (fun entry => entry.1.picture) = [42] := by decide
  refine ⟨?_, hsaturated, hreturned⟩
  calc _ = (twice.foldl (step Device.table)
        (start ⟨1280, 720⟩ fun _ => none)).reads.map
          (fun entry => (entry.1.picture, some entry.1.picture)) := by
        apply List.map_congr_left
        intro entry hentry
        rw [hreads entry hentry]
    _ = ((twice.foldl (step Device.table)
        (start ⟨1280, 720⟩ fun _ => none)).reads.map
          fun entry => entry.1.picture).map
            fun picture => (picture, some picture) := by
        rw [List.map_map]
        rfl
    _ = [(42, some 42)] := by
        rw [hpictures]
        rfl

end GameStreamer.Capture.TextureRing
