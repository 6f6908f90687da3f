import GameStreamer.Encode.EncodeThread
import GameStreamer.Encode.Nvenc
import GameStreamer.Encode.Sw
import GameStreamer.Encode.VideoToolbox

/-!
# The applied bitrate

The thread keeps the rate that it takes for applied, and calls `update_rate`
on the next frame as long as the target differs from it.  This module says
when the encoder really runs at that rate.  The software back end and
VideoToolbox ask on every call; NVENC answers from its config where the config
already has the target, also after the driver has refused it.
-/

namespace GameStreamer.Encode

open EncodeThread

section Thread

variable {Enc Answer Background : Type}
  (backend : Encoder Enc Answer Background)

/-- How a back end keeps its rate: the rate that it really runs at, what it
means that it agrees with the thread, and when `update_rate` does not answer
from recorded state. -/
structure RateKeeping where
  realRate : Enc → Option UInt32
  Agreed : Enc → UInt32 → Prop
  Asks : Enc → UInt32 → Prop
  real : ∀ {encoder rate}, Agreed encoder rate → realRate encoder = some rate
  opens : ∀ {cfg answer encoder},
    backend.openWith backend.new cfg answer = (encoder, .ok ()) →
      Agreed encoder cfg.bitrateBps
  granted : ∀ {encoder rate target answer after}, Agreed encoder rate →
    Asks encoder target →
      backend.updateRate encoder target answer = (after, .ok ()) →
        Agreed after target
  refused : ∀ {encoder rate target answer after error}, Agreed encoder rate →
    backend.updateRate encoder target answer = (after, .error error) →
      Agreed after rate
  submit : ∀ {encoder rate} frame directives answer, Agreed encoder rate →
    Agreed (backend.submit encoder frame directives answer).1 rate
  polls : ∀ {encoder rate}, Agreed encoder rate →
    Agreed (backend.pollBitstream encoder).1 rate
  background : ∀ {encoder rate} input, Agreed encoder rate →
    Agreed (backend.background encoder input).1 rate

namespace RateKeeping

variable {backend} (keeping : RateKeeping backend)

/-- Where the applied rate is the target, the encoder really runs at it. -/
def Truthful (state : State Enc) : Prop :=
  state.appliedBitrate = state.bitrate →
    keeping.realRate state.encoder = some state.bitrate

/-- A pass that finds a new target does not get its answer from recorded
state. -/
def Fresh (state : State Enc) : Event Answer Background → Prop
  | .submit _ _ =>
      state.phase = .capturing → state.bitrate ≠ state.appliedBitrate →
        keeping.Asks state.encoder state.bitrate
  | _ => True

/-- The encoder runs at the applied rate. -/
def Sound (state : State Enc) : Prop :=
  keeping.Agreed state.encoder state.appliedBitrate

variable {keeping}

theorem Sound.truthful {state : State Enc} (h : keeping.Sound state) :
    keeping.Truthful state := by
  intro happlied
  rw [← happlied]
  exact keeping.real h

theorem sound_start {cfg : EncodeConfig} {answer : Answer}
    (hopen : (start backend cfg answer).phase = .capturing) :
    keeping.Sound (start backend cfg answer) := by
  rw [start] at hopen ⊢
  rcases h : backend.openWith backend.new cfg answer with ⟨encoder, result⟩
  rw [h] at hopen
  cases result with
  | error error => cases hopen
  | ok opened => exact keeping.opens h

theorem Sound.applyRate {state : State Enc} (h : keeping.Sound state)
    (answer : Answer) (hasks : state.bitrate ≠ state.appliedBitrate →
      keeping.Asks state.encoder state.bitrate) :
    keeping.Sound (EncodeThread.applyRate backend state answer) := by
  rw [EncodeThread.applyRate]
  split
  case isTrue => exact h
  case isFalse hnew =>
      split
      case h_1 encoder hrate => exact keeping.granted h (hasks hnew) hrate
      case h_2 encoder error hrate => exact keeping.refused h hrate

theorem Sound.of_rates {state after : State Enc} {encoder : Enc}
    (hkept : RatesKept state after encoder)
    (h : keeping.Agreed encoder state.appliedBitrate) :
    keeping.Sound after := by
  rw [Sound, hkept.encoder, hkept.applied]
  exact h

theorem sound_step {state : State Enc} {event : Event Answer Background}
    (h : keeping.Sound state) (hfresh : keeping.Fresh state event) :
    keeping.Sound (step backend state event) := by
  cases event with
  | requestKeyframe => exact h
  | requestRecovery lastGood => exact h
  | setBitrate bitrateBps => exact h
  | background input => exact keeping.background input h
  | submit frame answer =>
      rw [step]
      split
      case isTrue hphase =>
          obtain ⟨_, _, hkept⟩ := pass_rates state frame answer
          have hrate := h.applyRate answer (hfresh hphase)
          exact .of_rates hkept (keeping.submit _ _ _ hrate)
      case isFalse => exact h
  | nextChunk sent =>
      rw [step]
      split
      case isTrue => exact .of_rates (drain_rates state sent) (keeping.polls h)
      case isFalse => exact h
  | sweep sent =>
      rw [step]
      split
      case isTrue =>
          exact .of_rates (sweepOne_rates state sent) (keeping.polls h)
      case isFalse => exact h
  | stop =>
      rw [step]
      split
      case isTrue => exact h
      case isFalse => exact h

/-- A back end that asks on every call is truthful in every state that a run
reaches. -/
theorem along_truthful (hasks : ∀ encoder target, keeping.Asks encoder target)
    {cfg : EncodeConfig} {answer : Answer}
    (hopen : (start backend cfg answer).phase = .capturing)
    (events : List (Event Answer Background)) :
    EventRun.Along (step backend)
      (fun state event => keeping.Truthful (step backend state event))
      (start backend cfg answer) events := by
  have hfresh : ∀ state event, keeping.Fresh state event := by
    intro state event
    cases event with
    | submit frame answer => exact fun _ _ => hasks _ _
    | _ => trivial
  have hall : EventRun.Along (step backend) keeping.Fresh
      (start backend cfg answer) events := by
    generalize start backend cfg answer = state
    induction events generalizing state with
    | nil => trivial
    | cons event events ih => exact ⟨hfresh state event, ih _⟩
  exact EventRun.along_of_along keeping.Sound
    (fun _ _ => sound_step)
    (fun _ _ h hmet => (sound_step h hmet).truthful) (sound_start hopen) hall

end RateKeeping

end Thread

/-! ## The back ends that ask on every call -/

namespace Sw

def realRate (encoder : SwEncoder) : Option UInt32 :=
  encoder.state.map Open.encoder

theorem realRate_submit (encoder : SwEncoder) (frame : GpuFrame)
    (directives : FrameDirectives) (codec : OpenH264) :
    realRate (submit encoder frame directives codec).1 = realRate encoder := by
  rcases submit_cases encoder frame directives codec with
    ⟨after, error, h, hstate⟩ | ⟨after, encoded, h, hstate, -⟩ |
    ⟨state, encoded, chunk, h, hstate, -⟩
  · rw [h, realRate, hstate, realRate]
  · rw [h, realRate, hstate, realRate]
  · rw [h, realRate, realRate, hstate]
    rfl

def rateKeeping : RateKeeping backend where
  realRate := realRate
  Agreed encoder rate := realRate encoder = some rate
  Asks _ _ := True
  real := id
  opens h := by
    rw [eq_of_openWith h]
    rfl
  granted {encoder rate target codec after} _ _ h := by
    change updateRate encoder target codec = _ at h
    rcases updateRate_cases encoder target codec with
      ⟨error, hafter⟩ | ⟨state, -, hafter⟩
    · rw [hafter] at h
      cases h
    · rw [hafter] at h
      cases h
      rfl
  refused {encoder rate target codec after error} hagreed h := by
    change updateRate encoder target codec = _ at h
    rcases updateRate_cases encoder target codec with
      ⟨error, hafter⟩ | ⟨state, -, hafter⟩
    · rw [hafter] at h
      cases h
      exact hagreed
    · rw [hafter] at h
      cases h
  submit frame directives codec hagreed :=
    (realRate_submit _ frame directives codec).trans hagreed
  polls {encoder rate} hagreed := by
    change realRate (pollBitstream encoder).1 = _
    rw [← hagreed, realRate, realRate, pollBitstream, Option.map_map]
    rfl
  background input _ := input.elim

end Sw

namespace VideoToolbox

def rateKeeping : RateKeeping backend where
  realRate := VideoToolboxEncoder.session
  Agreed encoder rate := encoder.session = some rate
  Asks _ _ := True
  real := id
  opens h := by rw [eq_of_openWith h]
  granted {encoder rate target framework after} _ _ h := by
    change updateRate encoder target framework = _ at h
    rcases updateRate_cases encoder target framework with
      ⟨error, hafter⟩ | hafter
    · rw [hafter] at h
      cases h
    · rw [hafter] at h
      cases h
      rfl
  refused {encoder rate target framework after error} hagreed h := by
    change updateRate encoder target framework = _ at h
    rcases updateRate_cases encoder target framework with
      ⟨error, hafter⟩ | hafter
    · rw [hafter] at h
      cases h
      exact hagreed
    · rw [hafter] at h
      cases h
  submit {encoder rate} frame directives framework hagreed := by
    change (submit encoder frame directives framework).1.session = _
    rcases submit_cases encoder frame directives framework with
      ⟨flag, error, h⟩ | h
    · rw [h]
      exact hagreed
    · rw [h]
      exact hagreed
  polls hagreed := hagreed
  background {encoder rate} call hagreed := by
    change (handle encoder call).1.session = _
    rcases handle_cases encoder call with
      ⟨-, h⟩ | ⟨handler, rest, -, -, h⟩ |
      ⟨handler, rest, chunk, -, -, -, -, h⟩
    · rw [h]
      exact hagreed
    · rw [h]
      exact hagreed
    · rw [h]
      exact hagreed

end VideoToolbox

/-! ## NVENC -/

namespace Nvenc

/-- The rate that the driver accepted last, or the one that the session will
open with. -/
def realRate (encoder : NvencEncoder) : Option UInt32 :=
  match encoder.session with
  | some session => some session.driver.averageBitRate
  | none => encoder.config.map EncodeConfig.bitrateBps

theorem realRate_of_session {encoder : NvencEncoder} {session : Session}
    (h : encoder.session = some session) :
    realRate encoder = some session.driver.averageBitRate := by
  rw [realRate, h]

theorem realRate_of_none {encoder : NvencEncoder}
    (h : encoder.session = none) :
    realRate encoder = encoder.config.map EncodeConfig.bitrateBps := by
  rw [realRate, h]

/-- The session is open and the config already has the target. -/
def Recorded (encoder : NvencEncoder) (target : UInt32) : Prop :=
  encoder.session.isSome = true ∧
    ∃ cfg ∈ encoder.config, cfg.bitrateBps = target

instance (encoder : NvencEncoder) (target : UInt32) :
    Decidable (Recorded encoder target) :=
  inferInstanceAs (Decidable (_ ∧ ∃ _ ∈ _, _))

structure Agreed (encoder : NvencEncoder) (rate : UInt32) : Prop where
  isOpen : encoder.config.isSome = true
  real : realRate encoder = some rate

theorem agreed_submit {encoder : NvencEncoder} {rate : UInt32}
    (frame : GpuFrame) (directives : FrameDirectives) (driver : Driver)
    (h : Agreed encoder rate) :
    Agreed (submit encoder frame directives driver).1 rate := by
  obtain ⟨hconfig, hsession⟩ := submit_session encoder frame directives driver
  refine ⟨by rw [hconfig]; exact h.isOpen, ?_⟩
  rw [← h.real, realRate, realRate]
  rcases hsession with hsame | ⟨cfg, hnone, hcfg, hopened⟩
  · rw [hsame, hconfig]
  · rw [hopened, hnone, hcfg]
    rfl

/-- An `update_rate` that does not find the target recorded asks the driver or
sets the rate that the session will open with. -/
theorem agreed_updateRate {encoder after : NvencEncoder} {rate target : UInt32}
    {driver : Driver} {result : Except EncodeError Unit}
    (h : Agreed encoder rate)
    (hupdate : updateRate encoder target driver = (after, result)) :
    (result = .ok () → ¬Recorded encoder target → Agreed after target) ∧
      (∀ error, result = .error error → Agreed after rate) := by
  obtain ⟨cfg, hconfig⟩ := Option.isSome_iff_exists.mp h.isOpen
  have hreal := h.real
  rcases updateRate_cases hconfig target driver with
    ⟨hsame, hafter⟩ | ⟨-, hsession, hafter⟩ | ⟨session, -, hsession, hafter⟩
  · rw [hafter] at hupdate
    cases hupdate
    refine ⟨fun _ hasks => ⟨h.isOpen, ?_⟩, fun error herror => nomatch herror⟩
    cases hsession : encoder.session with
    | none => rw [realRate_of_none hsession, hconfig, Option.map_some, hsame]
    | some session =>
        refine absurd ⟨?_, cfg, hconfig, hsame⟩ hasks
        rw [hsession]
        rfl
  · rw [hafter] at hupdate
    cases hupdate
    exact ⟨fun _ _ => ⟨rfl, realRate_of_none hsession⟩,
      fun error herror => nomatch herror⟩
  · rw [hafter] at hupdate
    cases hupdate
    rw [realRate_of_session hsession] at hreal
    rcases (reconfigure_cases session target driver.reconfigure).2 with
      ⟨hok, hdriver⟩ | ⟨⟨refusal, herr⟩, hdriver⟩
    · refine ⟨fun _ _ => ⟨rfl, congrArg some hdriver⟩, fun error herror => ?_⟩
      rw [hok] at herror
      cases herror
    · refine ⟨fun hresult => ?_, fun _ _ => ⟨rfl, ?_⟩⟩
      · rw [herr] at hresult
        cases hresult
      · rw [← hreal, ← hdriver]
        rfl

def rateKeeping : RateKeeping backend where
  realRate := realRate
  Agreed := Agreed
  Asks encoder target := ¬Recorded encoder target
  real h := h.real
  opens {cfg driver encoder} h := by
    change openWith new cfg = _ at h
    rw [openWith] at h
    split_ifs at h
    · cases h
    · cases h
    · cases h
      exact ⟨rfl, rfl⟩
  granted h hasks hupdate := (agreed_updateRate h hupdate).1 rfl hasks
  refused h hupdate := (agreed_updateRate h hupdate).2 _ rfl
  submit := agreed_submit
  polls h := ⟨h.isOpen, h.real⟩
  background input _ := input.elim

instance (state : State NvencEncoder) :
    Decidable (rateKeeping.Truthful state) :=
  inferInstanceAs (Decidable (_ → realRate state.encoder = _))

instance (state : State NvencEncoder) (event : Event Driver Empty) :
    Decidable (rateKeeping.Fresh state event) :=
  match event with
  | .submit _ _ =>
      inferInstanceAs (Decidable (_ → _ → ¬Recorded state.encoder _))
  | .requestKeyframe => isTrue trivial
  | .requestRecovery _ => isTrue trivial
  | .setBitrate _ => isTrue trivial
  | .background _ => isTrue trivial
  | .nextChunk _ => isTrue trivial
  | .sweep _ => isTrue trivial
  | .stop => isTrue trivial

/-- A pass that finds a new target while the session is open asks the driver;
so does, in particular, the pass after a refusal. -/
def AsksDriver (state : State NvencEncoder) (event : Event Driver Empty) :
    Prop :=
  match event with
  | .submit _ _ =>
      state.phase = .capturing → state.bitrate ≠ state.appliedBitrate →
        ∀ session ∈ state.encoder.session,
          ∃ asked ∈ (step backend state event).encoder.session,
            asked.reconfigures = session.reconfigures + 1
  | _ => True

/-- Past `applyRate` an open session stays as it is. -/
theorem session_pass {state : State NvencEncoder} {driver : Driver}
    {session : Session}
    (h : (applyRate backend state driver).encoder.session = some session)
    (frame : GpuFrame) :
    (submitFrame backend (prepare backend state driver) frame
      driver).encoder.session = some session := by
  obtain ⟨frame', directives, hkept⟩ :
      ∃ frame' directives, RatesKept (applyRate backend state driver) _ _ :=
    pass_rates state frame driver
  rw [hkept.encoder]
  rcases (submit_session _ frame' directives driver).2 with
    hsame | ⟨cfg, hnone, -⟩
  · exact hsame.trans h
  · rw [h] at hnone
    cases hnone

/-- A pass that finds the target recorded takes it for applied. -/
theorem not_truthful_of_recorded {state : State NvencEncoder}
    (h : rateKeeping.Sound state) (hphase : state.phase = .capturing)
    (hnew : state.bitrate ≠ state.appliedBitrate)
    (hrecorded : Recorded state.encoder state.bitrate) (frame : GpuFrame)
    (driver : Driver) :
    ¬rateKeeping.Truthful (step backend state (.submit frame driver)) := by
  obtain ⟨hopen, cfg, hconfig, hsame⟩ := hrecorded
  obtain ⟨session, hsession⟩ := Option.isSome_iff_exists.mp hopen
  have hrate : applyRate backend state driver =
      { state with appliedBitrate := state.bitrate } := by
    have hupdate : backend.updateRate state.encoder state.bitrate driver =
        (state.encoder, .ok ()) := by
      rcases updateRate_cases hconfig state.bitrate driver with
        ⟨-, hafter⟩ | ⟨hne, -⟩ | ⟨_, hne, -⟩
      · exact hafter
      · exact absurd hsame hne
      · exact absurd hsame hne
    rw [applyRate, if_neg hnew, hupdate]
  have hafter : (step backend state (.submit frame driver)).encoder.session =
      some session := by
    rw [step, if_pos hphase]
    exact session_pass (by rw [hrate]; exact hsession) frame
  have hreal : realRate (step backend state (.submit frame driver)).encoder =
      some state.appliedBitrate := by
    rw [realRate_of_session hafter, ← realRate_of_session hsession]
    exact Agreed.real h
  have happlied : (step backend state (.submit frame driver)).appliedBitrate =
        state.bitrate ∧
      (step backend state (.submit frame driver)).bitrate = state.bitrate := by
    obtain ⟨_, _, hkept⟩ :
        ∃ frame' directives, RatesKept (applyRate backend state driver) _ _ :=
      pass_rates state frame driver
    rw [step, if_pos hphase, hkept.applied, hkept.target, hrate]
    exact ⟨rfl, rfl⟩
  intro htruthful
  have hclaimed := htruthful (happlied.1.trans happlied.2.symm)
  rw [happlied.2] at hclaimed
  exact hnew (Option.some.inj (hclaimed.symm.trans hreal))

theorem asksDriver_of_fresh {state : State NvencEncoder}
    {event : Event Driver Empty} (h : rateKeeping.Sound state)
    (hfresh : rateKeeping.Fresh state event) : AsksDriver state event := by
  cases event with
  | submit frame driver =>
      intro hphase hnew session hsession
      obtain ⟨cfg, hconfig⟩ := Option.isSome_iff_exists.mp (Agreed.isOpen h)
      have hasks : ¬Recorded state.encoder state.bitrate := hfresh hphase hnew
      have hrate : (applyRate backend state driver).encoder.session =
          some (session.reconfigure state.bitrate driver.reconfigure).1 := by
        rw [applyRate_encoder hnew]
        change (updateRate _ _ _).1.session = _
        rcases updateRate_cases hconfig state.bitrate driver with
          ⟨hsame, -⟩ | ⟨-, hnone, -⟩ | ⟨opened, -, hopened, hafter⟩
        · exact absurd ⟨by rw [hsession]; rfl, cfg, hconfig, hsame⟩ hasks
        · exact absurd (hnone.symm.trans hsession) (Option.some_ne_none _).symm
        · rw [hafter]
          rw [Option.some.inj (hsession.symm.trans hopened)]
      refine ⟨_, ?_, (reconfigure_cases session state.bitrate
        driver.reconfigure).1⟩
      rw [step, if_pos hphase]
      exact session_pass hrate frame
  | _ => trivial

/-- The thread never takes a rate for applied that the encoder does not run
at, and always asks the driver, exactly where no pass finds a new target
recorded. -/
theorem along_truthful_iff {cfg : EncodeConfig} {driver : Driver}
    (hopen : (start backend cfg driver).phase = .capturing)
    (events : List (Event Driver Empty)) :
    EventRun.Along (step backend)
        (fun state event =>
          rateKeeping.Truthful (step backend state event) ∧
            AsksDriver state event)
        (start backend cfg driver) events ↔
      EventRun.Along (step backend) rateKeeping.Fresh
        (start backend cfg driver) events := by
  symm
  refine EventRun.along_iff_along rateKeeping.Sound
    (fun _ _ => RateKeeping.sound_step) ?_ (RateKeeping.sound_start hopen)
    events
  intro state event h
  constructor
  · intro hfresh
    exact ⟨(RateKeeping.sound_step h hfresh).truthful,
      asksDriver_of_fresh h hfresh⟩
  · rintro ⟨htruthful, -⟩
    cases event with
    | submit frame driver =>
        intro hphase hnew hrecorded
        exact not_truthful_of_recorded h hphase hnew hrecorded frame driver
          htruthful
    | _ => trivial

end Nvenc

/-- Where the applied rate is the target, the software back end and
VideoToolbox run at it.  NVENC does so, and asks the driver on every retry,
exactly where no pass finds a new target that the config already has while
the session is open. -/
theorem bitrate_applied (cfg : EncodeConfig) :
    (∀ codec, (start Sw.backend cfg codec).phase = .capturing →
      ∀ events, EventRun.Along (step Sw.backend)
        (fun state event =>
          Sw.rateKeeping.Truthful (step Sw.backend state event))
        (start Sw.backend cfg codec) events) ∧
    (∀ framework,
      (start VideoToolbox.backend cfg framework).phase = .capturing →
      ∀ events, EventRun.Along (step VideoToolbox.backend)
        (fun state event => VideoToolbox.rateKeeping.Truthful
          (step VideoToolbox.backend state event))
        (start VideoToolbox.backend cfg framework) events) ∧
    ∀ driver, (start Nvenc.backend cfg driver).phase = .capturing →
      ∀ events,
        (EventRun.Along (step Nvenc.backend)
            (fun state event =>
              Nvenc.rateKeeping.Truthful (step Nvenc.backend state event) ∧
                Nvenc.AsksDriver state event)
            (start Nvenc.backend cfg driver) events ↔
          EventRun.Along (step Nvenc.backend) Nvenc.rateKeeping.Fresh
            (start Nvenc.backend cfg driver) events) :=
  ⟨fun _ hopen => RateKeeping.along_truthful (fun _ _ => trivial) hopen,
    fun _ hopen => RateKeeping.along_truthful (fun _ _ => trivial) hopen,
    fun _ hopen => Nvenc.along_truthful_iff hopen⟩

/-! ## Runs with a rate change -/

/-- A first frame, a new target, and two more frames; the answers are those
of the second frame and of the others. -/
def rateChange {Answer Background : Type} (frame : GpuFrame)
    (change answer : Answer) : List (Event Answer Background) :=
  [.submit frame answer, .nextChunk true, .sweep true,
    .setBitrate 5000000,
    .submit frame change, .nextChunk true, .sweep true,
    .submit frame answer, .nextChunk true, .sweep true]

namespace Nvenc

/-- The driver refuses the new rate once. -/
def refusing : Driver := { answering [0, 0, 1] with reconfigure := .refused }

end Nvenc

/-- The driver and the codec take the new rate. -/
theorem bitrate_applied_of_accepted :
    EventRun.Along (step Sw.backend)
        (fun state event =>
          Sw.rateKeeping.Truthful (step Sw.backend state event))
        (start Sw.backend smallConfig Sw.answering)
        (rateChange Sw.smallFrame Sw.answering Sw.answering) ∧
      EventRun.Along (step VideoToolbox.backend)
        (fun state event => VideoToolbox.rateKeeping.Truthful
          (step VideoToolbox.backend state event))
        (start VideoToolbox.backend smallConfig VideoToolbox.answering)
        (rateChange VideoToolbox.smallFrame VideoToolbox.answering
          VideoToolbox.answering) ∧
      EventRun.Along (step Nvenc.backend)
        (fun state event =>
          Nvenc.rateKeeping.Truthful (step Nvenc.backend state event) ∧
            Nvenc.AsksDriver state event)
        (start Nvenc.backend smallConfig (Nvenc.answering [0, 0, 1]))
        (rateChange Nvenc.smallFrame (Nvenc.answering [0, 0, 1])
          (Nvenc.answering [0, 0, 1])) :=
  ⟨(bitrate_applied smallConfig).1 _ (by decide +kernel) _,
    (bitrate_applied smallConfig).2.1 _ (by decide +kernel) _,
    ((bitrate_applied smallConfig).2.2 _ (by decide +kernel) _).mpr
      (by decide +kernel)⟩

/-- After the refusal the retry gets `Ok` from the config: the thread takes
5 Mbit/s for applied while the driver still runs at 10, and the driver was
asked once only. -/
theorem refused_bitrate_taken_for_applied :
    let final := run Nvenc.backend smallConfig (Nvenc.answering [0, 0, 1])
      (rateChange Nvenc.smallFrame Nvenc.refusing
        (Nvenc.answering [0, 0, 1]))
    final.appliedBitrate = 5000000 ∧ final.bitrate = 5000000 ∧
      Nvenc.realRate final.encoder = some 10000000 ∧
      ¬Nvenc.rateKeeping.Truthful final ∧
      final.encoder.session.map Nvenc.Session.reconfigures = some 1 := by
  decide +kernel

end GameStreamer.Encode
