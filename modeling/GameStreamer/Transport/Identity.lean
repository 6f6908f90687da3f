import GameStreamer.Core.Bytes
import GameStreamer.Core.EventRun

/-!
# The persisted identity

`load_or_generate` returns whatever two files it can read, and otherwise
writes a fresh pair, the key first and the certificate after it.  A run may
fail or be cut off at any point, and a file that is being written then holds a
prefix of its bytes.  This module proves which faults the identity survives.
-/

namespace GameStreamer.Transport

open EventRun

/-- A certificate with its private key, both in DER. -/
structure Identity where
  certDer : Bytes
  keyDer : Bytes
  deriving DecidableEq, Repr

namespace Identity

/-- The two files of the data directory, `none` where there is none. -/
structure Dir where
  cert : Option Bytes
  key : Option Bytes
  deriving DecidableEq, Repr

/-- Where a run fails or is cut off by a crash. -/
inductive Stop where
  /-- Before the key file is opened for writing. -/
  | beforeKey
  /-- The key file was truncated and holds the first `written` bytes; all of
  them where only the certificate file could not be opened. -/
  | inKey (written : ℕ)
  /-- The key is there; the certificate file was truncated and holds the first
  `written` bytes. -/
  | inCert (written : ℕ)
  deriving DecidableEq, Repr

/-- One run of `load_or_generate` with what it meets: whether its two reads
succeed, what key generation yields, and where it is stopped. -/
structure Run where
  /-- The read of the certificate does not fail transiently. -/
  certRead : Bool
  /-- The read of the key does not fail transiently. -/
  keyRead : Bool
  /-- What key generation yields, `none` for an error. -/
  fresh : Option Identity
  stop : Option Stop
  deriving DecidableEq, Repr

/-- `(std::fs::read(&cert_path), std::fs::read(&key_path))`, where both are
`Ok`. -/
def readBoth (dir : Dir) (run : Run) : Option Identity :=
  match dir.cert, dir.key with
  | some cert, some key =>
      if run.certRead && run.keyRead then some ⟨cert, key⟩ else none
  | _, _ => none

/-- What the writes leave in the directory, the key written first.  A file that
is being written when the run stops holds a prefix of its bytes. -/
def persist (dir : Dir) (fresh : Identity) : Option Stop → Dir
  | some .beforeKey => dir
  | some (.inKey written) => { dir with key := some (fresh.keyDer.take written) }
  | some (.inCert written) =>
      ⟨some (fresh.certDer.take written), some fresh.keyDer⟩
  | none => ⟨some fresh.certDer, some fresh.keyDer⟩

/-- The directory after a run, and the identity that it returns with `Ok`.  Any
failed read of either file leads to a fresh pair that is written over both. -/
def loadOrGenerate (dir : Dir) (run : Run) : Dir × Option Identity :=
  match readBoth dir run with
  | some identity => (dir, if run.stop = none then some identity else none)
  | none =>
      match run.fresh with
      | none => (dir, none)
      | some fresh =>
          (persist dir fresh run.stop,
            if run.stop = none then some fresh else none)

/-! ## Sequences of runs -/

/-- The directory over a sequence of runs, with the pairs that were generated
and the identities that were returned. -/
structure State where
  dir : Dir
  /-- Every pair that was generated, oldest first. -/
  generated : List Identity
  /-- Every identity that was returned, oldest first. -/
  returned : List Identity
  deriving DecidableEq, Repr

/-- The files of a complete identity. -/
def files (identity : Identity) : Dir :=
  ⟨some identity.certDer, some identity.keyDer⟩

/-- A directory without an identity, or with a complete one. -/
def start : Option Identity → State
  | none => ⟨⟨none, none⟩, [], []⟩
  | some identity => ⟨identity.files, [identity], []⟩

def step (state : State) (run : Run) : State where
  dir := (loadOrGenerate state.dir run).1
  generated := state.generated ++
    (if readBoth state.dir run = none then run.fresh.toList else [])
  returned := state.returned ++ (loadOrGenerate state.dir run).2.toList

/-- The identity survives: what was returned is a pair that was generated as
one, and always the same. -/
structure Survives (state : State) : Prop where
  complete : ∀ identity ∈ state.returned, identity ∈ state.generated
  stable : ∀ left ∈ state.returned, ∀ right ∈ state.returned, left = right

/-- A run writes only where there is no certificate yet, and is not cut off
inside the certificate. -/
def Undisturbed (state : State) (run : Run) : Prop :=
  readBoth state.dir run = none → ∀ fresh, run.fresh = some fresh →
    run.stop ≠ some .beforeKey →
      state.dir.cert = none ∧
        ∀ written, run.stop = some (.inCert written) →
          fresh.certDer.length ≤ written

/-- The directory holds a whole generated pair, the one that was returned, or
no certificate, and then nothing was returned yet. -/
def Sound (state : State) : Prop :=
  (state.dir.cert = none ∧ state.returned = []) ∨
    ∃ identity ∈ state.generated, state.dir = identity.files ∧
      ∀ other ∈ state.returned, other = identity

theorem sound_start (identity : Option Identity) : Sound (start identity) := by
  cases identity with
  | none => exact Or.inl ⟨rfl, rfl⟩
  | some identity =>
      refine Or.inr ⟨identity, List.mem_cons_self, rfl, ?_⟩
      exact fun _ hmem => absurd hmem List.not_mem_nil

theorem Sound.survives {state : State} (h : Sound state) : Survives state := by
  rcases h with ⟨-, hnone⟩ | ⟨identity, hgenerated, -, hsame⟩
  · constructor
    · intro other hmem
      rw [hnone] at hmem
      cases hmem
    · intro left hleft
      rw [hnone] at hleft
      cases hleft
  · constructor
    · intro other hmem
      rw [hsame other hmem]
      exact hgenerated
    · intro left hleft right hright
      rw [hsame left hleft, hsame right hright]

/-! ## One run -/

@[simp]
theorem readBoth_files (identity : Identity) (run : Run) :
    readBoth identity.files run =
      if run.certRead && run.keyRead then some identity else none := rfl

/-- Nothing is read without a certificate. -/
theorem readBoth_of_cert_none {dir : Dir} (h : dir.cert = none) (run : Run) :
    readBoth dir run = none := by
  rw [readBoth, h]

theorem step_of_read {state : State} {run : Run} {identity : Identity}
    (h : readBoth state.dir run = some identity) :
    step state run = { state with
      returned := state.returned ++
        (if run.stop = none then [identity] else []) } := by
  rw [step, loadOrGenerate, h]
  by_cases hstop : run.stop = none <;> simp [hstop]

theorem step_of_fresh {state : State} {run : Run} {fresh : Identity}
    (h : readBoth state.dir run = none) (hfresh : run.fresh = some fresh) :
    step state run =
      ⟨persist state.dir fresh run.stop, state.generated ++ [fresh],
        state.returned ++ (if run.stop = none then [fresh] else [])⟩ := by
  rw [step, loadOrGenerate, h, hfresh]
  by_cases hstop : run.stop = none <;> simp [hstop]

theorem step_of_no_fresh {state : State} {run : Run}
    (h : readBoth state.dir run = none) (hfresh : run.fresh = none) :
    step state run = state := by
  rw [step, loadOrGenerate, h, hfresh]
  simp

/-- A read keeps a sound state, whatever becomes of the run. -/
theorem Sound.read {state : State} (h : Sound state) {run : Run}
    {identity : Identity} (hread : readBoth state.dir run = some identity) :
    Sound (step state run) := by
  rw [step_of_read hread]
  rcases h with ⟨hcert, -⟩ | ⟨other, hgenerated, hdir, hsame⟩
  · rw [readBoth_of_cert_none hcert] at hread
    cases hread
  · rw [hdir, readBoth_files] at hread
    obtain ⟨-, hidentity⟩ := Option.ite_none_right_eq_some.mp hread
    cases hidentity
    refine Or.inr ⟨identity, hgenerated, hdir, ?_⟩
    intro returned hmem
    rcases List.mem_append.mp hmem with hbefore | hnow
    · exact hsame returned hbefore
    · split_ifs at hnow
      · exact List.mem_singleton.mp hnow
      · cases hnow

/-- A run that is stopped before the key file leaves the state sound. -/
theorem Sound.generate {state : State} (h : Sound state) (fresh : Identity) :
    Sound { state with generated := state.generated ++ [fresh] } := by
  rcases h with hnone | ⟨identity, hgenerated, hdir, hsame⟩
  · exact Or.inl hnone
  · exact Or.inr ⟨identity, List.mem_append_left _ hgenerated, hdir, hsame⟩

/-- Where there is no certificate, a run writes a whole pair or leaves none. -/
theorem sound_persist {state : State} (hcert : state.dir.cert = none)
    (hreturned : state.returned = []) {run : Run} {fresh : Identity}
    (hfresh : run.fresh = some fresh)
    (hwhole : ∀ written, run.stop = some (.inCert written) →
      fresh.certDer.length ≤ written) : Sound (step state run) := by
  rw [step_of_fresh (readBoth_of_cert_none hcert run) hfresh, hreturned,
    List.nil_append]
  have hmem : fresh ∈ state.generated ++ [fresh] :=
    List.mem_append_right _ List.mem_cons_self
  cases hstop : run.stop with
  | none =>
      refine Or.inr ⟨fresh, hmem, rfl, ?_⟩
      intro other hother
      exact List.mem_singleton.mp hother
  | some stop =>
      rw [if_neg (Option.some_ne_none stop)]
      cases stop with
      | beforeKey => exact Or.inl ⟨hcert, rfl⟩
      | inKey written => exact Or.inl ⟨hcert, rfl⟩
      | inCert written =>
          refine Or.inr ⟨fresh, hmem, ?_, fun _ h => absurd h List.not_mem_nil⟩
          rw [persist, List.take_of_length_le (hwhole written hstop)]
          rfl

theorem sound_step (state : State) (run : Run) (h : Sound state)
    (hrun : Undisturbed state run) : Sound (step state run) := by
  cases hread : readBoth state.dir run with
  | some identity => exact h.read hread
  | none =>
      cases hfresh : run.fresh with
      | none =>
          rw [step_of_no_fresh hread hfresh]
          exact h
      | some fresh =>
          by_cases hstop : run.stop = some .beforeKey
          · rw [step_of_fresh hread hfresh, hstop, persist,
              if_neg (Option.some_ne_none _), List.append_nil]
            exact h.generate fresh
          · obtain ⟨hcert, hwhole⟩ := hrun hread fresh hfresh hstop
            rcases h with ⟨-, hreturned⟩ | ⟨identity, -, hdir, -⟩
            · exact sound_persist hcert hreturned hfresh hwhole
            · rw [hdir] at hcert
              cases hcert

/-! ## Every sequence of runs -/

/-- **Which faults the identity survives.**  From a directory without an
identity or with a complete one, as long as no run writes over a certificate
or is cut off inside one, every identity returned is a generated pair and
always the same. -/
theorem identity_survives (identity : Option Identity) (runs : List Run)
    (hruns : Along step Undisturbed (start identity) runs) :
    Survives (runs.foldl step (start identity)) :=
  (foldl_invariant sound_step (sound_start identity) hruns).survives

/-- A run that meets no fault and has nothing to generate. -/
def cleanRun : Run := ⟨true, true, none, none⟩

/-- A crash inside the key: the next run generates anew, and the one after it
loads what that one returned. -/
theorem identity_survives_cut_key :
    Survives ([⟨true, true, some ⟨[1, 2], [3, 4]⟩, some (.inKey 1)⟩,
      ⟨true, true, some ⟨[5, 6], [7, 8]⟩, none⟩, cleanRun].foldl step
        (start none)) := by
  apply identity_survives none
  refine ⟨?_, ?_, ?_, trivial⟩
  · intro _ _ _ _
    refine ⟨rfl, ?_⟩
    intro _ hstop
    cases hstop
  · intro _ _ _ _
    refine ⟨rfl, ?_⟩
    intro _ hstop
    cases hstop
  · intro hread
    cases hread

/-- A crash one byte into the certificate: the next run returns that byte as
the certificate.  And a read that fails once: the run replaces an identity
that was returned before. -/
theorem identity_lost :
    ¬Survives ([⟨true, true, some ⟨[1, 2], [3, 4]⟩, some (.inCert 1)⟩,
        cleanRun].foldl step (start none)) ∧
      ¬Survives ([cleanRun, ⟨false, true, some ⟨[5, 6], [7, 8]⟩, none⟩].foldl
        step (start (some ⟨[1, 2], [3, 4]⟩))) := by
  constructor
  · intro h
    have hmem := h.complete ⟨[1], [3, 4]⟩ (by decide)
    exact absurd hmem (by decide)
  · intro h
    have hsame := h.stable ⟨[1, 2], [3, 4]⟩ (by decide) ⟨[5, 6], [7, 8]⟩
      (by decide)
    exact absurd hsame (by decide)

/-! ## The condition is needed -/

theorem step_cleanRun_files {state : State} {identity : Identity}
    (hdir : state.dir = identity.files) :
    step state cleanRun =
      { state with returned := state.returned ++ [identity] } := by
  apply step_of_read
  rw [hdir]
  rfl

theorem step_cleanRun_cert_none {state : State} (hcert : state.dir.cert = none) :
    step state cleanRun = state :=
  step_of_no_fresh (readBoth_of_cert_none hcert cleanRun) rfl

/-- A run that is cut off inside a first certificate leaves one that the next
run takes for complete. -/
theorem cut_certificate_breaks {state : State} {run : Run} {fresh : Identity}
    {written : ℕ} (hcert : state.dir.cert = none)
    (hfresh : run.fresh = some fresh) (hstop : run.stop = some (.inCert written))
    (hcut : written < fresh.certDer.length)
    (hnew : ∀ other ∈ state.generated, other.keyDer ≠ fresh.keyDer) :
    ¬Survives (step (step state run) cleanRun) := by
  intro hsurvives
  have hdir : (step state run).dir =
      files ⟨fresh.certDer.take written, fresh.keyDer⟩ := by
    rw [step_of_fresh (readBoth_of_cert_none hcert run) hfresh, hstop]
    rfl
  have hgenerated : (step state run).generated =
      state.generated ++ [fresh] := by
    rw [step_of_fresh (readBoth_of_cert_none hcert run) hfresh]
  rw [step_cleanRun_files hdir] at hsurvives
  have hmem := hsurvives.complete _
    (List.mem_append_right _ List.mem_cons_self)
  rw [hgenerated] at hmem
  rcases List.mem_append.mp hmem with hbefore | hnow
  · exact hnew _ hbefore rfl
  · have hcertDer := congrArg Identity.certDer (List.mem_singleton.mp hnow)
    have hlength := congrArg List.length hcertDer
    rw [List.length_take] at hlength
    omega

/-- A run that writes over a returned identity makes the next run return
another one. -/
theorem overwritten_identity_breaks {state : State} {run : Run}
    {identity fresh : Identity} (hdir : state.dir = identity.files)
    (hread : readBoth state.dir run = none) (hfresh : run.fresh = some fresh)
    (hstop : run.stop ≠ some .beforeKey)
    (hreturned : identity ∈ state.returned)
    (hnew : ¬identity.keyDer <+: fresh.keyDer) :
    ¬Survives (step (step state run) cleanRun) := by
  intro hsurvives
  have hstep := step_of_fresh hread hfresh
  have hother : ∃ other : Identity, (step state run).dir = other.files ∧
      other.keyDer <+: fresh.keyDer := by
    rw [hstep, hdir]
    cases hcase : run.stop with
    | none => exact ⟨fresh, rfl, List.prefix_rfl⟩
    | some stop =>
        cases stop with
        | beforeKey => exact absurd hcase hstop
        | inKey written =>
            exact ⟨⟨identity.certDer, fresh.keyDer.take written⟩, rfl,
              List.take_prefix _ _⟩
        | inCert written =>
            exact ⟨⟨fresh.certDer.take written, fresh.keyDer⟩, rfl,
              List.prefix_rfl⟩
  obtain ⟨other, hotherDir, hkey⟩ := hother
  rw [step_cleanRun_files hotherDir] at hsurvives
  have hbefore : identity ∈ (step state run).returned := by
    rw [hstep]
    exact List.mem_append_left _ hreturned
  have hsame := hsurvives.stable identity (List.mem_append_left _ hbefore)
    other (List.mem_append_right _ List.mem_cons_self)
  exact hnew (hsame ▸ hkey)

/-- In a sound state, a run that breaks the condition breaks the identity for
the clean runs around it, where its key is a new one. -/
theorem disturbed_breaks {state : State} (hsound : Sound state) {run : Run}
    (hrun : ¬Undisturbed state run)
    (hnew : ∀ fresh ∈ run.fresh, ∀ other ∈ state.generated,
      ¬other.keyDer <+: fresh.keyDer) :
    ¬Survives ([cleanRun, run, cleanRun].foldl step state) := by
  simp only [Undisturbed, not_forall] at hrun
  obtain ⟨hread, fresh, hfresh, hstop, hunwhole⟩ := hrun
  have hkeys := hnew fresh hfresh
  change ¬Survives (step (step (step state cleanRun) run) cleanRun)
  rcases hsound with ⟨hcert, -⟩ | ⟨identity, hgenerated, hdir, -⟩
  · rw [step_cleanRun_cert_none hcert]
    obtain ⟨written, hinCert, hcut⟩ := not_forall₂.mp
      (not_and.mp hunwhole hcert)
    apply cut_certificate_breaks hcert hfresh hinCert (Nat.lt_of_not_le hcut)
    intro other hother hkey
    exact hkeys other hother (hkey ▸ List.prefix_rfl)
  · rw [step_cleanRun_files hdir]
    exact overwritten_identity_breaks hdir hread hfresh hstop
      (List.mem_append_right _ List.mem_cons_self)
      (hkeys identity hgenerated)

end Identity

end GameStreamer.Transport
