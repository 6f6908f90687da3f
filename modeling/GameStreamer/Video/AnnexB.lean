import GameStreamer.Core.Bytes
import GameStreamer.Core.Tiling
import Mathlib.Data.List.Infix

/-!
# Annex-B streams

NAL units are separated by start codes of three or four bytes.  Two scanners
of the source cut a stream at its start codes; both give back the units that
were joined, whichever start codes stand between them.  They differ in where
their loops end and in whether they keep empty units.
-/

namespace GameStreamer.Video

open Tiling

/-! ## The scanners -/

/-- The length of the start code at `i`, 0 for none; the longer one is tried
first. -/
def startCodeLen (data : Bytes) (i : ℕ) : ℕ :=
  if slice i 4 data = [0, 0, 0, 1] then 4
  else if slice i 3 data = [0, 0, 1] then 3
  else 0

/-- The unit that a start code at `i` ends.  An empty one is dropped unless
`keepEmpty`. -/
def closeUnit (keepEmpty : Bool) (data : Bytes) (start : Option ℕ) (i : ℕ)
    (nals : List Bytes) : List Bytes :=
  match start with
  | none => nals
  | some s =>
      if keepEmpty || decide (s < i) then nals ++ [slice s (i - s) data]
      else nals

/-- The loop over the stream.  It ends where no more than `slack` bytes are
left. -/
def scan (slack : ℕ) (keepEmpty : Bool) (data : Bytes) (i : ℕ)
    (start : Option ℕ) (nals : List Bytes) : Option ℕ × List Bytes :=
  if i + slack < data.length then
    let len := startCodeLen data i
    if len = 0 then scan slack keepEmpty data (i + 1) start nals
    else
      scan slack keepEmpty data (i + len) (some (i + len))
        (closeUnit keepEmpty data start i nals)
  else (start, nals)
termination_by data.length - i

/-- The unit that the end of the stream ends. -/
def closeLast (keepEmpty : Bool) (data : Bytes)
    (scanned : Option ℕ × List Bytes) : List Bytes :=
  closeUnit keepEmpty data scanned.1 data.length scanned.2

/-- `split_annex_b` of the VideoToolbox decoder: `while i + 3 <= data.len()`,
and empty units are dropped. -/
def decoderSplitAnnexB (data : Bytes) : List Bytes :=
  closeLast false data (scan 2 false data 0 none [])

/-- `split_annex_b` of the development client: `while i < data.len()`, and
empty units are kept. -/
def clientSplitAnnexB (data : Bytes) : List Bytes :=
  closeLast true data (scan 0 true data 0 none [])

/-! ## Joined units -/

/-- A non-empty NAL unit without a start code that does not end in a zero. -/
structure IsNal (nal : Bytes) : Prop where
  ne_nil : nal ≠ []
  no_start_code : ¬[0, 0, 1] <:+: nal
  no_trailing_zero : nal.getLast? ≠ some 0

instance (nal : Bytes) : Decidable (IsNal nal) :=
  decidable_of_iff
    (nal ≠ [] ∧ ¬[0, 0, 1] <:+: nal ∧ nal.getLast? ≠ some 0)
    ⟨fun h => ⟨h.1, h.2.1, h.2.2⟩, fun h => ⟨h.1, h.2, h.3⟩⟩

/-- The four-byte start code, or the three-byte one. -/
def startCode (long : Bool) : Bytes := if long then [0, 0, 0, 1] else [0, 0, 1]

/-- The units, each behind its start code. -/
def joined (units : List (Bool × Bytes)) : Bytes :=
  units.flatMap fun (long, nal) => startCode long ++ nal

theorem joined_cons (long : Bool) (nal : Bytes) (units : List (Bool × Bytes)) :
    joined ((long, nal) :: units) =
      startCode long ++ (nal ++ joined units) := by
  rw [joined, List.flatMap_cons, List.append_assoc]
  rfl

/-- What is left of a unit is one. -/
theorem IsNal.tail {byte : UInt8} {rest : Bytes} (h : IsNal (byte :: rest))
    (hne : rest ≠ []) : IsNal rest where
  ne_nil := hne
  no_start_code hwithin := h.no_start_code
    (hwithin.trans (List.suffix_cons byte rest).isInfix)
  no_trailing_zero := by
    have hlast := h.no_trailing_zero
    rwa [List.getLast?_cons_of_ne_nil hne] at hlast

/-! ## Where a start code is seen -/

theorem slice_of_drop {data rest : Bytes} {i : ℕ} (h : data.drop i = rest)
    (len : ℕ) : slice i len data = rest.take len := by
  rw [slice, h]

/-- A code that contains a start code, and none of whose prefixes is a unit,
does not begin within a unit, whatever follows it. -/
theorem IsNal.not_prefix {nal : Bytes} (h : IsNal nal) (post : Bytes)
    {code : Bytes} (hcode : [0, 0, 1] <:+: code)
    (hprefixes : ∀ front ∈ code.inits, ¬IsNal front) :
    ¬code <+: nal ++ post := by
  intro hprefix
  rcases List.prefix_or_prefix_of_prefix hprefix
    (List.prefix_append nal post) with hinside | hshort
  · exact h.no_start_code (hcode.trans hinside.isInfix)
  · exact hprefixes nal ((List.mem_inits nal code).mpr hshort) h

theorem startCodeLen_of_nal {data nal post : Bytes} {i : ℕ}
    (hdrop : data.drop i = nal ++ post) (hnal : IsNal nal) :
    startCodeLen data i = 0 := by
  have hlong : (nal ++ post).take 4 ≠ [0, 0, 0, 1] := by
    intro htake
    exact hnal.not_prefix post (by decide) (by decide)
      (htake ▸ List.take_prefix 4 (nal ++ post))
  have hshort : (nal ++ post).take 3 ≠ [0, 0, 1] := by
    intro htake
    exact hnal.not_prefix post (by decide) (by decide)
      (htake ▸ List.take_prefix 3 (nal ++ post))
  rw [startCodeLen, slice_of_drop hdrop, slice_of_drop hdrop, if_neg hlong,
    if_neg hshort]

/-- The start code of a joined unit is seen with its length. -/
theorem startCodeLen_of_joined {data nal post : Bytes} {long : Bool} {i : ℕ}
    (hdrop : data.drop i = startCode long ++ (nal ++ post)) :
    startCodeLen data i = (startCode long).length := by
  rw [startCodeLen, slice_of_drop hdrop, slice_of_drop hdrop]
  cases long with
  | true => rfl
  | false =>
      rw [if_neg, if_pos]
      · rfl
      · rfl
      · intro htake
        cases htake

/-! ## One unit of the scan -/

section Scan

variable {slack i : ℕ} {keepEmpty : Bool} {data : Bytes} {start : Option ℕ}
  {nals : List Bytes}

theorem scan_of_end (h : data.length ≤ i + slack) :
    scan slack keepEmpty data i start nals = (start, nals) := by
  rw [scan, if_neg (Nat.not_lt.mpr h)]

/-- The bytes of a unit are passed over. -/
theorem scan_nal {nal post : Bytes} (hdrop : data.drop i = nal ++ post)
    (hnal : nal ≠ [] → IsNal nal) :
    scan slack keepEmpty data i start nals =
      scan slack keepEmpty data (i + nal.length) start nals := by
  induction nal generalizing i with
  | nil => rfl
  | cons byte rest ih =>
      have hunit := hnal (List.cons_ne_nil byte rest)
      have hnext : data.drop (i + 1) = rest ++ post := by
        rw [← List.drop_drop, hdrop]
        rfl
      have hrest := ih hnext hunit.tail
      rw [List.length_cons, Nat.add_comm rest.length, ← Nat.add_assoc]
      rcases Nat.lt_or_ge (i + slack) data.length with hinside | hend
      · rw [scan, if_pos hinside]
        simp only [startCodeLen_of_nal hdrop hunit, if_true]
        exact hrest
      · rw [scan_of_end hend, scan_of_end (by omega)]

/-- A start code closes the unit before it and opens the next one. -/
theorem scan_startCode {nal post : Bytes} {long : Bool} (hslack : slack ≤ 2)
    (hdrop : data.drop i = startCode long ++ (nal ++ post)) :
    scan slack keepEmpty data i start nals =
      scan slack keepEmpty data (i + (startCode long).length)
        (some (i + (startCode long).length))
        (closeUnit keepEmpty data start i nals) := by
  have hlength := congrArg List.length hdrop
  rw [List.length_drop, List.length_append] at hlength
  have hcode : 3 ≤ (startCode long).length := by
    cases long <;> decide
  rw [scan, if_pos (by omega)]
  simp only [startCodeLen_of_joined hdrop]
  rw [if_neg (by omega)]

/-- A unit that is scanned to its end is closed whole. -/
theorem closeUnit_nal {nal post : Bytes} (hdrop : data.drop i = nal ++ post)
    (hne : nal ≠ []) :
    closeUnit keepEmpty data (some i) (i + nal.length) nals =
      nals ++ [nal] := by
  have hpos := List.length_pos_of_ne_nil hne
  have hslice : slice i (i + nal.length - i) data = nal := by
    rw [slice_of_drop hdrop, Nat.add_sub_cancel_left, List.take_left]
  rw [closeUnit, hslice, if_pos]
  rw [Bool.or_eq_true]
  exact Or.inr (decide_eq_true (Nat.lt_add_of_pos_right hpos))

end Scan

/-! ## The whole stream -/

/-- From a start code on, the units that follow are appended in order to the
one that it closes. -/
theorem closeLast_scan {slack : ℕ} {keepEmpty : Bool} (hslack : slack ≤ 2)
    {data : Bytes} {units : List (Bool × Bytes)}
    (hunits : ∀ unit ∈ units, IsNal unit.2) {i : ℕ} {start : Option ℕ}
    {nals : List Bytes} (hi : i ≤ data.length)
    (hdrop : data.drop i = joined units) :
    closeLast keepEmpty data (scan slack keepEmpty data i start nals) =
      closeUnit keepEmpty data start i nals ++ units.map Prod.snd := by
  induction units generalizing i start nals with
  | nil =>
      have hend : i = data.length :=
        Nat.le_antisymm hi (List.drop_eq_nil_iff.mp hdrop)
      rw [scan_of_end (by omega), closeLast, List.map_nil, List.append_nil,
        hend]
  | cons unit units ih =>
      obtain ⟨long, nal⟩ := unit
      have hnal : IsNal nal := hunits _ List.mem_cons_self
      rw [joined_cons] at hdrop
      have hunit : data.drop (i + (startCode long).length) =
          nal ++ joined units := by
        rw [← List.drop_drop, hdrop, List.drop_left]
      have hrest : data.drop (i + (startCode long).length + nal.length) =
          joined units := by
        rw [← List.drop_drop, hunit, List.drop_left]
      have hlength := congrArg List.length hunit
      rw [List.length_drop, List.length_append] at hlength
      have hpos := List.length_pos_of_ne_nil hnal.ne_nil
      rw [scan_startCode hslack hdrop, scan_nal hunit fun _ => hnal,
        ih (fun other hother => hunits other (List.mem_cons_of_mem _ hother))
          (by omega) hrest,
        closeUnit_nal hunit hnal.ne_nil, List.map_cons, List.append_assoc]
      rfl

theorem decoderSplitAnnexB_joined {units : List (Bool × Bytes)}
    (hunits : ∀ unit ∈ units, IsNal unit.2) :
    decoderSplitAnnexB (joined units) = units.map Prod.snd :=
  closeLast_scan (by decide) hunits (Nat.zero_le _) List.drop_zero

theorem clientSplitAnnexB_joined {units : List (Bool × Bytes)}
    (hunits : ∀ unit ∈ units, IsNal unit.2) :
    clientSplitAnnexB (joined units) = units.map Prod.snd :=
  closeLast_scan (by decide) hunits (Nat.zero_le _) List.drop_zero

end GameStreamer.Video
