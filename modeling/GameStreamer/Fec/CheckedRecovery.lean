import GameStreamer.Core.Checked
import GameStreamer.Fec.ReedSolomon

/-!
# The decoder under checks

The decoder of the erasure code with the checks that a debug build makes.  On
any shards it goes through: its guards leave only counts for which the index
sets of rows and columns are disjoint, so no coefficient divides by zero.
-/

namespace GameStreamer.Fec

open Tiling

/-! ## Tables -/

theorem length_expTable : expTable.length = 510 := by
  rw [expTable, List.length_map, List.length_append, length_powers]

/-- A nonzero byte's logarithm is below the order of the generator. -/
theorem log_lt {a : UInt8} (ha : a ≠ 0) : log a < 255 := by
  obtain ⟨i, hi, rfl⟩ := exists_powerByte ha
  rwa [log_powerByte hi]

/-- `inv`, which asserts that its argument is not zero. -/
def invChecked (a : UInt8) : Option UInt8 := do
  Checked.ensure (a ≠ 0)
  let i ← Checked.sub 255 (log a)
  expTable[i]?

theorem invChecked_eq {a : UInt8} (ha : a ≠ 0) :
    invChecked a = some (inv a) := by
  have hlog := log_lt ha
  have hlt : 255 - log a < expTable.length := by
    rw [length_expTable]
    omega
  rw [invChecked, Checked.ensure_of ha, Checked.sub_of_le hlog.le]
  simp only [Option.bind_eq_bind, Option.bind_some]
  rw [inv, exp, List.getElem?_eq_getElem hlt, List.getD_eq_getElem _ _ hlt]

/-- `coef`. -/
def coefChecked (k j i : ℕ) : Option UInt8 :=
  invChecked (UInt8.ofNat ((k + j) ^^^ i))

theorem coefChecked_eq {k j i : ℕ} (hrow : k + j < 256) (hcol : i < k) :
    coefChecked k j i = some (coef k j i) := by
  refine invChecked_eq fun hzero => ?_
  rw [UInt8.ofNat_xor, UInt8.xor_eq_zero_iff] at hzero
  have heq := point_injOn hrow (by omega) (GF256.ext hzero)
  omega

/-! ## Inversion -/

namespace Rows

variable {n : ℕ}

/-- One column, with the inverse of its pivot. -/
def clearColumnChecked (state : Rows n × Rows n) (col row : Fin n) :
    Option (Rows n × Rows n) :=
  (invChecked ((state.1.swap col row).entry col col)).map fun _ =>
    clearColumn state col row

def sweepChecked (a : Rows n) :
    (count : ℕ) → count ≤ n → Option (Option (Rows n × Rows n))
  | 0, _ => some (some (a, identity))
  | count + 1, h => do
      match ← sweepChecked a count (Nat.le_of_succ_le h) with
      | none => some none
      | some state =>
          match pivot state.1 ⟨count, h⟩ with
          | none => some none
          | some row => (clearColumnChecked state ⟨count, h⟩ row).map some

/-- `invert`; the inner option is its own answer. -/
def invertChecked (a : Rows n) : Option (Option (Rows n)) :=
  (sweepChecked a n le_rfl).map fun swept => swept.map Prod.snd

/-- A pivot is not zero. -/
theorem entry_pivot {a : Rows n} {col row : Fin n}
    (h : a.pivot col = some row) : (a.swap col row).entry col col ≠ 0 := by
  have hfound := List.find?_some h
  rw [decide_eq_true_eq] at hfound
  rw [swap, entry_build, Equiv.swap_apply_left]
  exact hfound.2

theorem sweepChecked_eq (a : Rows n) (count : ℕ) (hle : count ≤ n) :
    sweepChecked a count hle = some (sweep a count hle) := by
  induction count with
  | zero => rfl
  | succ count ih =>
      rw [sweepChecked, sweep, ih]
      cases sweep a count (Nat.le_of_succ_le hle) with
      | none => rfl
      | some state =>
          simp only [Option.bind_eq_bind, Option.bind_some]
          cases hpivot : pivot state.1 ⟨count, hle⟩ with
          | none => rfl
          | some row =>
              simp only [clearColumnChecked, invChecked_eq (entry_pivot hpivot),
                Option.map_some]

theorem invertChecked_eq (a : Rows n) :
    a.invertChecked = some a.invert := by
  rw [invertChecked, sweepChecked_eq]
  rfl

end Rows

/-! ## Decoding -/

/-- A chosen parity row, copied and cleared of the present data shards. -/
def syndromeChecked (shards : Shards) (k len j : ℕ) : Option Bytes := do
  let parity ← (← shards[k + j]?)
  Checked.ensure (parity.length = len)
  (presentData shards k).foldlM
    (fun row i => do
      let c ← coefChecked k j i
      let shard ← (← shards[i]?)
      some (addScaled c row shard))
    parity

def recoverChecked (shards : Shards) (k len : ℕ) (missing rows : List ℕ) :
    Option (Bool × Shards) := do
  -- `a[r][c]`, for the chosen rows of an `e` by `e` matrix.
  Checked.ensure (rows.length ≤ missing.length)
  let _ ← rows.mapM fun j => missing.mapM fun i => coefChecked k j i
  match ← (coefficients k rows missing).invertChecked with
  | none => some (false, shards)
  | some aInv =>
      let rhs ← rows.mapM (syndromeChecked shards k len)
      let shards ← (List.finRange missing.length).foldlM
        (fun shards c =>
          Checked.set shards (missing.get c) (some (solve aInv rhs len c)))
        shards
      some (true, shards)

/-- `reconstruct_data`. -/
def reconstructDataChecked (shards : Shards) (k : ℕ) :
    Option (Bool × Shards) :=
  let total := shards.length
  if k = 0 ∨ total < k ∨ 255 < total then some (false, shards)
  else do
    -- The scans read `shards[i]`.
    let _ ← (List.range k).mapM fun i => shards[i]?
    let missing := missingData shards k
    if missing = [] then some (true, shards)
    else do
      let _ ← (List.range' k (total - k)).mapM fun i => shards[i]?
      let rows := parityRows shards k missing.length
      if rows.length < missing.length then some (false, shards)
      else
        let present := shards.filterMap id
        let len := (present.head?.map List.length).getD 0
        if len = 0 ∨ ∃ s ∈ present, s.length ≠ len then some (false, shards)
        else recoverChecked shards k len missing rows

section Decoding

variable {shards : Shards} {k len : ℕ}

/-- What the decoder's guards have established when it solves. -/
structure Solvable (shards : Shards) (k len : ℕ) : Prop where
  data_le : k ≤ shards.length
  total_le : shards.length ≤ 255
  uniform : ∀ shard ∈ shards.filterMap id, shard.length = len

theorem shardAt_mem {i : ℕ} (hpresent : isPresent shards i = true) :
    shardAt shards i ∈ shards.filterMap id :=
  List.mem_filterMap.mpr ⟨some (shardAt shards i),
    List.mem_of_getElem? (isPresent_iff.mp hpresent), rfl⟩

theorem syndromeChecked_eq (h : Solvable shards k len) {j : ℕ}
    (hrow : k + j < shards.length)
    (hpresent : isPresent shards (k + j) = true) :
    syndromeChecked shards k len j = some (syndrome shards k j) := by
  have htotal := h.total_le
  have hlen := h.uniform _ (shardAt_mem hpresent)
  rw [syndromeChecked, isPresent_iff.mp hpresent]
  simp only [Option.bind_eq_bind, Option.bind_some, Checked.ensure_of hlen]
  refine @Checked.foldlM_eq _ _ (fun _ => True) _
    (fun row i => addScaled (coef k j i) row (shardAt shards i)) _
    (fun row _ i hi => ?_) (fun _ _ _ _ => trivial) _ trivial
  obtain ⟨hrange, hin⟩ := List.mem_filter.mp hi
  rw [coefChecked_eq (by omega) (List.mem_range.mp hrange),
    isPresent_iff.mp hin]
  rfl

theorem recoverChecked_eq (h : Solvable shards k len) {count : ℕ}
    {missing rows : List ℕ} (hmissing : ∀ i ∈ missing, i < k)
    (hrows : rows = parityRows shards k count)
    (hsquare : rows.length ≤ missing.length) :
    recoverChecked shards k len missing rows =
      some (recover shards k len missing rows) := by
  have htotal := h.total_le
  have hrow : ∀ j ∈ rows,
      k + j < shards.length ∧ isPresent shards (k + j) = true := by
    intro j hj
    rw [hrows] at hj
    exact mem_parityRows_bounds h.data_le hj
  have hcoefs : (rows.mapM fun j => missing.mapM fun i => coefChecked k j i) =
      some (rows.map fun j => missing.map fun i => coef k j i) := by
    refine Checked.mapM_eq fun j hj => Checked.mapM_eq fun i hi => ?_
    have hlt := (hrow j hj).1
    exact coefChecked_eq (by omega) (hmissing i hi)
  have hrhs : rows.mapM (syndromeChecked shards k len) =
      some (rows.map (syndrome shards k)) :=
    Checked.mapM_eq fun j hj =>
      syndromeChecked_eq h (hrow j hj).1 (hrow j hj).2
  rw [recoverChecked, recover, Checked.ensure_of hsquare, hcoefs,
    Rows.invertChecked_eq, hrhs]
  simp only [Option.bind_eq_bind, Option.bind_some]
  cases (coefficients k rows missing).invert with
  | none => rfl
  | some aInv =>
      have hwrites := @Checked.foldlM_eq _ _
        (fun written : Shards => written.length = shards.length)
        (fun written c => Checked.set written (missing.get c)
          (some (solve aInv (rows.map (syndrome shards k)) len c)))
        (fun written c => written.set missing[c]
          (some (solve aInv (rows.map (syndrome shards k)) len c)))
        (List.finRange missing.length)
        (fun written hwritten c _ => by
          have hlt := hmissing (missing.get c) (List.get_mem missing c)
          have hle := h.data_le
          exact Checked.set_of_lt (by omega) _)
        (fun written hwritten c _ => by rwa [List.length_set])
        shards rfl
      simp only [hwrites, Option.bind_some]

/-- On any shards, the decoder goes through. -/
theorem reconstructDataChecked_eq (shards : Shards) (k : ℕ) :
    reconstructDataChecked shards k = some (reconstructData shards k) := by
  rw [reconstructDataChecked, reconstructData]
  dsimp only
  by_cases hguard : k = 0 ∨ shards.length < k ∨ 255 < shards.length
  · rw [if_pos hguard, if_pos hguard]
  · have hread : ∀ indices : List ℕ, (∀ i ∈ indices, i < shards.length) →
        (indices.mapM fun i => shards[i]?) =
          some (indices.map fun i => shards.getD i none) :=
      fun indices hindices => Checked.mapM_eq fun i hi => by
        rw [List.getElem?_eq_getElem (hindices i hi),
          List.getD_eq_getElem _ _ (hindices i hi)]
    have hdata := hread (List.range k) fun i hi => by
      have hlt := List.mem_range.mp hi
      omega
    have hparity := hread (List.range' k (shards.length - k)) fun i hi => by
      have hbounds := List.mem_range'_1.mp hi
      omega
    rw [if_neg hguard, if_neg hguard, hdata, hparity]
    simp only [Option.bind_eq_bind, Option.bind_some]
    have hmissing : ∀ i ∈ missingData shards k, i < k := fun i hi =>
      List.mem_range.mp (List.mem_filter.mp hi).1
    have hsquare :
        (parityRows shards k (missingData shards k).length).length ≤
          (missingData shards k).length := List.length_take_le _ _
    split_ifs with hnone hfew hlen
    · rfl
    · rfl
    · rfl
    · obtain ⟨-, huniform⟩ := not_or.mp hlen
      refine recoverChecked_eq ⟨by omega, by omega, fun shard hshard => ?_⟩
        hmissing rfl hsquare
      by_contra hne
      exact huniform ⟨shard, hshard, hne⟩

end Decoding

end GameStreamer.Fec
