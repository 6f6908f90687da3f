import GameStreamer.Algebra.Cauchy
import GameStreamer.Core.Tiling
import GameStreamer.Fec.Inversion

/-!
# The erasure code

A group is `k` data shards of equal length and parity shards after them, each
a combination of the data shards with Cauchy coefficients.  Any `k` of them
give the data back.  Everything acts byte position by byte position, so the
proofs read the shards as the symbols at one position.
-/

namespace GameStreamer.Fec

open Matrix Tiling

/-- Coefficient of parity row `j` over data column `i`. -/
def coef (k j i : ℕ) : UInt8 := inv (UInt8.ofNat ((k + j) ^^^ i))

/-- `*o ^= mul(c, b)` over the paired bytes of `out` and `shard`. -/
def addScaled (c : UInt8) : Bytes → Bytes → Bytes
  | o :: out, b :: shard => (o ^^^ mul c b) :: addScaled c out shard
  | out, _ => out

/-- Parity row `j` over data shards of `len` bytes. -/
def parityShard (data : List Bytes) (len j : ℕ) : Bytes :=
  data.zipIdx.foldl
    (fun out (shard, i) => addScaled (coef data.length j i) out shard)
    (List.replicate len 0)

/-- The parity shards over equal-length data shards; `none` is a panic.  Each
is a combination of the data shards with its own row of Cauchy coefficients. -/
def encodeParity (data : List Bytes) (parity : ℕ) : Option (List Bytes) :=
  let k := data.length
  let len := (data.getD 0 []).length
  if 1 ≤ k ∧ k + parity ≤ 255 ∧ ∀ d ∈ data, d.length = len then
    some ((List.range parity).map (parityShard data len))
  else none

abbrev Shards := List (Option Bytes)

def isPresent (shards : Shards) (i : ℕ) : Bool := (shards.getD i none).isSome

/-- The bytes of a present shard. -/
def shardAt (shards : Shards) (i : ℕ) : Bytes := (shards.getD i none).getD []

def missingData (shards : Shards) (k : ℕ) : List ℕ :=
  (List.range k).filter fun i => !isPresent shards i

def presentData (shards : Shards) (k : ℕ) : List ℕ :=
  (List.range k).filter fun i => isPresent shards i

/-- One available parity row for each of the first `count` missing shards. -/
def parityRows (shards : Shards) (k count : ℕ) : List ℕ :=
  (((List.range' k (shards.length - k)).filter fun i =>
    isPresent shards i).map (· - k)).take count

/-- The missing columns of the chosen parity rows. -/
def coefficients (k : ℕ) (rows missing : List ℕ) : Rows missing.length :=
  Rows.build fun r c => coef k (rows.getD r 0) (missing.getD c 0)

/-- Parity shard `j` less the share of the present data shards. -/
def syndrome (shards : Shards) (k j : ℕ) : Bytes :=
  (presentData shards k).foldl
    (fun row i => addScaled (coef k j i) row (shardAt shards i))
    (shardAt shards (k + j))

/-- Missing shard `c` from the right-hand sides. -/
def solve {e : ℕ} (aInv : Rows e) (rhs : List Bytes) (len : ℕ) (c : Fin e) :
    Bytes :=
  (List.finRange e).foldl
    (fun out r => addScaled (aInv.entry c r) out (rhs.getD r []))
    (List.replicate len 0)

/-- Solve for the missing shards from the chosen rows and write them back. -/
def recover (shards : Shards) (k len : ℕ) (missing rows : List ℕ) :
    Bool × Shards :=
  match (coefficients k rows missing).invert with
  | none => (false, shards)
  | some aInv =>
      let rhs := rows.map (syndrome shards k)
      (true, (List.finRange missing.length).foldl
        (fun shards c => shards.set missing[c] (some (solve aInv rhs len c)))
        shards)

/-- Reconstruct the missing data shards in place; the flag says whether there
were enough shards. -/
def reconstructData (shards : Shards) (k : ℕ) : Bool × Shards :=
  let total := shards.length
  if k = 0 ∨ total < k ∨ 255 < total then (false, shards)
  else
    let missing := missingData shards k
    if missing = [] then (true, shards)
    else
      let rows := parityRows shards k missing.length
      if rows.length < missing.length then (false, shards)
      else
        let present := shards.filterMap id
        let len := (present.head?.map List.length).getD 0
        if len = 0 ∨ ∃ s ∈ present, s.length ≠ len then (false, shards)
        else recover shards k len missing rows

/-! ## Symbols -/

/-- The symbol of a shard at one byte position. -/
def symbol (shard : Bytes) (p : ℕ) : GF256 := ⟨shard.getD p 0⟩

@[simp]
theorem symbol_replicate (len p : ℕ) :
    symbol (List.replicate len 0) p = 0 := by
  apply GF256.ext
  rw [symbol, List.getD_eq_getElem?_getD, List.getElem?_replicate]
  split <;> rfl

theorem eq_of_symbol {a b : Bytes} (hlen : a.length = b.length)
    (h : ∀ p, symbol a p = symbol b p) : a = b := by
  apply List.ext_getElem hlen
  intro p ha hb
  have hbyte := congrArg GF256.byte (h p)
  simp only [symbol] at hbyte
  rwa [List.getD_eq_getElem _ _ ha, List.getD_eq_getElem _ _ hb] at hbyte

@[simp]
theorem length_addScaled (c : UInt8) (out shard : Bytes) :
    (addScaled c out shard).length = out.length := by
  induction out generalizing shard with
  | nil => rfl
  | cons o out ih =>
      cases shard with
      | nil => rfl
      | cons b shard => rw [addScaled, List.length_cons, ih, List.length_cons]

theorem symbol_addScaled (c : UInt8) {out shard : Bytes}
    (hlen : shard.length = out.length) (p : ℕ) :
    symbol (addScaled c out shard) p = symbol out p + ⟨c⟩ * symbol shard p := by
  induction out generalizing shard p with
  | nil =>
      rw [List.length_nil, List.length_eq_zero_iff] at hlen
      subst hlen
      apply GF256.ext
      simp [addScaled, symbol]
  | cons o out ih =>
      cases shard with
      | nil => cases hlen
      | cons b shard =>
          cases p with
          | zero => rfl
          | succ p => exact ih (Nat.succ.inj hlen) p

section Combination

variable {ι : Type*} (c : ι → UInt8) (shard : ι → Bytes)

theorem length_combination (terms : List ι) (out : Bytes) :
    (terms.foldl (fun out t => addScaled (c t) out (shard t)) out).length =
      out.length := by
  induction terms generalizing out with
  | nil => rfl
  | cons t terms ih => rw [List.foldl_cons, ih, length_addScaled]

/-- Adding scaled shards one after the other is a linear combination. -/
theorem symbol_combination (terms : List ι) (out : Bytes)
    (hlen : ∀ t ∈ terms, (shard t).length = out.length) (p : ℕ) :
    symbol (terms.foldl (fun out t => addScaled (c t) out (shard t)) out) p =
      symbol out p + (terms.map fun t => ⟨c t⟩ * symbol (shard t) p).sum := by
  induction terms generalizing out with
  | nil => rw [List.map_nil, List.sum_nil, add_zero]; rfl
  | cons t terms ih =>
      rw [List.foldl_cons, ih, symbol_addScaled _ (hlen t List.mem_cons_self),
        List.map_cons, List.sum_cons, add_assoc]
      intro t' ht'
      rw [length_addScaled]
      exact hlen t' (List.mem_cons_of_mem _ ht')

end Combination

/-! ## Encoding -/

theorem zipIdx_eq_map (data : List Bytes) :
    data.zipIdx =
      (List.range data.length).map fun i => (data.getD i [], i) := by
  apply List.ext_getElem
  · simp
  · intro i hi _
    rw [List.length_zipIdx] at hi
    simp [hi]

@[simp]
theorem length_parityShard (data : List Bytes) (len j : ℕ) :
    (parityShard data len j).length = len := by
  rw [parityShard, length_combination (fun t : Bytes × ℕ =>
    coef data.length j t.2) Prod.fst, List.length_replicate]

theorem symbol_parityShard {data : List Bytes} {len : ℕ}
    (hlen : ∀ d ∈ data, d.length = len) (j p : ℕ) :
    symbol (parityShard data len j) p =
      ((List.range data.length).map fun i =>
        ⟨coef data.length j i⟩ * symbol (data.getD i []) p).sum := by
  have hcombination := symbol_combination
    (fun t : Bytes × ℕ => coef data.length j t.2) Prod.fst data.zipIdx
    (List.replicate len 0) (fun t ht => by
      rw [List.length_replicate]
      exact hlen t.1 (List.fst_mem_of_mem_zipIdx ht)) p
  rw [parityShard, hcombination, symbol_replicate, zero_add, zipIdx_eq_map,
    List.map_map]
  rfl

/-- A group that fits the field is encoded. -/
theorem encodeParity_eq {shards : List Bytes} (len parity : ℕ)
    (hnonempty : 1 ≤ shards.length) (hfits : shards.length + parity ≤ 255)
    (hlen : ∀ s ∈ shards, s.length = len) :
    encodeParity shards parity =
      some ((List.range parity).map (parityShard shards len)) := by
  have hfirst : (shards.getD 0 []).length = len := by
    rw [List.getD_eq_getElem _ _ (by omega)]
    exact hlen _ (List.getElem_mem _)
  simp only [encodeParity, hfirst]
  rw [if_pos ⟨hnonempty, hfits, hlen⟩]

/-! ## Counting shards -/

theorem countP_isPresent {shards : Shards} {start len : ℕ}
    (h : start + len ≤ shards.length) :
    (List.range' start len).countP (isPresent shards) =
      (slice start len shards).countP Option.isSome := by
  have hmap : (List.range' start len).map (isPresent shards) =
      (slice start len shards).map Option.isSome := by
    apply List.ext_getElem?
    intro i
    rcases Nat.lt_or_ge i len with hlt | hge
    · have hin : start + i < shards.length := by omega
      rw [List.getElem?_map, List.getElem?_map, getElem?_slice _ hlt,
        List.getElem?_range' hlt]
      simp [isPresent, hin]
    · rw [List.getElem?_eq_none, List.getElem?_eq_none]
      · rw [List.length_map, length_slice h]
        exact hge
      · rw [List.length_map, List.length_range']
        exact hge
  have hcount := congrArg (List.countP id) hmap
  rwa [List.countP_map, List.countP_map] at hcount

theorem length_presentData {shards : Shards} {k : ℕ} (hk : k ≤ shards.length) :
    (presentData shards k).length = (shards.take k).countP Option.isSome := by
  rw [presentData, ← List.countP_eq_length_filter, List.range_eq_range',
    countP_isPresent (by omega)]
  rfl

theorem length_missingData (shards : Shards) (k : ℕ) :
    (missingData shards k).length + (presentData shards k).length = k := by
  have hsplit := List.length_eq_length_filter_add (isPresent shards)
    (l := List.range k)
  rw [List.length_range] at hsplit
  rw [missingData, presentData, Nat.add_comm]
  exact hsplit.symm

theorem length_parityRows {shards : Shards} {k : ℕ} (hk : k ≤ shards.length)
    (count : ℕ) :
    (parityRows shards k count).length =
      min count ((shards.drop k).countP Option.isSome) := by
  have hslice : slice k (shards.length - k) shards = shards.drop k :=
    List.take_of_length_le (by rw [List.length_drop])
  rw [parityRows, List.length_take, List.length_map,
    ← List.countP_eq_length_filter, countP_isPresent (by omega), hslice]

/-- The chosen rows are parity rows that were received. -/
theorem mem_parityRows_bounds {shards : Shards} {k count j : ℕ}
    (hk : k ≤ shards.length) (hj : j ∈ parityRows shards k count) :
    k + j < shards.length ∧ isPresent shards (k + j) = true := by
  obtain ⟨i, hi, rfl⟩ := List.mem_map.mp (List.mem_of_mem_take hj)
  obtain ⟨hrange, hpresent⟩ := List.mem_filter.mp hi
  rw [List.mem_range'_1] at hrange
  rw [Nat.add_sub_cancel' hrange.1]
  exact ⟨by omega, hpresent⟩

/-! ## The Cauchy matrix -/

/-- The field element that stands for a shard index. -/
def point (i : ℕ) : GF256 := ⟨UInt8.ofNat i⟩

theorem point_injOn {i j : ℕ} (hi : i < 256) (hj : j < 256)
    (h : point i = point j) : i = j := by
  have hbyte := congrArg (fun a : GF256 => a.byte.toNat) h
  simp only [point, UInt8.toNat_ofNat'] at hbyte
  rwa [Nat.mod_eq_of_lt hi, Nat.mod_eq_of_lt hj] at hbyte

/-- The index sets of rows and columns are disjoint, so no denominator is
zero. -/
theorem coef_eq {k j i : ℕ} (hrow : k + j < 256) (hcol : i < k) :
    (⟨coef k j i⟩ : GF256) = (point (k + j) - point i)⁻¹ := by
  have hne : point (k + j) - point i ≠ 0 := by
    intro hzero
    have heq := point_injOn hrow (by omega) (sub_eq_zero.mp hzero)
    omega
  apply GF256.ext
  rw [GF256.byte_inv hne, GF256.byte_sub, coef, UInt8.ofNat_xor, point, point]

section Coefficients

variable {k : ℕ} {rows missing : List ℕ}

theorem getD_mem {l : List ℕ} {i : ℕ} (h : i < l.length) : l.getD i 0 ∈ l := by
  rw [List.getD_eq_getElem _ _ h]
  exact List.getElem_mem h

theorem getD_inj {l : List ℕ} (hnodup : l.Nodup) {i j : ℕ} (hi : i < l.length)
    (hj : j < l.length) (h : l.getD i 0 = l.getD j 0) : i = j := by
  rw [List.getD_eq_getElem _ _ hi, List.getD_eq_getElem _ _ hj] at h
  exact hnodup.getElem_inj_iff.mp h

theorem toMatrix_coefficients (hrows : ∀ j ∈ rows, k + j < 256)
    (hcols : ∀ i ∈ missing, i < k) (hsquare : rows.length = missing.length) :
    (coefficients k rows missing).toMatrix =
      Cauchy.cauchy (fun r => point (k + rows.getD r 0))
        (fun c => point (missing.getD c 0)) := by
  funext r c
  have hrow := hrows _ (getD_mem (r.isLt.trans_eq hsquare.symm))
  have hcol := hcols _ (getD_mem c.isLt)
  rw [Rows.toMatrix, coefficients, Rows.entry_build, Cauchy.cauchy,
    Matrix.of_apply, coef_eq hrow hcol]

/-- The singular branch of the decoder is never taken. -/
theorem invert_coefficients (hrows : ∀ j ∈ rows, k + j < 256)
    (hcols : ∀ i ∈ missing, i < k) (hsquare : rows.length = missing.length)
    (hrowsNodup : rows.Nodup) (hcolsNodup : missing.Nodup) :
    (coefficients k rows missing).invert.isSome := by
  rw [Rows.invert_isSome_iff, toMatrix_coefficients hrows hcols hsquare]
  have hlt : ∀ r : Fin missing.length, r.val < rows.length :=
    fun r => r.isLt.trans_eq hsquare.symm
  have hrow : ∀ r : Fin missing.length, k + rows.getD r 0 < 256 :=
    fun r => hrows _ (getD_mem (hlt r))
  have hcol : ∀ c : Fin missing.length, missing.getD c 0 < k :=
    fun c => hcols _ (getD_mem c.isLt)
  have hbyte : ∀ r c : Fin missing.length, missing.getD c 0 < 256 := by
    intro r c
    have hk := hrow r
    have hc := hcol c
    omega
  apply Cauchy.det_cauchy_ne_zero
  · intro r r' heq
    have hindex := point_injOn (hrow r) (hrow r') heq
    exact Fin.ext (getD_inj hrowsNodup (hlt r) (hlt r')
      (Nat.add_left_cancel hindex))
  · intro c c' heq
    have hindex := point_injOn (hbyte c c) (hbyte c c') heq
    exact Fin.ext (getD_inj hcolsNodup c.isLt c'.isLt hindex)
  · intro r c heq
    have hindex := point_injOn (hrow r) (hbyte r c) heq
    have hk := hcol c
    omega

end Coefficients

/-! ## Decoding -/

/-- The data shards and the `m` parity shards over them. -/
def codeword (data : List Bytes) (len m : ℕ) : List Bytes :=
  data ++ (List.range m).map (parityShard data len)

/-- Some shards of a codeword, each at its place.  This is what the decoder
gets from a frame whose datagrams were lost or duplicated, but not altered. -/
structure Received (data : List Bytes) (len m : ℕ) (shards : Shards) :
    Prop where
  nonempty : 1 ≤ data.length
  range : data.length + m ≤ 255
  positive : 0 < len
  lengths : ∀ d ∈ data, d.length = len
  count : shards.length = data.length + m
  agree : ∀ (i : ℕ) (s : Bytes), shards[i]? = some (some s) →
    (codeword data len m)[i]? = some s

theorem isPresent_iff {shards : Shards} {i : ℕ} :
    isPresent shards i = true ↔
      shards[i]? = some (some (shardAt shards i)) := by
  rw [isPresent, shardAt, List.getD_eq_getElem?_getD]
  rcases shards[i]? with _ | _ | s <;> simp

/-- In characteristic two, what is added twice is gone. -/
theorem sum_filter_not (keep : ℕ → Bool) (f : ℕ → GF256) (terms : List ℕ) :
    ((terms.filter fun i => !keep i).map f).sum =
      (terms.map f).sum + ((terms.filter keep).map f).sum := by
  have hperm := ((List.filter_append_perm keep terms).map f).sum_eq
  rw [List.map_append, List.sum_append] at hperm
  rw [← hperm, add_right_comm, GF256.add_self, zero_add]

namespace Received

variable {data : List Bytes} {len m : ℕ} {shards : Shards}

theorem length_codeword (hlen : ∀ d ∈ data, d.length = len) :
    ∀ s ∈ codeword data len m, s.length = len := by
  intro s hs
  rcases List.mem_append.mp hs with hdata | hparity
  · exact hlen s hdata
  · obtain ⟨j, -, rfl⟩ := List.mem_map.mp hparity
    exact length_parityShard data len j

theorem shardAt_data (h : Received data len m shards) {i : ℕ}
    (hi : i < data.length) (hpresent : isPresent shards i = true) :
    shardAt shards i = data.getD i [] := by
  have hword := h.agree i _ (isPresent_iff.mp hpresent)
  rw [codeword, List.getElem?_append_left hi] at hword
  rw [List.getD_eq_getElem?_getD, hword, Option.getD_some]

theorem shardAt_parity (h : Received data len m shards) {j : ℕ} (hj : j < m)
    (hpresent : isPresent shards (data.length + j) = true) :
    shardAt shards (data.length + j) = parityShard data len j := by
  have hword := h.agree _ _ (isPresent_iff.mp hpresent)
  rw [codeword, List.getElem?_append_right (Nat.le_add_right _ _),
    Nat.add_sub_cancel_left, List.getElem?_map, List.getElem?_range hj] at hword
  exact (Option.some.inj hword).symm

/-- The chosen rows are distinct parity rows that were received. -/
theorem mem_parityRows (h : Received data len m shards) {count j : ℕ}
    (hj : j ∈ parityRows shards data.length count) :
    j < m ∧ isPresent shards (data.length + j) = true := by
  have hcount := h.count
  obtain ⟨hrange, hpresent⟩ := mem_parityRows_bounds (by omega) hj
  exact ⟨by omega, hpresent⟩

theorem nodup_parityRows (shards : Shards) (k count : ℕ) :
    (parityRows shards k count).Nodup := by
  apply List.Nodup.sublist (List.take_sublist _ _)
  apply List.Nodup.map_on _ ((List.nodup_range' 1).filter _)
  intro i hi j hj heq
  have hi' := List.mem_range'_1.mp (List.mem_filter.mp hi).1
  have hj' := List.mem_range'_1.mp (List.mem_filter.mp hj).1
  omega

/-- The syndrome is the share of the missing data shards. -/
theorem symbol_syndrome (h : Received data len m shards) {j : ℕ} (hj : j < m)
    (hpresent : isPresent shards (data.length + j) = true) (p : ℕ) :
    symbol (syndrome shards data.length j) p =
      ((missingData shards data.length).map fun i =>
        ⟨coef data.length j i⟩ * symbol (data.getD i []) p).sum := by
  have hdata : ∀ i ∈ presentData shards data.length,
      shardAt shards i = data.getD i [] := by
    intro i hi
    obtain ⟨hrange, hin⟩ := List.mem_filter.mp hi
    exact h.shardAt_data (List.mem_range.mp hrange) hin
  have hlen : ∀ i ∈ presentData shards data.length,
      (shardAt shards i).length =
        (shardAt shards (data.length + j)).length := by
    intro i hi
    obtain ⟨hrange, -⟩ := List.mem_filter.mp hi
    have hget := List.getD_eq_getElem data [] (List.mem_range.mp hrange)
    rw [h.shardAt_parity hj hpresent, length_parityShard, hdata i hi, hget]
    exact h.lengths _ (List.getElem_mem _)
  have hpresentSum : ((presentData shards data.length).map fun i =>
      ⟨coef data.length j i⟩ * symbol (shardAt shards i) p) =
      (presentData shards data.length).map fun i =>
        ⟨coef data.length j i⟩ * symbol (data.getD i []) p := by
    apply List.map_congr_left
    intro i hi
    rw [hdata i hi]
  rw [syndrome,
    symbol_combination (coef data.length j) (shardAt shards) _ _ hlen,
    hpresentSum, h.shardAt_parity hj hpresent, symbol_parityShard h.lengths,
    missingData, presentData, sum_filter_not]

theorem length_syndrome (h : Received data len m shards) {j : ℕ} (hj : j < m)
    (hpresent : isPresent shards (data.length + j) = true) :
    (syndrome shards data.length j).length = len := by
  rw [syndrome, length_combination (coef data.length j) (shardAt shards),
    h.shardAt_parity hj hpresent, length_parityShard]

theorem lt_of_missing {k i : ℕ} {missing : List ℕ}
    (hmissing : missing = missingData shards k) (hi : i ∈ missing) : i < k := by
  rw [hmissing] at hi
  exact List.mem_range.mp (List.mem_filter.mp hi).1

/-- Applying the inverse to the syndromes gives the missing shards. -/
theorem solve_eq (h : Received data len m shards) {rows missing : List ℕ}
    (hrows : ∀ j ∈ rows, j < m ∧ isPresent shards (data.length + j) = true)
    (hmissing : missing = missingData shards data.length)
    (hsquare : rows.length = missing.length) {aInv : Rows missing.length}
    (hinvert : (coefficients data.length rows missing).invert = some aInv)
    (c : Fin missing.length) :
    solve aInv (rows.map (syndrome shards data.length)) len c =
      data.getD missing[c] [] := by
  let rhs : Fin missing.length → Bytes := fun r =>
    (rows.map (syndrome shards data.length)).getD r []
  have hrow : ∀ r : Fin missing.length, rows.getD r 0 ∈ rows ∧
      rhs r = syndrome shards data.length (rows.getD r 0) := by
    intro r
    have hlt : r.val < rows.length := r.isLt.trans_eq hsquare.symm
    refine ⟨getD_mem hlt, ?_⟩
    simp only [rhs]
    rw [List.getD_eq_getElem _ _ (by rwa [List.length_map]),
      List.getD_eq_getElem _ _ hlt, List.getElem_map]
  have hlen : ∀ r ∈ List.finRange missing.length,
      (rhs r).length = (List.replicate len (0 : UInt8)).length := by
    intro r _
    obtain ⟨hj, hpresent⟩ := hrows _ (hrow r).1
    rw [(hrow r).2, h.length_syndrome hj hpresent, List.length_replicate]
  have hdata : (data.getD missing[c] []).length = len := by
    have hlt : missing[c] < data.length :=
      lt_of_missing hmissing (List.getElem_mem c.isLt)
    rw [List.getD_eq_getElem _ _ hlt]
    exact h.lengths _ (List.getElem_mem hlt)
  apply eq_of_symbol
  · rw [solve, length_combination (aInv.entry c), List.length_replicate, hdata]
  · intro p
    let lost : Fin missing.length → GF256 := fun i =>
      symbol (data.getD missing[i] []) p
    have hsyndrome : (fun r => symbol (rhs r) p) =
        (coefficients data.length rows missing).toMatrix *ᵥ lost := by
      funext r
      obtain ⟨hj, hpresent⟩ := hrows _ (hrow r).1
      rw [(hrow r).2, h.symbol_syndrome hj hpresent, ← hmissing,
        ← Fin.sum_univ_fun_getElem]
      apply Finset.sum_congr rfl
      intro i _
      simp only [Rows.toMatrix, coefficients, Rows.entry_build, lost,
        List.getD_eq_getElem _ _ i.isLt, Fin.getElem_fin]
    calc symbol (solve aInv (rows.map (syndrome shards data.length)) len c) p
        = ∑ r, aInv.toMatrix c r * symbol (rhs r) p := by
          rw [solve, symbol_combination (aInv.entry c) rhs _ _ hlen,
            symbol_replicate, zero_add, Fin.sum_univ_def]
          rfl
      _ = (aInv.toMatrix *ᵥ
            ((coefficients data.length rows missing).toMatrix *ᵥ lost)) c := by
          rw [← hsyndrome]
          rfl
      _ = lost c := by
          rw [Matrix.mulVec_mulVec, Rows.invert_mul hinvert, Matrix.one_mulVec]

/-- Writing the missing shards completes the data. -/
theorem fill_missing (h : Received data len m shards) {missing : List ℕ}
    (hmissing : missing = missingData shards data.length)
    (value : Fin missing.length → Bytes)
    (hvalue : ∀ c, value c = data.getD missing[c] []) :
    (List.finRange missing.length).foldl
        (fun shards c => shards.set missing[c] (some (value c))) shards =
      data.map some ++ shards.drop data.length := by
  have hcount := h.count
  apply List.ext_getElem?
  intro i
  by_cases hmem : i ∈ missing
  · obtain ⟨c, hc, rfl⟩ := List.mem_iff_getElem.mp hmem
    have hlt := lt_of_missing hmissing hmem
    have hwritten := getElem?_foldl_set
      (fun c : Fin missing.length => missing[c]) (fun c => some (value c))
      (List.finRange missing.length) shards
      (i := missing[c]) (v := some (data.getD missing[c] []))
      (by omega) ⟨⟨c, hc⟩, List.mem_finRange _, rfl⟩ (fun c' _ heq => by
        rw [hvalue c', heq])
    rw [hwritten, List.getElem?_append_left (by rwa [List.length_map]),
      List.getElem?_map, List.getElem?_eq_getElem hlt, Option.map_some,
      List.getD_eq_getElem _ _ hlt]
  · rw [getElem?_foldl_set_of_ne (fun c : Fin missing.length => missing[c])
      (fun c => some (value c)) _ _
      (fun c _ heq => hmem (List.mem_of_getElem heq))]
    rcases Nat.lt_or_ge i data.length with hlt | hge
    · have hpresent : isPresent shards i = true := by
        by_contra habsent
        apply hmem
        rw [hmissing]
        exact List.mem_filter.mpr
          ⟨List.mem_range.mpr hlt, by simpa using habsent⟩
      rw [List.getElem?_append_left (by rwa [List.length_map]),
        List.getElem?_map, isPresent_iff.mp hpresent,
        h.shardAt_data hlt hpresent, List.getElem?_eq_getElem hlt,
        Option.map_some, List.getD_eq_getElem _ _ hlt]
    · rw [List.getElem?_append_right (by rwa [List.length_map]),
        List.length_map, List.getElem?_drop, Nat.add_sub_cancel' hge]

theorem length_present (h : Received data len m shards) :
    ∀ s ∈ shards.filterMap id, s.length = len := by
  intro s hs
  obtain ⟨o, ho, rfl⟩ := List.mem_filterMap.mp hs
  obtain ⟨i, hi⟩ := List.mem_iff_getElem?.mp ho
  exact length_codeword h.lengths s
    (List.mem_of_getElem? (h.agree i s hi))

end Received

/-- The common length is read off the first present shard. -/
theorem head_length {present : List Bytes} {len : ℕ}
    (h : ∀ s ∈ present, s.length = len) (hne : present ≠ []) :
    (present.head?.map List.length).getD 0 = len := by
  cases present with
  | nil => exact absurd rfl hne
  | cons s present => exact h s List.mem_cons_self

/-- Any `k` of the shards give the data back. -/
theorem reconstructData_eq {data : List Bytes} {len m : ℕ} {shards : Shards}
    (h : Received data len m shards)
    (henough : data.length ≤ shards.countP Option.isSome) :
    reconstructData shards data.length =
      (true, data.map some ++ shards.drop data.length) := by
  have hnonempty := h.nonempty
  have hrange := h.range
  have hpositive := h.positive
  have hcount := h.count
  have hle : data.length ≤ shards.length := by omega
  have hshape : ¬(data.length = 0 ∨ shards.length < data.length ∨
      255 < shards.length) := by omega
  simp only [reconstructData, if_neg hshape]
  generalize hmissing : missingData shards data.length = missing
  by_cases hnone : missing = []
  · subst hnone
    rw [if_pos rfl]
    exact congrArg (Prod.mk true)
      (h.fill_missing hmissing.symm (fun c => c.elim0) fun c => c.elim0)
  · have hsplit : (shards.take data.length ++
        shards.drop data.length).countP Option.isSome = _ := List.countP_append
    rw [List.take_append_drop] at hsplit
    have hmissingLength := length_missingData shards data.length
    rw [hmissing, length_presentData hle] at hmissingLength
    have hrowsLength := length_parityRows hle missing.length
    have hsquare : (parityRows shards data.length missing.length).length =
        missing.length := by
      rw [hrowsLength]
      omega
    have hrows : ∀ j ∈ parityRows shards data.length missing.length,
        j < m ∧ isPresent shards (data.length + j) = true :=
      fun j hj => h.mem_parityRows hj
    have hpresent : shards.filterMap id ≠ [] := by
      intro hempty
      obtain ⟨j, hj⟩ := List.exists_mem_of_ne_nil _
        (List.ne_nil_of_length_pos (hsquare ▸ List.length_pos_iff.mpr hnone))
      have hget := isPresent_iff.mp (hrows j hj).2
      have hin : shardAt shards (data.length + j) ∈ shards.filterMap id :=
        List.mem_filterMap.mpr ⟨_, List.mem_of_getElem? hget, rfl⟩
      rw [hempty] at hin
      cases hin
    have hlength := head_length h.length_present hpresent
    have hequal : ¬(len = 0 ∨ ∃ s ∈ shards.filterMap id, s.length ≠ len) := by
      rintro (hzero | ⟨s, hs, hne⟩)
      · omega
      · exact hne (h.length_present s hs)
    have hsome := invert_coefficients (k := data.length)
      (fun j hj => by have := (hrows j hj).1; omega)
      (fun i hi => Received.lt_of_missing hmissing.symm hi) hsquare
      (Received.nodup_parityRows _ _ _)
      (hmissing ▸ List.nodup_range.filter _)
    obtain ⟨aInv, hinvert⟩ := Option.isSome_iff_exists.mp hsome
    rw [if_neg hnone, if_neg (by omega), hlength, if_neg hequal, recover,
      hinvert]
    exact congrArg (Prod.mk true)
      (h.fill_missing hmissing.symm _
        (h.solve_eq hrows hmissing.symm hsquare hinvert))

end GameStreamer.Fec
