import GameStreamer.Fec.ReedSolomon

/-!
# Erasure patterns

A pattern says which of the `k + m` slots of a codeword are lost.  The decoder
gives the data back exactly when the parity shards that are left are at least
as many as the data shards that are lost: the code is maximum distance
separable.
-/

namespace GameStreamer.Fec

/-- The slots of a codeword less the shards that the pattern takes. -/
def erase (lost : ℕ → Bool) (word : List Bytes) : Shards :=
  word.mapIdx fun i s => if lost i then none else some s

/-- The data slots that the pattern takes. -/
def lostData (lost : ℕ → Bool) (k : ℕ) : List ℕ :=
  (List.range k).filter lost

/-- The parity rows that the pattern leaves. -/
def keptParity (lost : ℕ → Bool) (k m : ℕ) : List ℕ :=
  (List.range m).filter fun j => !lost (k + j)

@[simp]
theorem length_erase (lost : ℕ → Bool) (word : List Bytes) :
    (erase lost word).length = word.length :=
  List.length_mapIdx

theorem getElem?_erase (lost : ℕ → Bool) (word : List Bytes) (i : ℕ) :
    (erase lost word)[i]? =
      word[i]?.map fun s => if lost i then none else some s :=
  List.getElem?_mapIdx

theorem isPresent_erase (lost : ℕ → Bool) {word : List Bytes} {i : ℕ}
    (hi : i < word.length) : isPresent (erase lost word) i = !lost i := by
  rw [isPresent, List.getD_eq_getElem?_getD, getElem?_erase,
    List.getElem?_eq_getElem hi]
  cases lost i <;> rfl

section Pattern

variable (lost : ℕ → Bool) {word : List Bytes} {k m : ℕ}

theorem missingData_erase (hk : k ≤ word.length) :
    missingData (erase lost word) k = lostData lost k := by
  apply List.filter_congr
  intro i hi
  rw [isPresent_erase lost ((List.mem_range.mp hi).trans_le hk), Bool.not_not]

/-- The decoder takes its rows from the parity shards that are left. -/
theorem parityRows_erase (hlength : word.length = k + m) (count : ℕ) :
    parityRows (erase lost word) k count =
      (keptParity lost k m).take count := by
  have hshift : List.range' k m = (List.range m).map (k + ·) := by
    rw [List.range_eq_range', List.map_add_range', Nat.add_zero]
  rw [parityRows, length_erase, hlength, Nat.add_sub_cancel_left, hshift,
    List.filter_map, List.map_map, keptParity]
  congr 1
  calc
    ((List.range m).filter
        ((fun i => isPresent (erase lost word) i) ∘ (k + ·))).map
          ((· - k) ∘ (k + ·)) =
        (List.range m).filter
          ((fun i => isPresent (erase lost word) i) ∘ (k + ·)) := by
      apply List.map_id''
      intro j
      exact Nat.add_sub_cancel_left k j
    _ = (List.range m).filter fun j => !lost (k + j) := by
      apply List.filter_congr
      intro j hj
      have hlt : k + j < word.length := by
        have hrow := List.mem_range.mp hj
        omega
      exact isPresent_erase lost hlt

/-- Each lost data shard and each parity shard that is left changes the number
of shards present by one. -/
theorem countP_erase (hlength : word.length = k + m) :
    (erase lost word).countP Option.isSome + (lostData lost k).length =
      k + (keptParity lost k m).length := by
  have hk : k ≤ (erase lost word).length := by
    rw [length_erase, hlength]
    exact Nat.le_add_right k m
  have hsplit : ((erase lost word).take k ++
      (erase lost word).drop k).countP Option.isSome = _ := List.countP_append
  rw [List.take_append_drop] at hsplit
  have hdata := length_missingData (erase lost word) k
  rw [length_presentData hk, missingData_erase lost (by omega)] at hdata
  have hdrop : (erase lost word).drop k = erase (fun j => lost (k + j))
      (word.drop k) := by
    apply List.ext_getElem?
    intro j
    rw [List.getElem?_drop, getElem?_erase, getElem?_erase,
      List.getElem?_drop]
  have hparity : ((erase lost word).drop k).countP Option.isSome =
      (keptParity lost k m).length := by
    have hrows := length_parityRows hk m
    rw [parityRows_erase lost hlength, List.length_take, Nat.min_eq_right,
      Nat.min_eq_right] at hrows
    · exact hrows.symm
    · rw [hdrop]
      apply List.countP_le_length.trans
      rw [length_erase, List.length_drop]
      omega
    · apply (List.length_filter_le _ _).trans
      rw [List.length_range]
  omega

end Pattern

section Code

variable {data : List Bytes} {len m : ℕ}

@[simp]
theorem length_codeword (data : List Bytes) (len m : ℕ) :
    (codeword data len m).length = data.length + m := by
  rw [codeword, List.length_append, List.length_map, List.length_range]

theorem received_erase (hnonempty : 1 ≤ data.length)
    (hrange : data.length + m ≤ 255) (hpositive : 0 < len)
    (hlen : ∀ d ∈ data, d.length = len) (lost : ℕ → Bool) :
    Received data len m (erase lost (codeword data len m)) where
  nonempty := hnonempty
  range := hrange
  positive := hpositive
  lengths := hlen
  count := by rw [length_erase, length_codeword]
  agree := by
    intro i s hslot
    rw [getElem?_erase] at hslot
    obtain ⟨t, ht, hkept⟩ := Option.map_eq_some_iff.mp hslot
    rw [ht]
    split_ifs at hkept with hlost
    exact hkept

/-- Square submatrices of the coefficients are invertible. -/
theorem invert_submatrix {k m : ℕ} (hrange : k + m ≤ 255) {rows cols : List ℕ}
    (hrows : rows.Nodup) (hcols : cols.Nodup) (hrow : ∀ j ∈ rows, j < m)
    (hcol : ∀ i ∈ cols, i < k) (hsquare : rows.length = cols.length) :
    (coefficients k rows cols).invert.isSome := by
  apply invert_coefficients _ hcol hsquare hrows hcols
  intro j hj
  have hlt := hrow j hj
  omega

/-- With too few parity shards left, nothing is written. -/
theorem reconstructData_short {shards : Shards} {k : ℕ}
    (hk : 1 ≤ k) (hle : k ≤ shards.length) (hrange : shards.length ≤ 255)
    (hshort : (parityRows shards k (missingData shards k).length).length <
      (missingData shards k).length) :
    reconstructData shards k = (false, shards) := by
  have hmissing : missingData shards k ≠ [] := by
    intro hnone
    rw [hnone] at hshort
    exact Nat.not_lt_zero _ hshort
  rw [reconstructData, if_neg (by omega), if_neg hmissing, if_pos hshort]

/-- As many parity shards as lost data shards are enough. -/
theorem reconstructData_of_enough {lost : ℕ → Bool}
    (hnonempty : 1 ≤ data.length) (hrange : data.length + m ≤ 255)
    (hpositive : 0 < len) (hlen : ∀ d ∈ data, d.length = len)
    (henough : (lostData lost data.length).length ≤
      (keptParity lost data.length m).length) :
    reconstructData (erase lost (codeword data len m)) data.length =
      (true, data.map some ++
        (erase lost (codeword data len m)).drop data.length) := by
  apply reconstructData_eq
    (received_erase hnonempty hrange hpositive hlen lost)
  have hcount := countP_erase lost (length_codeword data len m)
  omega

/-- One parity shard less than lost data shards is too few. -/
theorem reconstructData_of_few {lost : ℕ → Bool}
    (hnonempty : 1 ≤ data.length) (hrange : data.length + m ≤ 255)
    (hfew : (keptParity lost data.length m).length <
      (lostData lost data.length).length) :
    reconstructData (erase lost (codeword data len m)) data.length =
      (false, erase lost (codeword data len m)) := by
  have hlength := length_codeword data len m
  have hle : data.length ≤ (codeword data len m).length :=
    hlength.symm ▸ Nat.le_add_right data.length m
  apply reconstructData_short hnonempty
  · rwa [length_erase]
  · rwa [length_erase, hlength]
  · rw [missingData_erase lost hle, parityRows_erase lost hlength,
      List.length_take]
    exact (Nat.min_le_right _ _).trans_lt hfew

/-- With parity shards left for all the lost data shards, every data slot is
given back; with fewer, the slots stay.  The matrix that is inverted is never
singular. -/
theorem reconstructData_erase (data : List Bytes) (len m : ℕ)
    (lost : ℕ → Bool) (hnonempty : 1 ≤ data.length)
    (hrange : data.length + m ≤ 255) (hpositive : 0 < len)
    (hlen : ∀ d ∈ data, d.length = len) :
    ∃ parity, encodeParity data m = some parity ∧
      (let slots := erase lost (data ++ parity)
       if (lostData lost data.length).length ≤
          (keptParity lost data.length m).length then
         reconstructData slots data.length =
           (true, data.map some ++ slots.drop data.length)
       else reconstructData slots data.length = (false, slots)) ∧
      ∀ rows cols : List ℕ, rows.Nodup → cols.Nodup → (∀ j ∈ rows, j < m) →
        (∀ i ∈ cols, i < data.length) → rows.length = cols.length →
          (coefficients data.length rows cols).toMatrix.det ≠ 0 ∧
          (coefficients data.length rows cols).invert.isSome := by
  refine ⟨_, encodeParity_eq len m hnonempty hrange hlen, ?_, ?_⟩
  · split_ifs with henough
    · exact reconstructData_of_enough hnonempty hrange hpositive hlen henough
    · exact reconstructData_of_few hnonempty hrange (Nat.lt_of_not_le henough)
  · intro rows cols hrows hcols hrow hcol hsquare
    have hinvert := invert_submatrix hrange hrows hcols hrow hcol hsquare
    exact ⟨(Rows.invert_isSome_iff _).mp hinvert, hinvert⟩

/-- Two data shards, of which the first is lost, and one parity shard of two. -/
theorem reconstructData_erase_first :
    ∃ parity, encodeParity [[1, 2], [3, 4]] 2 = some parity ∧
      reconstructData (erase (fun i => i == 0 || i == 2)
        ([[1, 2], [3, 4]] ++ parity)) 2 =
        (true, [[1, 2], [3, 4]].map some ++
          (erase (fun i => i == 0 || i == 2)
            ([[1, 2], [3, 4]] ++ parity)).drop 2) := by
  obtain ⟨parity, hparity, hslots, -⟩ := reconstructData_erase
    [[1, 2], [3, 4]] 2 2 (fun i => i == 0 || i == 2) (by decide) (by decide)
    (by decide) (by decide)
  exact ⟨parity, hparity, hslots⟩

end Code

end GameStreamer.Fec
