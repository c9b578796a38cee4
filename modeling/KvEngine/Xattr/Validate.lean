import KvEngine.Xattr.BlobSpec
import KvEngine.Lib.Except

/-!
# What `validate` accepts

The xattr section of a document is a 4-byte big-endian length `L` and `L`
bytes of pairs, each a 4-byte big-endian length `n` of what follows it, the
key, a NUL, the value and a NUL. `validate` walks the pairs by their NULs and
checks the declared lengths afterwards; this module shows that it accepts
exactly the sections that the format describes, and that the system size it
computes is the one `Blob` computes.

- `encodePair`, `encodePairs`, `PairOk`, `WellFormed`: the format: the pairs
  laid out one after the other, each with a non-empty valid key and a value
  the JSON validator accepts, no NUL in either, the keys distinct, and the
  system pairs, with the length word, within `PrivilegedBytes`.
- `pairsAt blob size offset`: the bytes of the section from `offset` on, the
  only bytes the loop reads from there.
- `validateLoop_sound`, `validateLoop_complete`: a run of the loop that ends
  at the section's end has read a list of pairs, and a list of pairs is read
  to the end.
- `validate_wellFormed`, `validate_of_wellFormed`: the two directions for the
  whole blob. `get_body_offset` returns `len + 4` as a `uint32_t`, so a
  section of `2^32 - 4` bytes or more wraps to an offset below 4 and is
  refused: the second direction needs a blob shorter than 4 GiB.
- `sizeLoop_encodePairs`, `getSystemSize_eq_blob`: `get_system_size` and
  `Blob::get_system_size` agree on every accepted blob.
-/

namespace KvEngine.Xattr

open ByteList

/-! ## The format -/

/-- One pair as the format lays it out: the length of what follows the length
word, the key, a NUL, the value and a NUL. -/
def encodePair (p : List UInt8 × List UInt8) : List UInt8 :=
  be32 (p.1.length + p.2.length + 2).toUInt32 ++ p.1 ++ 0 :: p.2 ++ [0]

/-- The pairs laid out one after the other. -/
def encodePairs (ps : List (List UInt8 × List UInt8)) : List UInt8 :=
  (ps.map encodePair).flatten

/-- The bytes the system pairs take, with their length words. -/
def systemBytes (ps : List (List UInt8 × List UInt8)) : Nat :=
  ((ps.filter fun p => isSystemKey p.1).map fun p => 4 + (p.1.length + p.2.length + 2)).sum

/-- A pair the format allows, with `validator` the JSON syntax validator. -/
structure PairOk (validator : List UInt8 → Bool) (p : List UInt8 × List UInt8) : Prop where
  key_ne_nil : p.1 ≠ []
  zero_not_mem_key : 0 ∉ p.1
  valid_key : (isValidXattrKey p.1).isSome
  zero_not_mem_value : 0 ∉ p.2
  valid_value : validator p.2 = true
  length_lt : p.1.length + p.2.length + 2 < 2 ^ 32

/-- A well-formed xattr section at the front of `b`: the length word, then
pairs the format allows with distinct keys, whose system pairs fit in
`PrivilegedBytes` with the length word; the body follows. -/
def WellFormed (validator : List UInt8 → Bool) (b : List UInt8) : Prop :=
  ∃ ps body, b = be32 (encodePairs ps).length.toUInt32 ++ encodePairs ps ++ body ∧
    (encodePairs ps).length < 2 ^ 32 ∧ (∀ p ∈ ps, PairOk validator p) ∧
    (ps.map Prod.fst).Nodup ∧ 4 + systemBytes ps ≤ PrivilegedBytes

@[simp] theorem length_encodePair (p : List UInt8 × List UInt8) :
    (encodePair p).length = 4 + (p.1.length + p.2.length + 2) := by
  simp [encodePair]
  omega

@[simp] theorem encodePairs_nil : encodePairs [] = [] := rfl

@[simp] theorem encodePairs_cons (p : List UInt8 × List UInt8) (ps : List (List UInt8 × List UInt8)) :
    encodePairs (p :: ps) = encodePair p ++ encodePairs ps := rfl

@[simp] theorem systemBytes_nil : systemBytes [] = 0 := rfl

@[simp] theorem systemBytes_cons (p : List UInt8 × List UInt8) (ps : List (List UInt8 × List UInt8)) :
    systemBytes (p :: ps) =
      (if isSystemKey p.1 then 4 + (p.1.length + p.2.length + 2) else 0) + systemBytes ps := by
  unfold systemBytes
  cases h : isSystemKey p.1 <;> simp [h]

/-- Every pair takes at least one byte. -/
theorem length_le_length_encodePairs (ps : List (List UInt8 × List UInt8)) :
    ps.length ≤ (encodePairs ps).length := by
  induction ps with
  | nil => simp
  | cons p ps ih =>
    simp only [encodePairs_cons, List.length_append, length_encodePair, List.length_cons]
    omega

/-- The key's first byte tells a system pair, as `keybuf[0] == '_'` does. -/
theorem isSystemKey_iff_getD {key : List UInt8} : isSystemKey key = true ↔ key.getD 0 0 = underscore :=
  beq_iff_eq

/-! ## NUL-terminated pieces -/

theorem zero_not_mem_cstr (l : List UInt8) : 0 ∉ cstr l := by
  intro h
  have hall := List.all_eq_true.mp (List.all_takeWhile (p := fun x => decide (x ≠ 0)) (l := l)) 0 h
  simp at hall

/-- A buffer with a NUL is its first string, the NUL and what follows. -/
theorem cstr_split : ∀ {l : List UInt8}, 0 ∈ l → l = cstr l ++ 0 :: l.drop ((cstr l).length + 1)
  | [], h => absurd h List.not_mem_nil
  | a :: l, h => by
    by_cases ha : a = 0
    · subst ha
      simp [cstr]
    · have hl : 0 ∈ l := by
        rcases List.mem_cons.mp h with h | h
        · exact absurd h.symm ha
        · exact h
      have hc : cstr (a :: l) = a :: cstr l := by simp [cstr, ha]
      rw [hc, List.length_cons, List.drop_succ_cons, List.cons_append, ← cstr_split hl]

theorem trimString_eq_ok {l k : List UInt8} : trimString l = .ok k ↔ 0 ∈ l ∧ k = cstr l := by
  unfold trimString
  split
  · rename_i h
    rw [Except.ok.injEq]
    constructor
    · intro hk
      exact ⟨h, hk.symm⟩
    · intro hk
      exact hk.2.symm
  · rename_i h
    constructor
    · intro hk
      cases hk
    · intro hk
      exact absurd hk.1 h

/-! ## The bytes the loop reads -/

/-- The bytes of the section, of end `size`, from `offset` on. -/
def pairsAt (blob : List UInt8) (size offset : Nat) : List UInt8 :=
  (blob.drop offset).take (size - offset)

section PairsAt

variable {blob : List UInt8} {size : Nat}

theorem length_pairsAt (hsize : size ≤ blob.length) (offset : Nat) :
    (pairsAt blob size offset).length = size - offset := by
  simp only [pairsAt, List.length_take, List.length_drop]
  omega

theorem drop_pairsAt (offset n : Nat) :
    (pairsAt blob size offset).drop n = pairsAt blob size (offset + n) := by
  simp only [pairsAt, List.drop_take, List.drop_drop]
  congr 1
  omega

theorem readBe32_pairsAt {offset : Nat} (h : offset + 4 ≤ size) :
    readBe32 (pairsAt blob size offset) 0 = readBe32 blob offset := by
  rw [pairsAt, readBe32_take (by omega)]
  simp [readBe32, List.getElem?_drop]

/-- The section from `offset` is the length word there and the rest. -/
theorem pairsAt_eq_word_append (hsize : size ≤ blob.length) {offset : Nat} (h : offset + 4 ≤ size) :
    pairsAt blob size offset = be32 (readBe32 blob offset) ++ pairsAt blob size (offset + 4) := by
  rw [← readBe32_pairsAt h, be32_readBe32 (by rw [length_pairsAt hsize]; omega), List.drop_zero,
    ← drop_pairsAt, List.take_append_drop]

/-- A string of the section from `offset`, its NUL and the section after it. -/
theorem pairsAt_eq_cstr_append {offset : Nat} (h : 0 ∈ pairsAt blob size offset) :
    pairsAt blob size offset = cstr (pairsAt blob size offset) ++
      0 :: pairsAt blob size (offset + (cstr (pairsAt blob size offset)).length + 1) := by
  rw [Nat.add_assoc, ← drop_pairsAt]
  exact cstr_split h

end PairsAt

/-! ## The loop -/

section Loop

variable {validator : List UInt8 → Bool} {blob : List UInt8} {size : Nat}

/-- A turn of the loop inside the section that leads to acceptance read a
pair: its length word, key and value passed every check, and the loop goes on
after the value's NUL. -/
theorem validateLoop_succ_inv {fuel offset : Nat} {keys : List (List UInt8)} {sys : Nat}
    {d : ValidationData} (hlt : offset < size)
    (h : validateLoop validator blob size (fuel + 1) offset keys sys = .ok d) (hv : d.valid = true) :
    ∃ key value, offset + 7 ≤ size ∧ offset + 4 + (readBe32 blob offset).toNat ≤ size ∧
      trimString (pairsAt blob size (offset + 4)) = .ok key ∧ (isValidXattrKey key).isSome ∧
      trimString (pairsAt blob size (offset + 4 + key.length + 1)) = .ok value ∧
      validator value = true ∧ (readBe32 blob offset).toNat = key.length + value.length + 2 ∧
      key ∉ keys ∧
      validateLoop validator blob size fuel (offset + 4 + key.length + 1 + value.length + 1)
        (key :: keys) (if key.getD 0 0 = underscore
          then sys + 4 + (key.length + value.length + 2) else sys) = .ok d := by
  unfold validateLoop at h
  rw [if_pos hlt] at h
  -- every refusal is the default `ValidationData`, which is not valid
  have hrej : (Except.ok {} : Except Error ValidationData) ≠ .ok d := by
    intro hx
    cases hx
    exact absurd hv (by decide)
  split at h
  · exact absurd h hrej
  rename_i h7
  dsimp only at h
  split at h
  · exact absurd h hrej
  rename_i hkv
  obtain ⟨key, hkey, h⟩ := Except.bind_eq_ok.mp h
  split at h
  · exact absurd h hrej
  rename_i hvalid
  obtain ⟨value, hvalue, h⟩ := Except.bind_eq_ok.mp h
  split at h
  · exact absurd h hrej
  rename_i hval
  split at h
  · exact absurd h hrej
  rename_i hlen
  split at h
  · exact absurd h hrej
  rename_i hnew
  refine ⟨key, value, by omega, by omega, hkey, by simpa [Option.isSome_iff_ne_none] using hvalid, hvalue, by simpa using hval,
    by simpa using hlen, hnew, h⟩

/-- The bytes of a pair the loop read: the section from its length word is
the pair's layout and then the section after its value. -/
theorem pairsAt_eq_encodePair (hsize : size ≤ blob.length) {offset : Nat} {key value : List UInt8}
    (h4 : offset + 4 ≤ size)
    (hkey : trimString (pairsAt blob size (offset + 4)) = .ok key)
    (hvalue : trimString (pairsAt blob size (offset + 4 + key.length + 1)) = .ok value)
    (hlen : (readBe32 blob offset).toNat = key.length + value.length + 2) :
    pairsAt blob size offset = encodePair (key, value) ++
      pairsAt blob size (offset + 4 + key.length + 1 + value.length + 1) := by
  obtain ⟨hk0, hk⟩ := trimString_eq_ok.mp hkey
  obtain ⟨hv0, hv⟩ := trimString_eq_ok.mp hvalue
  have hsplitKey : pairsAt blob size (offset + 4) =
      key ++ 0 :: pairsAt blob size (offset + 4 + key.length + 1) := by
    rw [hk]
    exact pairsAt_eq_cstr_append hk0
  have hsplitValue : pairsAt blob size (offset + 4 + key.length + 1) =
      value ++ 0 :: pairsAt blob size (offset + 4 + key.length + 1 + value.length + 1) := by
    rw [hv]
    exact pairsAt_eq_cstr_append hv0
  have hword : readBe32 blob offset = (key.length + value.length + 2).toUInt32 := by
    rw [← hlen, Nat.toUInt32, UInt32.ofNat_toNat]
  rw [pairsAt_eq_word_append hsize h4, hsplitKey, hsplitValue, hword]
  simp [encodePair]

/-- At or past the section's end the loop stops, accepting exactly at the
end. -/
theorem validateLoop_of_not_lt {fuel offset : Nat} {keys : List (List UInt8)} {sys : Nat}
    (h : ¬offset < size) :
    validateLoop validator blob size fuel offset keys sys = .ok ⟨offset = size, sys⟩ := by
  cases fuel with
  | zero => rfl
  | succ fuel =>
    unfold validateLoop
    rw [if_neg h]

/-- The pair a turn read is one the format allows. -/
theorem pairOk_of_trim {key value : List UInt8} {l l' : List UInt8} (hkey : trimString l = .ok key)
    (hvalid : (isValidXattrKey key).isSome = true) (hvalue : trimString l' = .ok value)
    (hval : validator value = true) (hlen : key.length + value.length + 2 < 2 ^ 32) :
    PairOk validator (key, value) := by
  obtain ⟨n, hn⟩ := Option.isSome_iff_exists.mp hvalid
  refine ⟨ne_nil_of_isValidXattrKey hn, ?_, hvalid, ?_, hval, hlen⟩
  · rw [(trimString_eq_ok.mp hkey).2]
    exact zero_not_mem_cstr _
  · rw [(trimString_eq_ok.mp hvalue).2]
    exact zero_not_mem_cstr _

/-- The system size a turn adds is the pair's system bytes. -/
theorem systemSize_step {key value : List UInt8} (sys : Nat) :
    (if key.getD 0 0 = underscore then sys + 4 + (key.length + value.length + 2) else sys) =
      sys + (if isSystemKey key then 4 + (key.length + value.length + 2) else 0) := by
  by_cases hs : key.getD 0 0 = underscore
  · rw [if_pos hs, if_pos (isSystemKey_iff_getD.mpr hs)]
    omega
  · rw [if_neg hs, if_neg (mt isSystemKey_iff_getD.mp hs)]
    omega

/-- A run of the loop from `offset` that accepts has read the section from
`offset` as pairs the format allows, with distinct keys not seen before, and
added their system bytes. The induction is on the turns left. -/
theorem validateLoop_sound (hsize : size ≤ blob.length) :
    ∀ {fuel offset : Nat} {keys : List (List UInt8)} {sys : Nat} {d : ValidationData},
      offset ≤ size → validateLoop validator blob size fuel offset keys sys = .ok d →
      d.valid = true →
      ∃ ps, pairsAt blob size offset = encodePairs ps ∧ (∀ p ∈ ps, PairOk validator p) ∧
        (ps.map Prod.fst).Nodup ∧ (∀ p ∈ ps, p.1 ∉ keys) ∧ d.systemSize = sys + systemBytes ps := by
  -- the run stops at the section's end having read no pair
  have atEnd : ∀ {offset : Nat} {keys : List (List UInt8)} {sys : Nat} {d : ValidationData},
      offset ≤ size → (.ok ⟨offset = size, sys⟩ : Except Error ValidationData) = .ok d →
      d.valid = true →
      ∃ ps, pairsAt blob size offset = encodePairs ps ∧ (∀ p ∈ ps, PairOk validator p) ∧
        (ps.map Prod.fst).Nodup ∧ (∀ p ∈ ps, p.1 ∉ keys) ∧ d.systemSize = sys + systemBytes ps := by
    intro offset keys sys d _ h hv
    cases h
    have hend : offset = size := by simpa using hv
    refine ⟨[], ?_, by simp, by simp, by simp, by simp⟩
    simp [pairsAt, hend]
  intro fuel
  induction fuel with
  | zero =>
    intro offset keys sys d ho h hv
    exact atEnd ho h hv
  | succ fuel ih =>
    intro offset keys sys d ho h hv
    by_cases hlt : offset < size
    · obtain ⟨key, value, h7, hkv, hkey, hvalid, hvalue, hval, hlen, hnew, h⟩ :=
        validateLoop_succ_inv hlt h hv
      obtain ⟨ps, hps, hok, hnd, hfresh, hsys⟩ := ih (by omega) h hv
      have hpair : PairOk validator (key, value) :=
        pairOk_of_trim hkey hvalid hvalue hval (hlen ▸ (readBe32 blob offset).toNat_lt)
      refine ⟨(key, value) :: ps, ?_, ?_, ?_, ?_, ?_⟩
      · rw [pairsAt_eq_encodePair hsize (by omega) hkey hvalue hlen, hps]
        rfl
      · intro p hp
        rcases List.mem_cons.mp hp with rfl | hp
        · exact hpair
        · exact hok p hp
      · refine List.nodup_cons.mpr ⟨?_, hnd⟩
        intro hmem
        obtain ⟨p, hp, hpk⟩ := List.mem_map.mp hmem
        exact hfresh p hp (hpk ▸ List.mem_cons_self)
      · intro p hp
        rcases List.mem_cons.mp hp with rfl | hp
        · exact hnew
        · exact fun hk => hfresh p hp (List.mem_cons_of_mem _ hk)
      · rw [hsys, systemSize_step]
        simp only [systemBytes_cons]
        omega
    · rw [validateLoop_of_not_lt hlt] at h
      exact atEnd ho h hv

/-- A turn at a pair whose checks all pass goes on after the pair's value. -/
theorem validateLoop_succ_eq {fuel offset : Nat} {keys : List (List UInt8)} {sys : Nat}
    {key value : List UInt8} (hlt : offset < size) (h7 : offset + 7 ≤ size)
    (hkv : offset + 4 + (readBe32 blob offset).toNat ≤ size)
    (hkey : trimString (pairsAt blob size (offset + 4)) = .ok key)
    (hvalid : (isValidXattrKey key).isSome = true)
    (hvalue : trimString (pairsAt blob size (offset + 4 + key.length + 1)) = .ok value)
    (hval : validator value = true) (hlen : (readBe32 blob offset).toNat = key.length + value.length + 2)
    (hnew : key ∉ keys) :
    validateLoop validator blob size (fuel + 1) offset keys sys =
      validateLoop validator blob size fuel (offset + 4 + key.length + 1 + value.length + 1)
        (key :: keys) (if key.getD 0 0 = underscore
          then sys + 4 + (key.length + value.length + 2) else sys) := by
  rw [validateLoop.eq_2, if_pos hlt, if_neg (by omega)]
  dsimp only
  rw [if_neg (by omega)]
  change (trimString (pairsAt blob size (offset + 4)) >>= _) = _
  rw [hkey, Except.ok_bind]
  rw [if_neg (by simpa [Option.isSome_iff_ne_none] using hvalid)]
  change (trimString (pairsAt blob size (offset + 4 + key.length + 1)) >>= _) = _
  rw [hvalue, Except.ok_bind]
  rw [if_neg (by simpa using hval), if_neg (by omega), if_neg hnew]

/-- Where the section holds a pair, the reads of a turn find the pair's
pieces: its length word, its key and value each with its NUL, and the pairs
after it. -/
theorem pairsAt_pieces (hsize : size ≤ blob.length) {offset : Nat} {key value : List UInt8}
    {ps : List (List UInt8 × List UInt8)}
    (hps : pairsAt blob size offset = encodePairs ((key, value) :: ps))
    (hlt : key.length + value.length + 2 < 2 ^ 32) :
    offset + 4 + (key.length + value.length + 2) + (encodePairs ps).length = size ∧
    (readBe32 blob offset).toNat = key.length + value.length + 2 ∧
    pairsAt blob size (offset + 4) = key ++ 0 :: (value ++ 0 :: encodePairs ps) ∧
    pairsAt blob size (offset + 4 + key.length + 1) = value ++ 0 :: encodePairs ps ∧
    pairsAt blob size (offset + 4 + key.length + 1 + value.length + 1) = encodePairs ps := by
  have hsec : (pairsAt blob size offset).length = 4 + (key.length + value.length + 2) +
      (encodePairs ps).length := by
    rw [hps, encodePairs_cons, List.length_append, length_encodePair]
  rw [length_pairsAt hsize] at hsec
  have hkeySec : pairsAt blob size (offset + 4) = key ++ 0 :: (value ++ 0 :: encodePairs ps) := by
    rw [← drop_pairsAt, hps, encodePairs_cons, encodePair]
    simp only [List.append_assoc, List.cons_append]
    exact List.drop_left' (length_be32 _)
  have hvalueSec : pairsAt blob size (offset + 4 + key.length + 1) = value ++ 0 :: encodePairs ps := by
    rw [Nat.add_assoc (offset + 4), ← drop_pairsAt, hkeySec]
    simp [List.drop_append]
  refine ⟨by omega, ?_, hkeySec, hvalueSec, ?_⟩
  · rw [← @readBe32_pairsAt blob size offset (by omega), hps, encodePairs_cons,
      encodePair]
    simp only [List.append_assoc, readBe32_be32]
    exact UInt32.toNat_ofNat_of_lt hlt
  · rw [Nat.add_assoc _ value.length, ← drop_pairsAt, hvalueSec]
    simp [List.drop_append]

/-- A section of pairs the format allows, with distinct keys not seen
before, is read to its end and accepted. The induction is on the pairs. -/
theorem validateLoop_complete (hsize : size ≤ blob.length) :
    ∀ (ps : List (List UInt8 × List UInt8)) {fuel offset : Nat} {keys : List (List UInt8)}
      {sys : Nat}, offset ≤ size → pairsAt blob size offset = encodePairs ps → ps.length ≤ fuel →
      (∀ p ∈ ps, PairOk validator p) → (ps.map Prod.fst).Nodup → (∀ p ∈ ps, p.1 ∉ keys) →
      validateLoop validator blob size fuel offset keys sys = .ok ⟨true, sys + systemBytes ps⟩
  | [], _, offset, _, sys, ho, hps, _, _, _, _ => by
    have hend : offset = size := by
      have hl := length_pairsAt hsize offset
      rw [hps, encodePairs_nil, List.length_nil] at hl
      omega
    rw [validateLoop_of_not_lt (by omega)]
    simp [hend]
  | (key, value) :: ps, fuel, offset, keys, sys, _, hps, hfuel, hok, hnd, hfresh => by
    obtain ⟨fuel, rfl⟩ : ∃ f, fuel = f + 1 :=
      ⟨fuel - 1, by simp only [List.length_cons] at hfuel; omega⟩
    have hpair := hok (key, value) List.mem_cons_self
    have hkeyLen : 0 < key.length := List.length_pos_iff.mpr hpair.key_ne_nil
    obtain ⟨hend, hword, hkeySec, hvalueSec, hrest⟩ := pairsAt_pieces hsize hps hpair.length_lt
    -- the turn reads this pair
    have hkey : trimString (pairsAt blob size (offset + 4)) = .ok key := by
      rw [hkeySec, trimString_eq_ok, cstr_append_zero hpair.zero_not_mem_key]
      exact ⟨by simp, rfl⟩
    have hvalue : trimString (pairsAt blob size (offset + 4 + key.length + 1)) = .ok value := by
      rw [hvalueSec, trimString_eq_ok, cstr_append_zero hpair.zero_not_mem_value]
      exact ⟨by simp, rfl⟩
    have hnew : key ∉ keys := hfresh (key, value) List.mem_cons_self
    -- and the rest of the pairs are new to the keys it then holds
    have hfresh' : ∀ p ∈ ps, p.1 ∉ key :: keys := by
      intro p hp hk
      rcases List.mem_cons.mp hk with hk | hk
      · exact (List.nodup_cons.mp hnd).1 (List.mem_map.mpr ⟨p, hp, hk⟩)
      · exact hfresh p (List.mem_cons_of_mem _ hp) hk
    rw [validateLoop_succ_eq (by omega) (by omega) (by omega) hkey hpair.valid_key hvalue
      hpair.valid_value hword hnew]
    rw [validateLoop_complete hsize ps (by omega) hrest
      (by simp only [List.length_cons] at hfuel; omega)
      (fun p hp => hok p (List.mem_cons_of_mem _ hp)) (List.nodup_cons.mp hnd).2 hfresh']
    rw [systemSize_step]
    simp only [systemBytes_cons, ValidationData.mk.injEq, Except.ok.injEq, true_and]
    omega

end Loop

/-! ## The whole blob -/

/-- The section behind a length word, up to the body offset it gives. -/
theorem pairsAt_section (w : UInt32) (enc body : List UInt8) :
    pairsAt (be32 w ++ enc ++ body) (enc.length + 4) 4 = enc := by
  rw [pairsAt, Nat.add_sub_cancel, List.append_assoc, List.drop_left' (length_be32 _),
    List.take_left' rfl]

section Blob

variable {validator : List UInt8 → Bool} {b : List UInt8}

theorem getBodyOffset_eq_ok {s : UInt32} (h : Blob.getBodyOffset b = .ok s) :
    4 ≤ b.length ∧ (readBe32 b 0).toNat ≤ b.length ∧ s = readBe32 b 0 + 4 := by
  unfold Blob.getBodyOffset at h
  split_ifs at h with hempty h4
  dsimp only at h
  split_ifs at h with hlen
  injection h with h
  exact ⟨by omega, by omega, h.symm⟩

theorem getBodyOffset_of_le (h4 : 4 ≤ b.length) (hlen : (readBe32 b 0).toNat ≤ b.length) :
    Blob.getBodyOffset b = .ok (readBe32 b 0 + 4) := by
  have hne : b.isEmpty = false := by
    cases b with
    | nil => simp at h4
    | cons _ _ => rfl
  unfold Blob.getBodyOffset
  rw [if_neg (by simp [hne]), if_neg (by omega), if_neg (by omega)]

/-- An accepting run of `validate1` got a body offset within the blob and ran
the loop over the section it ends. -/
theorem validate1_inv (hv : (validate1 validator b).valid = true) :
    ∃ s, Blob.getBodyOffset b = .ok s ∧ s.toNat ≤ b.length ∧
      validateLoop validator b s.toNat b.length 4 [] 4 = .ok (validate1 validator b) := by
  have hrej : (({} : ValidationData)).valid = false := rfl
  unfold validate1 at hv ⊢
  by_cases h4 : b.length < 4
  · rw [if_pos h4, hrej] at hv
    cases hv
  rw [if_neg h4] at hv ⊢
  dsimp only at hv ⊢
  cases hs : Blob.getBodyOffset b with
  | error e =>
    rw [hs] at hv
    simp [bind, Except.bind] at hv
  | ok s =>
    rw [hs] at hv
    rw [Except.ok_bind] at hv ⊢
    by_cases hlen : b.length < s.toNat
    · rw [if_pos hlen, hrej] at hv
      cases hv
    rw [if_neg hlen] at hv ⊢
    refine ⟨s, rfl, by omega, ?_⟩
    split <;> rename_i d hd
    · exact hd
    · rw [hd, hrej] at hv
      cases hv

/-- `validate1` over a blob whose body offset is within it is the loop's
result. -/
theorem validate1_eq {s : UInt32} {d : ValidationData} (h4 : 4 ≤ b.length)
    (hs : Blob.getBodyOffset b = .ok s) (hlen : s.toNat ≤ b.length)
    (hloop : validateLoop validator b s.toNat b.length 4 [] 4 = .ok d) :
    validate1 validator b = d := by
  unfold validate1
  rw [if_neg (by omega)]
  simp only [hs, Except.ok_bind]
  rw [if_neg (by omega), hloop]

/-- A blob `validate` accepts is a well-formed section and the body: its body
offset is the section's end, and the system size `validate1` computes is the
system pairs' bytes with the length word. -/
theorem validate_sections (h : validate validator b = true) :
    ∃ ps body, b = be32 (encodePairs ps).length.toUInt32 ++ encodePairs ps ++ body ∧
      Blob.getBodyOffset b = .ok (readBe32 b 0 + 4) ∧
      (readBe32 b 0 + 4).toNat = (encodePairs ps).length + 4 ∧
      (∀ p ∈ ps, PairOk validator p) ∧ (ps.map Prod.fst).Nodup ∧
      (validate1 validator b).systemSize = 4 + systemBytes ps ∧ 4 + systemBytes ps ≤ PrivilegedBytes := by
  unfold validate at h
  simp only [Bool.and_eq_true, decide_eq_true_eq] at h
  obtain ⟨hv, hpb⟩ := h
  obtain ⟨s, hs, hlen, hloop⟩ := validate1_inv hv
  obtain ⟨h4, hL, rfl⟩ := getBodyOffset_eq_ok hs
  have hLlt := (readBe32 b 0).toNat_lt
  -- the body offset does not wrap: below 4 the loop would stop at once and refuse
  have hge : 4 ≤ (readBe32 b 0 + 4).toNat := by
    by_contra hlt
    rw [validateLoop_of_not_lt (by omega), Except.ok.injEq] at hloop
    rw [← hloop] at hv
    simp only [decide_eq_true_eq] at hv
    omega
  have hsize : (readBe32 b 0 + 4).toNat = (readBe32 b 0).toNat + 4 := by
    rw [UInt32.toNat_add] at hge ⊢
    simp only [UInt32.reduceToNat] at hge ⊢
    omega
  obtain ⟨ps, hps, hok, hnd, -, hsys⟩ := validateLoop_sound hlen hge hloop hv
  have hencLen : (encodePairs ps).length = (readBe32 b 0).toNat := by
    rw [← hps, length_pairsAt hlen, hsize]
    omega
  refine ⟨ps, b.drop ((readBe32 b 0).toNat + 4), ?_, hs, by omega, hok, hnd, hsys, hsys ▸ hpb⟩
  -- the blob is its first four bytes, the section and what follows
  have hword : be32 (encodePairs ps).length.toUInt32 = b.take 4 := by
    rw [hencLen, Nat.toUInt32, UInt32.ofNat_toNat, be32_readBe32 (by omega), List.drop_zero]
  rw [hword, ← hps, pairsAt, hsize, Nat.add_sub_cancel, List.append_assoc, Nat.add_comm,
    ← List.drop_drop, List.take_append_drop, List.take_append_drop]

/-- `validate` accepts every well-formed section shorter than 4 GiB. -/
theorem validate_of_wellFormed (h : WellFormed validator b) (hlen : b.length < 2 ^ 32) :
    validate validator b = true := by
  obtain ⟨ps, body, rfl, hencLt, hok, hnd, hpb⟩ := h
  have hL : (encodePairs ps).length.toUInt32.toNat = (encodePairs ps).length :=
    UInt32.toNat_ofNat_of_lt hencLt
  simp only [List.length_append, length_be32] at hlen
  have hread : readBe32 (be32 (encodePairs ps).length.toUInt32 ++ encodePairs ps ++ body) 0 =
      (encodePairs ps).length.toUInt32 := by
    rw [List.append_assoc, readBe32_be32]
  have hs := getBodyOffset_of_le (b := be32 (encodePairs ps).length.toUInt32 ++ encodePairs ps ++ body)
    (by simp) (by rw [hread, hL]; simp; omega)
  rw [hread] at hs
  have hsize : ((encodePairs ps).length.toUInt32 + 4).toNat = (encodePairs ps).length + 4 := by
    rw [UInt32.toNat_add, hL]
    simp only [UInt32.reduceToNat]
    omega
  have hsec : pairsAt (be32 (encodePairs ps).length.toUInt32 ++ encodePairs ps ++ body)
      ((encodePairs ps).length.toUInt32 + 4).toNat 4 = encodePairs ps := by
    rw [hsize]
    exact pairsAt_section _ _ _
  have hloop := @validateLoop_complete validator _ _ (by rw [hsize]; simp; omega) ps
    (be32 (encodePairs ps).length.toUInt32 ++ encodePairs ps ++ body).length 4 [] 4 (by omega) hsec
    (by have := length_le_length_encodePairs ps; simp; omega) hok hnd (by simp)
  unfold validate
  rw [validate1_eq (by simp) hs (by rw [hsize]; simp; omega) hloop]
  simpa using hpb

end Blob

/-! ## The system size `Blob` computes -/

/-- The first byte of the section from `offset` is the blob's byte there. -/
theorem getD_pairsAt {blob : List UInt8} {size offset : Nat} (h : offset < size) :
    (pairsAt blob size offset).getD 0 0 = blob.getD offset 0 := by
  rw [pairsAt, List.getD_eq_getElem?_getD, List.getElem?_take, if_pos (by omega),
    List.getElem?_drop, Nat.add_zero, List.getD_eq_getElem?_getD]

theorem size_le_length_memory (blob : Blob) : blob.size ≤ blob.memory.length := blob.size_le

/-- `Blob`'s walk over a section of pairs adds the system pairs' bytes, read
from each pair's length word and the first byte of its key. The induction is
on the pairs. -/
theorem sizeLoop_encodePairs (blob : Blob) (hsize : blob.size < 2 ^ 32) :
    ∀ (ps : List (List UInt8 × List UInt8)) {fuel current ret : Nat},
      pairsAt blob.memory blob.size current = encodePairs ps → ps.length ≤ fuel →
      (∀ p ∈ ps, p.1 ≠ []) → blob.sizeLoop .system fuel current ret = ret + systemBytes ps
  | [], fuel, current, ret, hps, _, _ => by
    have hend : blob.size ≤ current := by
      have hl := length_pairsAt (size_le_length_memory blob) current
      rw [hps, encodePairs_nil, List.length_nil] at hl
      omega
    cases fuel <;> simp [Blob.sizeLoop, Nat.not_lt.mpr hend]
  | (key, value) :: ps, fuel, current, ret, hps, hfuel, hkeys => by
    obtain ⟨fuel, rfl⟩ : ∃ f, fuel = f + 1 :=
      ⟨fuel - 1, by simp only [List.length_cons] at hfuel; omega⟩
    have hkey : key ≠ [] := hkeys (key, value) List.mem_cons_self
    -- the pair lies inside a section shorter than 4 GiB
    have hlt : key.length + value.length + 2 < 2 ^ 32 := by
      have hl := length_pairsAt (size_le_length_memory blob) current
      rw [hps, encodePairs_cons, List.length_append, length_encodePair] at hl
      dsimp only at hl
      omega
    obtain ⟨hend, hword, hkeySec, -, hrest⟩ := pairsAt_pieces (size_le_length_memory blob) hps hlt
    have hread : blob.readLength current = .ok (key.length + value.length + 2).toUInt32 := by
      rw [Blob.readLength, if_neg (by omega), ← hword, Nat.toUInt32, UInt32.ofNat_toNat]
    have hbyte : blob.byteAt (current + 4) = key.getD 0 0 := by
      rw [Blob.byteAt, ← @getD_pairsAt _ blob.size _ (by omega), hkeySec]
      obtain ⟨c, key, rfl⟩ := List.exists_cons_of_ne_nil hkey
      rfl
    have hlen4 : ((key.length + value.length + 2).toUInt32 + 4).toNat =
        key.length + value.length + 2 + 4 := by
      have hk : (key.length + value.length + 2).toUInt32.toNat = key.length + value.length + 2 :=
        UInt32.toNat_ofNat_of_lt hlt
      rw [UInt32.toNat_add, hk]
      simp only [UInt32.reduceToNat]
      omega
    have hstep : (4 + (key.length + value.length + 2).toUInt32).toNat =
        key.length + value.length + 2 + 4 := by
      rw [UInt32.add_comm]
      exact hlen4
    have ih := fun r => @sizeLoop_encodePairs blob hsize ps fuel _ r hrest
      (by simp only [List.length_cons] at hfuel; omega) (fun p hp => hkeys p (List.mem_cons_of_mem _ hp))
    rw [Blob.sizeLoop.eq_2, if_pos (by omega), hread]
    dsimp only
    rw [hstep, hbyte,
      show current + (key.length + value.length + 2 + 4) =
        current + 4 + key.length + 1 + value.length + 1 by omega, ih, systemBytes_cons]
    by_cases hs : key.getD 0 0 = underscore
    · have hsys : isSystemKey key = true := isSystemKey_iff_getD.mpr hs
      simp only [hs, beq_self_eq_true, if_true, hsys, hlen4]
      rw [Nat.add_comm _ 4, Nat.add_assoc]
    · have hsys : isSystemKey key = false := by
        simpa using mt isSystemKey_iff_getD.mp hs
      simp only [beq_iff_eq, hs, if_false, hsys, Bool.false_eq_true]
      omega

section Agree

variable {validator : List UInt8 → Bool} {b : List UInt8}

/-- A blob `validate` accepts is a well-formed section and the body. -/
theorem validate_wellFormed (h : validate validator b = true) : WellFormed validator b := by
  obtain ⟨ps, body, hb, -, hsize, hok, hnd, -, hpb⟩ := validate_sections h
  have hlt := (readBe32 b 0 + 4).toNat_lt
  exact ⟨ps, body, hb, by omega, hok, hnd, hpb⟩

/-- On a blob `validate` accepts, `get_system_size` is what `Blob` attached
to it computes. -/
theorem getSystemSize_eq_blob (inflate : List UInt8 → Option (List UInt8))
    (h : validate validator b = true) :
    ∃ blob, Blob.assign inflate b false = .ok blob ∧ getSystemSize validator b = blob.getSystemSize := by
  obtain ⟨ps, body, hb, hs, hsize, hok, -, hsys, -⟩ := validate_sections h
  have hle : (readBe32 b 0 + 4).toNat ≤ b.length := by
    rw [hsize, hb]
    simp only [List.length_append, length_be32]
    omega
  have hne : b.isEmpty = false := by
    rw [hb]
    rfl
  rw [Blob.assign, hne, if_neg Bool.false_ne_true, if_neg Bool.false_ne_true, hs, Except.ok_bind,
    dif_neg (Nat.not_lt.mpr hle)]
  refine ⟨_, rfl, ?_⟩
  -- the walk of `Blob` reads the section `validate` read
  have hsec : pairsAt b (readBe32 b 0 + 4).toNat 4 = encodePairs ps := by
    rw [hsize, hb]
    exact pairsAt_section _ _ _
  have hloop := @sizeLoop_encodePairs ⟨.buffer, b, [], (readBe32 b 0 + 4).toNat, hle⟩
    (readBe32 b 0 + 4).toNat_lt ps (readBe32 b 0 + 4).toNat 4 4 hsec
    (by have := length_le_length_encodePairs ps; omega) (fun p hp => (hok p hp).key_ne_nil)
  rw [getSystemSize, hsys, Blob.getSystemSize, Blob.getXattrsSize, if_neg (by dsimp only; omega)]
  exact hloop.symm

/-- `validate` accepts exactly the well-formed sections shorter than 4 GiB,
and on every blob it accepts `get_system_size` agrees with `Blob`. -/
theorem validate_eq_true_iff_wellFormed (validator : List UInt8 → Bool)
    (inflate : List UInt8 → Option (List UInt8)) (b : List UInt8) :
    (b.length < 2 ^ 32 → (validate validator b = true ↔ WellFormed validator b)) ∧
    (validate validator b = true →
      ∃ blob, Blob.assign inflate b false = .ok blob ∧ getSystemSize validator b = blob.getSystemSize) :=
  ⟨fun hlen => ⟨validate_wellFormed, fun h => validate_of_wellFormed h hlen⟩,
    getSystemSize_eq_blob inflate⟩

/-- One pair, key `a` and value `1`. -/
def onePairSection : List UInt8 := [0, 0, 0, 8, 0, 0, 0, 4, 0x61, 0, 0x31, 0]

theorem validate_eq_true_iff_wellFormed_onePair :
    validate (fun _ => true) onePairSection = true ∧ WellFormed (fun _ => true) onePairSection :=
  ⟨by decide, ((validate_eq_true_iff_wellFormed (fun _ => true) (fun _ => none) onePairSection).1
    (by decide)).mp (by decide)⟩

/-- A section of `2^32 - 4` bytes: one pair of key `a` and a value of
`2^32 - 11` bytes. -/
def wrappedSection (value : List UInt8) : List UInt8 :=
  be32 (2 ^ 32 - 4 : Nat).toUInt32 ++ encodePair ([0x61], value)

/-- `get_body_offset` adds 4 to the length word `2^32 - 4` in a `uint32_t`:
the section is well formed, yet `validate` refuses it. -/
theorem validate_refuses_wrapped_section (validator : List UInt8 → Bool) (value : List UInt8)
    (hlen : value.length = 2 ^ 32 - 11) (hzero : 0 ∉ value) (hvalue : validator value = true) :
    WellFormed validator (wrappedSection value) ∧ validate validator (wrappedSection value) = false := by
  have hpair : (encodePair ([0x61], value)).length = 2 ^ 32 - 4 := by
    rw [length_encodePair]
    dsimp only
    rw [hlen]
    rfl
  have hsection : (wrappedSection value).length = 2 ^ 32 := by
    have hsum : 4 + (2 ^ 32 - 4) = 2 ^ 32 := by omega
    rw [wrappedSection, List.length_append, length_be32, hpair, hsum]
  have hread : readBe32 (wrappedSection value) 0 = (2 ^ 32 - 4 : Nat).toUInt32 := readBe32_be32 _ _
  have hword : ((2 ^ 32 - 4 : Nat).toUInt32).toNat = 2 ^ 32 - 4 := by decide
  have hwrap : (2 ^ 32 - 4 : Nat).toUInt32 + 4 = 0 := by decide
  constructor
  · have hok : PairOk validator ([0x61], value) :=
      ⟨by simp, show (0 : UInt8) ∉ [0x61] by decide, show (isValidXattrKey [0x61]).isSome by decide,
        hzero, hvalue, by simp only [List.length_singleton]; omega⟩
    refine ⟨[([0x61], value)], [], ?_, ?_, ?_, by simp, ?_⟩
    · rw [encodePairs_cons, encodePairs_nil, List.append_nil, List.append_nil, hpair]
      rfl
    · rw [encodePairs_cons, encodePairs_nil, List.append_nil, hpair]
      decide
    · simpa using hok
    · simp only [systemBytes_cons, systemBytes_nil, show isSystemKey [0x61] = false by decide,
        Bool.false_eq_true, if_false]
      decide
  · have hs := getBodyOffset_of_le (b := wrappedSection value) (by omega) (by rw [hread, hword]; omega)
    rw [hread, hwrap] at hs
    unfold validate
    rw [validate1_eq (by omega) hs (by simp) (validateLoop_of_not_lt (by simp))]
    decide

theorem validate_refuses_wrapped_section_ones :
    WellFormed (fun _ => true) (wrappedSection (List.replicate (2 ^ 32 - 11) 0x31)) ∧
      validate (fun _ => true) (wrappedSection (List.replicate (2 ^ 32 - 11) 0x31)) = false :=
  validate_refuses_wrapped_section (fun _ => true) (List.replicate (2 ^ 32 - 11) 0x31)
    List.length_replicate (fun h => absurd (List.eq_of_mem_replicate h) (by decide)) rfl

end Agree

end KvEngine.Xattr
