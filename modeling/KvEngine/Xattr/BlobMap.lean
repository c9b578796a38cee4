import KvEngine.Xattr.BlobSpec

/-!
# A blob as a finite map

What `Blob` is for: a finite map from xattr keys to values, edited by `set`,
`remove` and `prune_*_keys`, read by `get`, by iteration and by the size
functions, and serialised by `finalize` into bytes that `validate` accepts.

- `validate1_layout`: a blob laid out from pairs with valid keys and values
  the JSON validator accepts passes `validate1`, with the size of its system
  pairs.
- `Store`, `Op.store`: the abstract map and what each member function does
  to it; `toStore` reads a pair list as a map, and `toStore_pairs` says that
  the pair-level effect of each function (`Op.pairs`) refines it.
- `Good`: what a run from an owned blob keeps: the view holds pairs with valid
  keys and values, and is not in the caller's buffer.
- `runOps_good`: every sequence of member functions keeps `Good`;
  `blob_refines_store` reads the result through `get`, iteration, the size
  functions and `validate1`.

A blob attached to the caller's buffer is left out: `set` on it loses the
pairs that are there (`set_on_attached_buffer_drops_pairs`).
-/

namespace KvEngine.Xattr

open ByteList

/-! ### `validate1` on a laid-out blob -/

/-- A pair `validate` accepts: one `Blob` can store, with a valid key and a
value the JSON validator accepts. -/
def Pair.Valid (validator : List UInt8 → Bool) (p : Pair) : Prop :=
  p.Ok ∧ (isValidXattrKey p.1).isSome = true ∧ validator p.2 = true

theorem trimString_entry {s : List UInt8} (hs : 0 ∉ s) (rest : List UInt8) :
    trimString (s ++ 0 :: rest) = .ok s := by
  rw [trimString, if_pos (List.mem_append_right _ List.mem_cons_self), cstr_append_zero hs]

section Validate

variable (validator : List UInt8 → Bool) {blob : List UInt8}

/-- The loop of `validate1` from the pair after `pre`: every pair passes
every check, and the system pairs are added up. -/
theorem validateLoop_pairs (hsmall : blob.length < 2 ^ 32) :
    ∀ {ps : List Pair} {pre : List UInt8} {fuel : Nat} (keys : List (List UInt8)) (sys : Nat),
      blob = pre ++ pairsBytes ps → (∀ p ∈ ps, p.Valid validator) → (ps.map Prod.fst).Nodup →
      (∀ p ∈ ps, p.1 ∉ keys) → ps.length < fuel →
      validateLoop validator blob blob.length fuel pre.length keys sys =
        .ok ⟨true, sys + (pairsBytes (ofType .system ps)).length⟩
  | [], pre, fuel + 1, keys, sys, hb, _, _, _, _ => by
    have hend : ¬ pre.length < blob.length := by
      rw [hb, pairsBytes_nil, List.append_nil]
      exact Nat.lt_irrefl _
    rw [validateLoop, if_neg hend, hb]
    simp [ofType]
  | p :: ps, pre, fuel + 1, keys, sys, hb, hvalid, hnodup, hkeys, hfuel => by
    obtain ⟨⟨hk, hk0, hv, hv0⟩, hkey, hval⟩ := hvalid p List.mem_cons_self
    have hk1 := List.length_pos_of_ne_nil hk
    have hv1 := List.length_pos_of_ne_nil hv
    have hsize : blob.length = pre.length + 4 + p.1.length + 1 + p.2.length + 1 + (pairsBytes ps).length := by
      rw [hb, pairsBytes_cons]
      simp only [List.length_append, length_kvpair, Pair.len]
      omega
    have hlt : pre.length < blob.length := by omega
    have h7 : ¬ blob.length < pre.length + 7 := by omega
    -- the length field, and the key and the value after it
    have hb' : blob = pre ++ be32 p.len.toUInt32 ++ (p.1 ++ 0 :: (p.2 ++ 0 :: pairsBytes ps)) := by
      rw [hb, pairsBytes_cons, kvpair]
      simp only [List.append_assoc, List.cons_append, List.nil_append]
    have hkv : (readBe32 blob pre.length).toNat = p.1.length + 1 + p.2.length + 1 := by
      have hlen : p.len < 2 ^ 32 := by simp only [Pair.len]; omega
      rw [hb', readBe32_append, Nat.toUInt32, UInt32.toNat_ofNat', Nat.mod_eq_of_lt hlen]
      rfl
    have hfit : ¬ blob.length < pre.length + 4 + (p.1.length + 1 + p.2.length + 1) := by omega
    have hdrop : blob.drop (pre.length + 4) = p.1 ++ 0 :: (p.2 ++ 0 :: pairsBytes ps) := by
      rw [hb', ← length_be32 p.len.toUInt32, ← List.length_append, List.drop_left]
    have hkeybuf : trimString ((blob.drop (pre.length + 4)).take (blob.length - (pre.length + 4))) =
        .ok p.1 := by
      rw [List.take_of_length_le (Nat.le_of_eq List.length_drop), hdrop, trimString_entry hk0]
    have hdrop' : blob.drop (pre.length + 4 + p.1.length + 1) = p.2 ++ 0 :: pairsBytes ps := by
      rw [Nat.add_assoc, ← List.drop_drop, hdrop]
      simp
    have hvalbuf : trimString ((blob.drop (pre.length + 4 + p.1.length + 1)).take
        (blob.length - (pre.length + 4 + p.1.length + 1))) = .ok p.2 := by
      rw [List.take_of_length_le (Nat.le_of_eq List.length_drop), hdrop', trimString_entry hv0]
    have hnext : pre.length + 4 + p.1.length + 1 + p.2.length + 1 = (pre ++ kvpair p).length := by
      simp only [List.length_append, length_kvpair, Pair.len]
      omega
    have hnew : p.1 ∉ keys := hkeys p List.mem_cons_self
    have ih := validateLoop_pairs hsmall (p.1 :: keys)
      (if p.1.getD 0 0 = underscore then sys + 4 + (p.1.length + p.2.length + 2) else sys)
      (show blob = (pre ++ kvpair p) ++ pairsBytes ps by rw [hb, pairsBytes_cons, List.append_assoc])
      (fun q hq => hvalid q (List.mem_cons_of_mem _ hq)) (List.nodup_cons.mp hnodup).2
      (fun q hq hmem => ?_) (Nat.lt_of_succ_lt_succ hfuel)
    · rw [validateLoop, if_pos hlt, if_neg h7]
      dsimp only
      rw [hkv, if_neg hfit, hkeybuf, Except.ok_bind, if_neg (by simpa [Option.ne_none_iff_isSome] using hkey), hvalbuf, Except.ok_bind,
        if_neg (by simp [hval]), if_neg (by omega), if_neg hnew, hnext, ih]
      -- a system pair adds its length field and its entry
      by_cases hs : p.1.getD 0 0 = underscore
      · have hsys : isSystemKey p.1 = true := beq_iff_eq.mpr hs
        simp only [if_pos hs, ofType, AttrType.includes, List.filter_cons, hsys, if_true,
          pairsBytes_cons, List.length_append, length_kvpair, Pair.len]
        congr 2
        omega
      · have hsys : isSystemKey p.1 = false := beq_eq_false_iff_ne.mpr hs
        simp only [if_neg hs, ofType, AttrType.includes, List.filter_cons, hsys, Bool.false_eq_true,
          if_false]
    · -- the keys seen so far, with this one, are not among the rest
      rcases List.mem_cons.mp hmem with he | he
      · exact (List.nodup_cons.mp hnodup).1 (he ▸ List.mem_map_of_mem hq)
      · exact hkeys q (List.mem_cons_of_mem _ hq) he

/-- `validate1` of a blob with a body offset inside it: its loop over the
pairs. -/
theorem validate1_of_getBodyOffset (h4 : ¬ blob.length < 4) {size : UInt32}
    (hbody : Blob.getBodyOffset blob = .ok size) (hfit : ¬ blob.length < size.toNat) :
    validate1 validator blob =
      match validateLoop validator blob size.toNat blob.length 4 [] 4 with
      | .ok d => d
      | .error _ => {} := by
  rw [validate1, if_neg h4]
  -- both sides are matches on the loop's answer, by different auxiliary matchers
  cases hv : validateLoop validator blob size.toNat blob.length 4 [] 4 <;>
    simp only [hbody, Except.ok_bind, if_neg hfit, hv]

/-- `validate1` of a laid-out blob: valid, with the length field and the
system pairs as its system size. -/
theorem validate1_layout {ps : List Pair} (hvalid : ∀ p ∈ ps, p.Valid validator)
    (hnodup : (ps.map Prod.fst).Nodup) (hsmall : (layout ps).length < 2 ^ 32) :
    validate1 validator (layout ps) = ⟨true, 4 + (pairsBytes (ofType .system ps)).length⟩ := by
  have hbody := getBodyOffset_layout ps [] hsmall
  rw [List.append_nil] at hbody
  have hto : (layout ps).length.toUInt32.toNat = (layout ps).length := by
    rw [Nat.toUInt32, UInt32.toNat_ofNat', Nat.mod_eq_of_lt hsmall]
  have hloop : validateLoop validator (layout ps) (layout ps).length (layout ps).length
      (be32 (pairsBytes ps).length.toUInt32).length [] 4 =
        .ok ⟨true, 4 + (pairsBytes (ofType .system ps)).length⟩ :=
    validateLoop_pairs validator hsmall [] 4
      (show layout ps = be32 (pairsBytes ps).length.toUInt32 ++ pairsBytes ps from rfl)
      hvalid hnodup (fun _ _ h => by cases h) (by
        have := length_le_pairsBytes ps
        simp only [length_layout]
        omega)
  rw [length_be32] at hloop
  rw [validate1_of_getBodyOffset validator (by simp only [length_layout]; omega) hbody
    (by rw [hto]; exact Nat.lt_irrefl _), hto, hloop]

end Validate

/-! ### The abstract map -/

/-- What a blob is for: the value of each key, if any. -/
abbrev Store := List UInt8 → Option (List UInt8)

/-- The pairs read as a map. -/
def toStore (ps : List Pair) : Store := fun k => ps.lookup k

/-- A member function of `Blob` that edits the pairs. -/
inductive Op where
  | set (key value : List UInt8)
  | remove (key : List UInt8)
  | pruneUserKeys
  | pruneSystemKeys
  deriving DecidableEq, Repr

namespace Op

/-- Calling the member function. -/
def run : Op → BlobM Unit
  | .set key value => Blob.set key value
  | .remove key => Blob.remove key
  | .pruneUserKeys => Blob.pruneUserKeys
  | .pruneSystemKeys => Blob.pruneSystemKeys

/-- What it does to the pairs the view holds. -/
def pairs : Op → List Pair → List Pair
  | .set key value, ps => setKey key value ps
  | .remove key, ps => eraseKey key ps
  | .pruneUserKeys, ps => pruneType .user ps
  | .pruneSystemKeys, ps => pruneType .system ps

/-- What it does to the map: `set` binds the key (an empty value unbinds
it), `remove` unbinds it, and a prune unbinds every key of its type. -/
def store : Op → Store → Store
  | .set key value, m => Function.update m key (if value.isEmpty then none else some value)
  | .remove key, m => Function.update m key none
  | .pruneUserKeys, m => fun k => if AttrType.user.includes k then none else m k
  | .pruneSystemKeys, m => fun k => if AttrType.system.includes k then none else m k

/-- A call with a valid key and, for `set`, a non-empty NUL-free value the
JSON validator accepts. -/
def Ok (validator : List UInt8 → Bool) : Op → Prop
  | .set key value =>
    (isValidXattrKey key).isSome = true ∧ value ≠ [] ∧ 0 ∉ value ∧ validator value = true
  | .remove key => (isValidXattrKey key).isSome = true
  | .pruneUserKeys | .pruneSystemKeys => True

end Op

theorem toStore_eraseKey (key : List UInt8) (ps : List Pair) :
    toStore (eraseKey key ps) = Function.update (toStore ps) key none := by
  funext q
  have h := AssocList.lookup_filter_key (fun k => k != key) q ps
  rw [toStore, eraseKey, h, Function.update_apply]
  by_cases hq : q = key <;> simp [hq, toStore]

theorem toStore_pruneType (type : AttrType) (ps : List Pair) :
    toStore (pruneType type ps) = fun k => if type.includes k then none else toStore ps k := by
  funext q
  have h := AssocList.lookup_filter_key (fun k => !type.includes k) q ps
  rw [toStore, pruneType, h]
  cases type.includes q <;> rfl

/-- Each member function does to the pairs what it does to the map. -/
theorem toStore_pairs (op : Op) (ps : List Pair) : toStore (op.pairs ps) = op.store (toStore ps) := by
  cases op with
  | set key value =>
    simp only [Op.pairs, Op.store, setKey]
    cases hv : value.isEmpty
    · -- the pair moves to the end, so its key is bound to the new value
      funext q
      rw [if_neg Bool.false_ne_true, if_neg Bool.false_ne_true, toStore,
        AssocList.lookup_append_singleton _ _ _ _ (Holds.not_mem_eraseKey key ps),
        Function.update_apply, ← toStore, toStore_eraseKey, Function.update_apply]
      by_cases hq : q = key <;> simp [hq]
    · rw [if_pos rfl, if_pos rfl, toStore_eraseKey]
  | remove key => exact toStore_eraseKey key ps
  | pruneUserKeys => exact toStore_pruneType .user ps
  | pruneSystemKeys => exact toStore_pruneType .system ps

/-! ### Runs -/

/-- The member functions called one after another. -/
def runOps : List Op → BlobM Unit
  | [] => pure ()
  | op :: ops => do
    op.run
    runOps ops

/-- The pairs after the calls. -/
def pairsAfter : List Op → List Pair → List Pair
  | [], ps => ps
  | op :: ops, ps => pairsAfter ops (op.pairs ps)

/-- The map after the calls. -/
def storeAfter : List Op → Store → Store
  | [], m => m
  | op :: ops, m => storeAfter ops (op.store m)

/-- Whether every blob along the calls fits the 32-bit length fields; where
one does not, `append_kvpair` throws `narrowing_error`. -/
def fits : List Op → List Pair → Bool
  | [], _ => true
  | op :: ops, ps => decide ((layout (op.pairs ps)).length < 2 ^ 32) && fits ops (op.pairs ps)

theorem toStore_pairsAfter : ∀ (ops : List Op) (ps : List Pair),
    toStore (pairsAfter ops ps) = storeAfter ops (toStore ps)
  | [], _ => rfl
  | op :: ops, ps => by
    rw [pairsAfter, storeAfter, toStore_pairsAfter ops, toStore_pairs]

/-- What a run from an owned blob keeps: the view holds pairs `validate`
accepts, and is not in the caller's buffer. -/
structure Good (validator : List UInt8 → Bool) (b : Blob) (ps : List Pair) : Prop where
  holds : Holds b ps
  owned : b.backing ≠ .buffer
  valid : ∀ p ∈ ps, p.Valid validator

namespace Good

variable {validator : List UInt8 → Bool} {b : Blob} {ps : List Pair}

theorem empty : Good validator Blob.empty [] :=
  ⟨Holds.empty, Backing.noConfusion, fun _ h => nomatch h⟩

/-- A copy of any blob that holds valid pairs, also one in a caller's
buffer. -/
theorem copy (h : Holds b ps) (hvalid : ∀ p ∈ ps, p.Valid validator) :
    Good validator (Blob.copy b) ps :=
  ⟨h.copy, Backing.noConfusion, hvalid⟩

/-- A blob inflated from a compressed buffer whose payload starts with a blob
of valid pairs. -/
theorem inflated {inflate : List UInt8 → Option (List UInt8)} {buffer rest : List UInt8}
    (hne : buffer ≠ []) (hinf : inflate buffer = some (layout ps ++ rest))
    (hvalid : ∀ p ∈ ps, p.Valid validator) (hnodup : (ps.map Prod.fst).Nodup)
    (hsmall : (layout ps).length < 2 ^ 32) :
    ∃ b, Blob.assign inflate buffer true = .ok b ∧ Good validator b ps := by
  obtain ⟨b, hassign, h, hb⟩ := assign_inflated hne hinf (fun p hp => (hvalid p hp).1) hnodup hsmall
  exact ⟨b, hassign, h, by rw [hb]; exact Backing.noConfusion, hvalid⟩

theorem owned_of_backing {b' : Blob} (hb : b.backing ≠ .buffer)
    (h : b'.backing = b.backing ∨ b'.backing = .null) : b'.backing ≠ .buffer := by
  rcases h with h | h <;> rw [h]
  · exact hb
  · exact Backing.noConfusion

theorem valid_of_sublist {qs : List Pair} (h : Good validator b ps) (hsub : qs.Sublist ps) :
    ∀ p ∈ qs, p.Valid validator :=
  fun p hp => h.valid p (hsub.subset hp)

/-- One call keeps `Good`. -/
theorem step (h : Good validator b ps) {op : Op} (hop : op.Ok validator)
    (hfit : (layout (op.pairs ps)).length < 2 ^ 32) :
    ∃ b', op.run b = .ok PUnit.unit b' ∧ Good validator b' (op.pairs ps) := by
  cases op with
  | set key value =>
    obtain ⟨hkey, hv, hv0, hval⟩ := hop
    obtain ⟨n, hn⟩ := Option.isSome_iff_exists.mp hkey
    have hk : key ≠ [] ∧ 0 ∉ key :=
      ⟨ne_nil_of_isValidXattrKey hn, zero_not_mem_of_isValidXattrKey hn⟩
    obtain ⟨b', hrun, h', hb'⟩ := h.holds.set_run h.owned hk hv0 hfit
    refine ⟨b', hrun, ⟨h', hb', ?_⟩⟩
    have hne : value.isEmpty = false := List.isEmpty_eq_false_iff.mpr hv
    show ∀ p ∈ setKey key value ps, p.Valid validator
    rw [setKey, hne, if_neg Bool.false_ne_true]
    intro p hp
    rcases List.mem_append.mp hp with hp | hp
    · exact h.valid_of_sublist List.filter_sublist p hp
    · rw [List.mem_singleton.mp hp]
      exact ⟨⟨hk.1, hk.2, hv, hv0⟩, hkey, hval⟩
  | remove key =>
    obtain ⟨n, hn⟩ := Option.isSome_iff_exists.mp hop
    obtain ⟨b', hrun, h', hb'⟩ := h.holds.remove_run (zero_not_mem_of_isValidXattrKey hn)
    exact ⟨b', hrun, h', owned_of_backing h.owned hb', h.valid_of_sublist List.filter_sublist⟩
  | pruneUserKeys =>
    obtain ⟨b', hrun, h', hb'⟩ := h.holds.pruneKeys_run .user
    exact ⟨b', hrun, h', owned_of_backing h.owned hb', h.valid_of_sublist List.filter_sublist⟩
  | pruneSystemKeys =>
    obtain ⟨b', hrun, h', hb'⟩ := h.holds.pruneKeys_run .system
    exact ⟨b', hrun, h', owned_of_backing h.owned hb', h.valid_of_sublist List.filter_sublist⟩

/-- The bytes of a good blob are empty, or `validate` accepts them unless
the system pairs pass `PrivilegedBytes`. -/
theorem validate_eq (h : Good validator b ps) :
    b.finalize = [] ∨ validate validator b.finalize = decide (b.getSystemSize ≤ PrivilegedBytes) := by
  rcases h.holds.view with ⟨hv, -⟩ | hv
  · exact .inl hv
  · right
    have hne : b.finalize ≠ [] := fun he => by
      have := congrArg List.length (he.symm.trans hv)
      simp only [List.length_nil, length_layout] at this
      omega
    have hsmall : (layout ps).length < 2 ^ 32 := by
      rw [← hv, Blob.length_finalize]
      exact h.holds.small
    rw [validate, Blob.getSystemSize, h.holds.getXattrsSize_eq, if_neg hne, hv,
      validate1_layout validator h.valid h.holds.nodup hsmall]
    rfl

end Good

/-- Every sequence of calls keeps `Good`, with the pairs the calls leave. -/
theorem runOps_good {validator : List UInt8 → Bool} :
    ∀ (ops : List Op) {b : Blob} {ps : List Pair}, Good validator b ps →
      (∀ op ∈ ops, op.Ok validator) → fits ops ps = true →
      ∃ b', runOps ops b = .ok PUnit.unit b' ∧ Good validator b' (pairsAfter ops ps)
  | [], b, _, h, _, _ => ⟨b, rfl, h⟩
  | op :: ops, b, ps, h, hops, hfits => by
    simp only [fits, Bool.and_eq_true, decide_eq_true_eq] at hfits
    obtain ⟨b₁, hrun₁, h₁⟩ := h.step (hops op List.mem_cons_self) hfits.1
    obtain ⟨b', hrun, h'⟩ := runOps_good ops h₁ (fun o ho => hops o (List.mem_cons_of_mem _ ho)) hfits.2
    exact ⟨b', by rw [runOps, EStateM.bind_of_ok hrun₁]; exact hrun, h'⟩

/-- A blob that starts owned, with valid pairs, behaves as the finite map the
same calls give: after any sequence of `set`, `remove` and `prune_*_keys`
with valid keys and values (and blobs within 32-bit lengths), iteration
yields each binding of the map once, `get` returns the value of each key
(empty if unbound), the bytes are empty or accepted by `validate` (up to
`PrivilegedBytes`), and the size functions count the length field and the
pairs of their type. -/
theorem blob_refines_store {validator : List UInt8 → Bool} {b : Blob} {ps : List Pair} (ops : List Op)
    (hinit : Good validator b ps) (hops : ∀ op ∈ ops, op.Ok validator) (hfits : fits ops ps = true) :
    ∃ b' qs, runOps ops b = .ok PUnit.unit b' ∧ b'.items = .ok qs ∧ (qs.map Prod.fst).Nodup ∧
      (∀ k v, (k, v) ∈ qs ↔ storeAfter ops (toStore ps) k = some v) ∧
      (∀ k, 0 ∉ k → b'.bytes (b'.get k) = (storeAfter ops (toStore ps) k).getD []) ∧
      (b'.finalize = [] ∨ validate validator b'.finalize = decide (b'.getSystemSize ≤ PrivilegedBytes)) ∧
      b'.getSystemSize = (if b'.finalize = [] then 0 else 4 + (pairsBytes (ofType .system qs)).length) ∧
      b'.getUserSize = (if b'.finalize = [] then 0 else 4 + (pairsBytes (ofType .user qs)).length) := by
  obtain ⟨b', hrun, h'⟩ := runOps_good ops hinit hops hfits
  have hstore := toStore_pairsAfter ops ps
  refine ⟨b', pairsAfter ops ps, hrun, h'.holds.items_eq, h'.holds.nodup, fun k v => ?_, fun k hk => ?_,
    h'.validate_eq, h'.holds.getXattrsSize_eq .system, h'.holds.getXattrsSize_eq .user⟩
  · rw [← hstore]
    exact (AssocList.lookup_eq_some_iff_mem h'.holds.nodup).symm
  · rw [← hstore]
    exact h'.holds.bytes_get hk

end KvEngine.Xattr
