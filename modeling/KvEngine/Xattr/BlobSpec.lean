import KvEngine.Xattr.Utils
import KvEngine.Lib.Except
import KvEngine.Lib.AssocList

/-!
# The layout of a blob, and what each member function does to it

A blob holding the pairs `ps` has as its view the bytes `layout ps`: the
length of the pairs in network byte order, then each pair (`kvpair`). A view
with no bytes at all holds no pairs too (`Blob()` and a blob whose last pair
was removed).

- `Holds b ps`: `b`'s view holds `ps`, pairs with non-empty NUL-free keys and
  values, distinct keys, and a view within 32-bit lengths.
- `eraseKey`, `setKey`, `pruneType`: what `remove`, `set` and `prune_keys` do
  to the pairs.
- The walks over the pairs: `getLoop_pairs` (the `get` loop finds the first
  pair with the key), `itemsFrom_pairs`, `sizeLoop_pairs`; read off a blob
  that holds pairs as `Holds.bytes_get`, `Holds.items_eq` and
  `Holds.getXattrsSize_eq`.
- The mutators: `removeSegment_run` (cutting out a pair), `growBuffer_run`,
  `writeKvpair_run`, and for a blob that holds pairs `Holds.remove_run`,
  `Holds.set_run` and `Holds.pruneKeys_run`.
- The constructors: `Holds.empty`, `Holds.copy`, `assign_attached`,
  `assign_inflated`.

A view in the caller's buffer moves to a fresh allocator when it grows,
without its pairs: `set_run` asks that the view is not in the caller's
buffer, and `set_on_attached_buffer_drops_pairs` is a blob on which `set`
loses the pairs that were there.

Everything is stated about the view (`finalize`), with `memory_eq` to carry a
read through the memory behind it.
-/

namespace KvEngine.Xattr

open ByteList

/-- A key and its value, as the blob stores them. -/
abbrev Pair := List UInt8 × List UInt8

/-- The length field of a pair: the key and the value with their NULs. -/
def Pair.len (p : Pair) : Nat := p.1.length + 1 + p.2.length + 1

/-- A pair `Blob` can store: a key and a value, neither empty nor with a NUL. -/
def Pair.Ok (p : Pair) : Prop := p.1 ≠ [] ∧ 0 ∉ p.1 ∧ p.2 ≠ [] ∧ 0 ∉ p.2

instance (p : Pair) : Decidable p.Ok := inferInstanceAs (Decidable (_ ∧ _ ∧ _ ∧ _))

/-- The bytes of one pair: its length, the key and the value, each with its
NUL. -/
def kvpair (p : Pair) : List UInt8 := be32 p.len.toUInt32 ++ (p.1 ++ 0 :: (p.2 ++ [0]))

/-- The bytes of the pairs, one after another. -/
def pairsBytes (ps : List Pair) : List UInt8 := (ps.map kvpair).flatten

/-- The view of a blob holding `ps`: the length field, then the pairs. -/
def layout (ps : List Pair) : List UInt8 :=
  be32 (pairsBytes ps).length.toUInt32 ++ pairsBytes ps

@[simp] theorem length_kvpair (p : Pair) : (kvpair p).length = 4 + p.len := by
  simp only [kvpair, Pair.len, List.length_append, length_be32, List.length_cons,
    List.length_nil]
  omega

@[simp] theorem pairsBytes_nil : pairsBytes [] = [] := rfl

@[simp] theorem pairsBytes_cons (p : Pair) (ps : List Pair) :
    pairsBytes (p :: ps) = kvpair p ++ pairsBytes ps := rfl

@[simp] theorem pairsBytes_append (ps qs : List Pair) :
    pairsBytes (ps ++ qs) = pairsBytes ps ++ pairsBytes qs := by
  simp [pairsBytes]

@[simp] theorem length_layout (ps : List Pair) : (layout ps).length = 4 + (pairsBytes ps).length := by
  simp [layout]

/-- `b`'s view holds the pairs `ps`. -/
structure Holds (b : Blob) (ps : List Pair) : Prop where
  view : (b.finalize = [] ∧ ps = []) ∨ b.finalize = layout ps
  ok : ∀ p ∈ ps, p.Ok
  nodup : (ps.map Prod.fst).Nodup
  small : b.size < 2 ^ 32

/-! ### What each mutator does to the pairs -/

/-- Whether a key names a system attribute: it starts with `_`. -/
def isSystemKey (key : List UInt8) : Bool := key.getD 0 0 == underscore

/-- Whether a key is of this type: the pairs `prune_keys(type)` removes and
`get_xattrs_size(type)` counts. -/
def AttrType.includes : AttrType → List UInt8 → Bool
  | .system, key => isSystemKey key
  | .user, key => !isSystemKey key

/-- `remove(key)`: the pairs without the one of `key`. -/
def eraseKey (key : List UInt8) (ps : List Pair) : List Pair := ps.filter fun p => p.1 != key

/-- `set(key, value)`: the pair of `key` moves to the end with its new value,
or goes for an empty value. -/
def setKey (key value : List UInt8) (ps : List Pair) : List Pair :=
  if value.isEmpty then eraseKey key ps else eraseKey key ps ++ [(key, value)]

/-- The pairs of a type. -/
def ofType (type : AttrType) (ps : List Pair) : List Pair := ps.filter fun p => type.includes p.1

/-- `prune_keys(type)`: the pairs of the other type. -/
def pruneType (type : AttrType) (ps : List Pair) : List Pair := ps.filter fun p => !type.includes p.1

theorem toUInt32_sub_four {n : Nat} (h : 4 ≤ n) (hn : n < 2 ^ 32) :
    n.toUInt32 - 4 = (n - 4).toUInt32 := by
  have hto : n.toUInt32.toNat = n := by
    rw [Nat.toUInt32, UInt32.toNat_ofNat', Nat.mod_eq_of_lt hn]
  apply UInt32.toNat_inj.mp
  rw [UInt32.toNat_sub_of_le _ _ (UInt32.le_iff_toNat_le.mpr (by rw [hto]; exact h)), hto,
    Nat.toUInt32, UInt32.toNat_ofNat', Nat.mod_eq_of_lt (by omega)]
  rfl

theorem toUInt32_add_four (n : Nat) : n.toUInt32 + 4 = (n + 4).toUInt32 := by
  apply UInt32.toNat_inj.mp
  simp only [UInt32.toNat_add, Nat.toUInt32, UInt32.toNat_ofNat', UInt32.reduceToNat]
  omega

namespace Blob

/-! ### Reading through the view -/

theorem length_finalize (b : Blob) : b.finalize.length = b.size := by
  simp only [finalize, List.length_take]
  exact Nat.min_eq_left b.size_le

/-- The memory behind the view is the view, then what lies past it. -/
theorem memory_eq (b : Blob) : b.memory = b.finalize ++ b.memory.drop b.size :=
  (List.take_append_drop _ _).symm

theorem readLength_of_le {b : Blob} {off : Nat} (h : off + 4 ≤ b.size) :
    b.readLength off = .ok (readBe32 b.finalize off) := by
  rw [readLength, if_neg (by omega), finalize, readBe32_take h]

/-- The memory from an offset inside the view. -/
theorem memory_drop {b : Blob} {pre rest : List UInt8} (hv : b.finalize = pre ++ rest) :
    b.memory.drop pre.length = rest ++ b.memory.drop b.size := by
  conv_lhs => rw [memory_eq, hv, List.append_assoc]
  exact List.drop_left

/-- A pair in the view: its length field, and the memory from its key on. -/
theorem readLength_pair {b : Blob} {pre rest : List UInt8} {p : Pair}
    (hv : b.finalize = pre ++ kvpair p ++ rest) :
    b.readLength pre.length = .ok p.len.toUInt32 := by
  have hsize : pre.length + 4 ≤ b.size := by
    rw [← length_finalize, hv]
    simp only [List.length_append, length_kvpair]
    omega
  rw [readLength_of_le hsize, hv, kvpair]
  congr 1
  rw [show pre ++ (be32 p.len.toUInt32 ++ (p.1 ++ 0 :: (p.2 ++ [0]))) ++ rest =
      pre ++ be32 p.len.toUInt32 ++ (p.1 ++ 0 :: (p.2 ++ [0]) ++ rest) by
    simp only [List.append_assoc]]
  exact readBe32_append _ _ _

theorem memory_drop_pair {b : Blob} {pre rest : List UInt8} {p : Pair}
    (hv : b.finalize = pre ++ kvpair p ++ rest) :
    b.memory.drop (pre.length + 4) = p.1 ++ 0 :: (p.2 ++ 0 :: (rest ++ b.memory.drop b.size)) := by
  have h := memory_drop (show b.finalize = (pre ++ be32 p.len.toUInt32) ++
      (p.1 ++ 0 :: (p.2 ++ 0 :: rest)) by
    rw [hv, kvpair]
    simp only [List.append_assoc, List.cons_append, List.nil_append])
  rw [List.length_append, length_be32] at h
  rw [h]
  simp only [List.append_assoc, List.cons_append]

/-- A pair in a view under `2 ^ 32` bytes has a length that fits its field. -/
theorem toNat_len_pair {b : Blob} {pre rest : List UInt8} {p : Pair}
    (hv : b.finalize = pre ++ kvpair p ++ rest) (hsmall : b.size < 2 ^ 32) :
    p.len.toUInt32.toNat = p.len := by
  have : p.len < 2 ^ 32 := by
    have h := congrArg List.length hv
    rw [length_finalize] at h
    simp only [List.length_append, length_kvpair] at h
    omega
  rw [Nat.toUInt32, UInt32.toNat_ofNat', Nat.mod_eq_of_lt this]

/-- The size of a pair as the loops step over it: its length field and its
entry. -/
theorem toNat_len_add_four {b : Blob} {pre rest : List UInt8} {p : Pair}
    (hv : b.finalize = pre ++ kvpair p ++ rest) (hsmall : b.size < 2 ^ 32) :
    (p.len.toUInt32 + 4).toNat = (kvpair p).length := by
  have h := congrArg List.length hv
  rw [length_finalize] at h
  simp only [List.length_append, length_kvpair] at h
  rw [UInt32.toNat_add, toNat_len_pair hv hsmall, length_kvpair]
  simp only [UInt32.reduceToNat]
  omega

/-- The first byte of a pair's key, which tells a system key. -/
theorem byteAt_key {b : Blob} {pre rest : List UInt8} {p : Pair}
    (hv : b.finalize = pre ++ kvpair p ++ rest) (hk : p.1 ≠ []) :
    b.byteAt (pre.length + 4) = p.1.getD 0 0 := by
  have h0 : 0 < p.1.length := List.length_pos_of_ne_nil hk
  rw [byteAt, List.getD_eq_getElem?_getD, ← Nat.add_zero (pre.length + 4), ← List.getElem?_drop,
    memory_drop_pair hv, List.getElem?_append_left h0, ← List.getD_eq_getElem?_getD]

end Blob

/-! ### Finding a key -/

/-- `get`'s test at a pair: the entry is longer than the key, and the key and
a NUL start it. For a key without NUL it holds exactly at the pair with that
key. -/
theorem key_test_iff {k v key rest : List UInt8} (hk : 0 ∉ k) (hkey : 0 ∉ key) :
    (key.length < k.length + 1 + v.length + 1 ∧
        (k ++ 0 :: (v ++ 0 :: rest)).getD key.length 0 = 0 ∧
        (k ++ 0 :: (v ++ 0 :: rest)).take key.length = key) ↔ k = key := by
  constructor
  · rintro ⟨hlen, hnul, htake⟩
    rcases Nat.lt_trichotomy key.length k.length with hlt | heq | hgt
    · -- the byte after `key` is a byte of `k`, not a NUL
      rw [List.getD_eq_getElem?_getD, List.getElem?_append_left hlt,
        List.getElem?_eq_getElem hlt, Option.getD_some] at hnul
      exact absurd (hnul ▸ List.getElem_mem hlt) hk
    · rwa [List.take_left' heq.symm] at htake
    · -- `key` would contain the NUL after `k`
      have hmem : (0 : UInt8) ∈ (k ++ 0 :: (v ++ 0 :: rest)).take key.length := by
        rw [List.take_append, List.take_of_length_le (Nat.le_of_lt hgt)]
        obtain ⟨n, hn⟩ : ∃ n, key.length - k.length = n + 1 := ⟨_, (Nat.succ_pred_eq_of_pos
          (Nat.sub_pos_of_lt hgt)).symm⟩
        rw [hn, List.take_succ_cons]
        exact List.mem_append_right _ (List.mem_cons_self)
      exact absurd (htake ▸ hmem) hkey
  · rintro rfl
    refine ⟨by omega, ?_, List.take_left' rfl⟩
    rw [List.getD_eq_getElem?_getD, List.getElem?_append_right (Nat.le_refl _), Nat.sub_self]
    rfl

/-- Where `get(key)` finds the value of `key` among pairs laid out from `c`. -/
def findValue (key : List UInt8) : Nat → List Pair → Option Nat
  | _, [] => none
  | c, p :: ps => if p.1 = key then some (c + 4 + key.length + 1)
    else findValue key (c + (kvpair p).length) ps

namespace Blob

/-- The `get` loop over a view that holds pairs from `current` on. -/
theorem getLoop_pairs {b : Blob} {key : List UInt8} (hkey : 0 ∉ key) (hsmall : b.size < 2 ^ 32) :
    ∀ {ps : List Pair} {pre : List UInt8} {fuel : Nat}, b.finalize = pre ++ pairsBytes ps →
      (∀ p ∈ ps, p.Ok) → ps.length < fuel →
      b.getLoop key fuel pre.length = .ok (findValue key pre.length ps)
  | [], pre, fuel + 1, hv, _, _ => by
    have hend : ¬ pre.length < b.size := by
      rw [← length_finalize, hv, pairsBytes_nil, List.append_nil]
      exact Nat.lt_irrefl _
    rw [getLoop, if_neg hend]
    rfl
  | p :: ps, pre, fuel + 1, hv, hok, hfuel => by
    have hv' : b.finalize = pre ++ kvpair p ++ pairsBytes ps := by
      rw [hv, pairsBytes_cons, List.append_assoc]
    have hcur : pre.length < b.size := by
      rw [← length_finalize, hv']
      simp only [List.length_append, length_kvpair]
      omega
    have hmem := memory_drop_pair hv'
    -- the test at this pair reads the memory from its key on
    have htest : (key.length < p.len.toUInt32.toNat ∧ b.byteAt (pre.length + 4 + key.length) = 0 ∧
        (b.memory.drop (pre.length + 4)).take key.length = key) ↔ p.1 = key := by
      rw [toNat_len_pair hv' hsmall, byteAt, List.getD_eq_getElem?_getD,
        ← List.getElem?_drop, hmem, ← List.getD_eq_getElem?_getD, Pair.len]
      exact key_test_iff (hok p (List.mem_cons_self)).2.1 hkey
    rw [getLoop, if_pos hcur, readLength_pair hv']
    show (if _ then _ else _) = _
    rw [findValue]
    by_cases hp : p.1 = key
    · rw [if_pos (htest.mpr hp), if_pos hp]
    · rw [if_neg (fun h => hp (htest.mp h)), if_neg hp, toNat_len_pair hv' hsmall]
      have ih := getLoop_pairs hkey hsmall
        (show b.finalize = (pre ++ kvpair p) ++ pairsBytes ps by rw [hv', List.append_assoc])
        (fun q hq => hok q (List.mem_cons_of_mem _ hq)) (Nat.lt_of_succ_lt_succ hfuel)
      rw [List.length_append, length_kvpair] at ih
      rw [show pre.length + 4 + p.len = pre.length + (4 + p.len) by omega, ih, length_kvpair]

/-- The entry of a pair as `iterator::operator*` reads it. -/
theorem deref_pair {b : Blob} {pre rest : List UInt8} {p : Pair}
    (hv : b.finalize = pre ++ kvpair p ++ rest) (hok : p.Ok) : b.deref pre.length = p := by
  have hmem := memory_drop_pair hv
  have hkey : cstr (b.memory.drop (pre.length + 4)) = p.1 := by
    rw [hmem, cstr_append_zero hok.2.1]
  have hval : b.memory.drop (pre.length + 4 + p.1.length + 1) = p.2 ++ 0 :: (rest ++ b.memory.drop b.size) := by
    rw [Nat.add_assoc, ← List.drop_drop, hmem]
    simp
  rw [deref, hkey, hval, cstr_append_zero hok.2.2.2]

/-- The iteration from the pair after `pre` yields the pairs from there on. -/
theorem itemsFrom_pairs {b : Blob} (hsmall : b.size < 2 ^ 32) :
    ∀ {ps : List Pair} {pre : List UInt8} {fuel : Nat}, b.finalize = pre ++ pairsBytes ps →
      (∀ p ∈ ps, p.Ok) → ps.length < fuel → b.itemsFrom fuel pre.length = .ok ps
  | [], pre, fuel + 1, hv, _, _ => by
    have hend : pre.length = b.size := by
      rw [← length_finalize, hv, pairsBytes_nil, List.append_nil]
    rw [itemsFrom, if_pos hend]
  | p :: ps, pre, fuel + 1, hv, hok, hfuel => by
    have hv' : b.finalize = pre ++ kvpair p ++ pairsBytes ps := by
      rw [hv, pairsBytes_cons, List.append_assoc]
    have hsize : b.size = pre.length + (kvpair p).length + (pairsBytes ps).length := by
      rw [← length_finalize, hv']
      simp only [List.length_append]
    have hne : pre.length ≠ b.size := by
      simp only [hsize, length_kvpair]
      omega
    -- `operator++` steps over the pair, within the view
    have hincr : b.incr pre.length = .ok (pre ++ kvpair p).length := by
      rw [incr, if_neg hne, readLength_pair hv', Except.ok_bind, toNat_len_pair hv' hsmall]
      dsimp only
      rw [if_neg (by simp only [hsize, length_kvpair]; omega)]
      simp only [List.length_append, length_kvpair]
      congr 1
      omega
    have ih := itemsFrom_pairs hsmall (show b.finalize = (pre ++ kvpair p) ++ pairsBytes ps by
      rw [hv', List.append_assoc]) (fun q hq => hok q (List.mem_cons_of_mem _ hq))
      (Nat.lt_of_succ_lt_succ hfuel)
    rw [itemsFrom, if_neg hne, hincr, Except.ok_bind, ih, Except.ok_bind,
      deref_pair hv' (hok p List.mem_cons_self)]

/-- The loop of `get_xattrs_size(type)` from the pair after `pre`: it adds
the sizes of the pairs of that type. -/
theorem sizeLoop_pairs {b : Blob} (type : AttrType) (hsmall : b.size < 2 ^ 32) :
    ∀ {ps : List Pair} {pre : List UInt8} {fuel : Nat} (ret : Nat), b.finalize = pre ++ pairsBytes ps →
      (∀ p ∈ ps, p.Ok) → ps.length < fuel →
      b.sizeLoop type fuel pre.length ret = ret + (pairsBytes (ofType type ps)).length
  | [], pre, fuel + 1, ret, hv, _, _ => by
    have hend : ¬ pre.length < b.size := by
      rw [← length_finalize, hv, pairsBytes_nil, List.append_nil]
      exact Nat.lt_irrefl _
    rw [sizeLoop, if_neg hend]
    rfl
  | p :: ps, pre, fuel + 1, ret, hv, hok, hfuel => by
    have hv' : b.finalize = pre ++ kvpair p ++ pairsBytes ps := by
      rw [hv, pairsBytes_cons, List.append_assoc]
    have hcur : pre.length < b.size := by
      rw [← length_finalize, hv']
      simp only [List.length_append, length_kvpair]
      omega
    have hstep : (4 + p.len.toUInt32).toNat = (kvpair p).length := by
      rw [UInt32.add_comm]
      exact toNat_len_add_four hv' hsmall
    have hsystem : (b.byteAt (pre.length + 4) == underscore) = isSystemKey p.1 := by
      rw [byteAt_key hv' (hok p List.mem_cons_self).1]
      rfl
    have ih := fun ret => sizeLoop_pairs type hsmall ret
      (show b.finalize = (pre ++ kvpair p) ++ pairsBytes ps by rw [hv', List.append_assoc])
      (fun q hq => hok q (List.mem_cons_of_mem _ hq)) (Nat.lt_of_succ_lt_succ hfuel)
    rw [sizeLoop, if_pos hcur, readLength_pair hv']
    dsimp only
    rw [hsystem, toNat_len_add_four hv' hsmall, hstep, ← List.length_append, ih]
    -- the pair is counted exactly when it is of the type
    cases type <;> cases hs : isSystemKey p.1 <;>
      simp [ofType, AttrType.includes, hs] <;> omega

/-! ### Writing through the view -/

theorem write_of_null {b : Blob} (hb : b.backing = .null) (off : Nat) (bs : List UInt8) :
    b.write off bs = b := by
  unfold write
  split
  · rfl
  · simp_all
  · simp_all

theorem memory_write {b : Blob} (hb : b.backing ≠ .null) (off : Nat) (bs : List UInt8) :
    (b.write off bs).memory = writeAt b.memory off bs := by
  unfold write memory
  split
  · exact absurd ‹_› hb
  · simp only [Backing.memory, *]
  · simp only [Backing.memory, *]

/-- A write inside the view. -/
theorem finalize_write {b : Blob} {off : Nat} {bs : List UInt8} (h : off + bs.length ≤ b.size) :
    (b.write off bs).finalize = writeAt b.finalize off bs := by
  by_cases hb : b.backing = .null
  · -- a null view is empty, and so is what is written into it
    have h0 : b.size = 0 := by
      have := b.size_le
      simp only [hb, Backing.memory, List.length_nil] at this
      omega
    have hbs : bs = [] := List.eq_nil_of_length_eq_zero (by omega)
    rw [write_of_null hb, hbs, show off = 0 by omega, finalize, h0]
    rfl
  · rw [finalize, memory_write hb, size_write, take_writeAt h]
    rfl

@[simp] theorem finalize_shrink (b : Blob) (n : Nat) (h : n ≤ b.size) :
    (b.shrink n h).finalize = b.finalize.take n := by
  simp only [finalize, shrink, memory, List.take_take, Nat.min_eq_left h]

@[simp] theorem size_shrink (b : Blob) (n : Nat) (h : n ≤ b.size) : (b.shrink n h).size = n := rfl

@[simp] theorem backing_shrink (b : Blob) (n : Nat) (h : n ≤ b.size) :
    (b.shrink n h).backing = b.backing := rfl

@[simp] theorem finalize_clear (b : Blob) : b.clear.finalize = [] := rfl

@[simp] theorem size_clear (b : Blob) : b.clear.size = 0 := rfl

@[simp] theorem backing_clear (b : Blob) : b.clear.backing = .null := rfl

/-- Rewriting the length field in front of the pairs. -/
theorem finalize_write_header {b : Blob} {hdr body : List UInt8} (hv : b.finalize = hdr ++ body)
    (hh : hdr.length = 4) (v : UInt32) : (b.write 0 (be32 v)).finalize = be32 v ++ body := by
  have hsize : 0 + (be32 v).length ≤ b.size := by
    rw [← length_finalize, hv, List.length_append, hh, length_be32]
    omega
  have h := writeAt_append [] hdr body (be32 v) (by rw [hh]; rfl)
  rw [List.nil_append, List.nil_append] at h
  rw [finalize_write hsize, hv]
  exact h

theorem writeLength_run {b : Blob} {offset : Nat} (h : offset + 4 ≤ b.size) (v : UInt32) :
    writeLength offset v b = .ok PUnit.unit (b.write offset (be32 v)) := by
  simp only [writeLength, EStateM.get_bind]
  rw [if_neg (by omega)]
  rfl

/-- The end of `remove_segment`: the length field is rewritten unless the
view is empty. -/
theorem lengthField_run {b : Blob} {hdr body : List UInt8} (hv : b.finalize = hdr ++ body)
    (hh : hdr.length = 4) (hsmall : b.size < 2 ^ 32) :
    (EStateM.get >>= fun b : Blob =>
        if b.size ≠ 0 then do
          let n ← MonadExcept.ofExcept (narrow b.size)
          writeLength 0 (n - 4)
        else pure ()) b = .ok PUnit.unit (b.write 0 (be32 body.length.toUInt32)) := by
  have hsize : b.size = 4 + body.length := by
    rw [← length_finalize, hv, List.length_append, hh]
  simp only [EStateM.get_bind]
  rw [if_pos (by omega), narrow, if_pos hsmall, EStateM.bind_of_ok (EStateM.ofExcept_ok _ _),
    writeLength_run (by omega), toUInt32_sub_four (by omega) hsmall, hsize, Nat.add_sub_cancel_left]

theorem lengthField_of_empty {b : Blob} (h : b.size = 0) :
    (EStateM.get >>= fun b : Blob =>
        if b.size ≠ 0 then do
          let n ← MonadExcept.ofExcept (narrow b.size)
          writeLength 0 (n - 4)
        else pure ()) b = .ok PUnit.unit b := by
  simp only [EStateM.get_bind]
  rw [if_neg (by omega)]
  rfl

/-- `remove_segment` cutting the bytes `Y` out of a view `hdr ++ X ++ Y ++ Z`:
the view becomes the pairs `X ++ Z` under a new length field, or `{}` when
nothing is left. -/
theorem removeSegment_run {b : Blob} {hdr X Y Z : List UInt8} (hv : b.finalize = hdr ++ X ++ Y ++ Z) (hh : hdr.length = 4)
    (hY : Y ≠ []) (hsmall : b.size < 2 ^ 32) :
    ∃ b', removeSegment (4 + X.length) Y.length b = .ok PUnit.unit b' ∧
      b'.finalize = (if X ++ Z = [] then [] else be32 (X.length + Z.length).toUInt32 ++ (X ++ Z)) ∧
      (b'.backing = b.backing ∨ b'.backing = .null) := by
  have hsize : b.size = 4 + X.length + Y.length + Z.length := by
    rw [← length_finalize, hv]
    simp only [List.length_append, hh]
  have hYpos : 0 < Y.length := List.length_pos_of_ne_nil hY
  simp only [removeSegment, EStateM.get_bind]
  by_cases hZ : Z = []
  · subst hZ
    rw [dif_pos (by simp only [List.length_nil] at hsize; omega)]
    simp only [EStateM.set_bind]
    by_cases hX : X = []
    · -- the only pair: the view becomes `{}`
      subst hX
      rw [if_pos (by simp), lengthField_of_empty (size_clear _)]
      exact ⟨_, rfl, by simp, .inr rfl⟩
    · have hX4 : 4 + X.length ≠ 4 := by
        have := List.length_pos_of_ne_nil hX
        omega
      have hv' : (b.shrink (4 + X.length) (by omega)).finalize = hdr ++ X := by
        rw [finalize_shrink, hv, List.append_nil]
        exact List.take_left' (by simp only [List.length_append, hh])
      have hne : ¬ (b.shrink (4 + X.length) (by omega)).size = 4 := hX4
      rw [if_neg hne, lengthField_run hv' hh (by simp only [size_shrink]; omega)]
      refine ⟨_, rfl, ?_, .inl (by simp)⟩
      rw [finalize_write_header hv' hh, if_neg (by simpa using hX)]
      simp
  · -- a pair in the middle: `memmove` the pairs after it down over it
    have hZpos : 0 < Z.length := List.length_pos_of_ne_nil hZ
    rw [dif_neg (by omega)]
    simp only [EStateM.set_bind]
    have hmoved : (b.memory.drop (4 + X.length + Y.length)).take (b.size - (4 + X.length) - Y.length) = Z := by
      have h := memory_drop (show b.finalize = (hdr ++ X ++ Y) ++ Z from hv)
      rw [List.length_append, List.length_append, hh] at h
      rw [h, List.take_left' (by omega)]
    have hv'' : ((b.write (4 + X.length) ((b.memory.drop (4 + X.length + Y.length)).take
        (b.size - (4 + X.length) - Y.length))).shrink (b.size - Y.length)
          (by rw [size_write]; exact Nat.sub_le _ _)).finalize = hdr ++ (X ++ Z) := by
      have hfront : (hdr ++ X ++ Y ++ Z).take (4 + X.length) = hdr ++ X := by
        rw [List.append_assoc (hdr ++ X)]
        exact List.take_left' (by simp only [List.length_append, hh])
      rw [finalize_shrink, hmoved, finalize_write (by omega), hv, writeAt, hfront,
        show b.size - Y.length = (hdr ++ X ++ Z).length by simp only [List.length_append, hh]; omega,
        List.take_left' rfl, List.append_assoc]
    rw [lengthField_run hv'' hh (by simp only [size_shrink]; omega)]
    refine ⟨_, rfl, ?_, .inl (by simp)⟩
    rw [finalize_write_header hv'' hh, if_neg (by simp [hZ]), List.length_append]

/-- The view of a blob that is not in the caller's buffer is the front of
its allocator. -/
theorem finalize_of_ne_buffer {b : Blob} (hb : b.backing ≠ .buffer) :
    b.size ≤ b.allocator.length ∧ b.finalize = b.allocator.take b.size := by
  have hle := b.size_le
  cases hbk : b.backing with
  | null =>
    simp only [hbk, Backing.memory, List.length_nil, Nat.le_zero] at hle
    simp [finalize, hle]
  | buffer => exact absurd hbk hb
  | allocator =>
    simp only [hbk, Backing.memory] at hle
    exact ⟨hle, by simp [finalize, memory, hbk, Backing.memory]⟩

/-- `grow_buffer(n)` on a view that is not in the caller's buffer: the view
moves to the allocator, `n` bytes long, with its bytes in front. -/
theorem growBuffer_run {b : Blob} (hb : b.backing ≠ .buffer) {n : UInt32} (hn : b.size < n.toNat) :
    ∃ b', growBuffer n b = .ok PUnit.unit b' ∧ b'.size = n.toNat ∧
      b'.finalize.take b.size = b.finalize ∧ b'.backing = .allocator := by
  obtain ⟨hle, hfront⟩ := finalize_of_ne_buffer hb
  simp only [growBuffer, EStateM.get_bind]
  rw [if_pos hn]
  by_cases halloc : b.allocator.length < n.toNat
  · -- the allocator is resized with zeros behind what it holds
    rw [dif_pos halloc]
    refine ⟨_, rfl, rfl, ?_, rfl⟩
    rw [hfront]
    simp only [finalize, memory, Backing.memory, List.take_take, Nat.min_eq_left (Nat.le_of_lt hn),
      List.take_append_of_le_length hle]
  · rw [dif_neg halloc]
    refine ⟨_, rfl, rfl, ?_, rfl⟩
    rw [hfront]
    simp only [finalize, memory, Backing.memory, List.take_take, Nat.min_eq_left (Nat.le_of_lt hn)]

/-- `write_kvpair(offset, key, value)` at the end of the pairs `pre`, over
bytes of the pair's length: the view becomes `pre` and the pair under a new
length field. -/
theorem writeKvpair_run {b : Blob} {hdr pre rest : List UInt8} {p : Pair}
    (hv : b.finalize = hdr ++ pre ++ rest) (hh : hdr.length = 4) (hrest : rest.length = (kvpair p).length) :
    ∃ b', writeKvpair (4 + pre.length) p.1 p.2 b = .ok PUnit.unit b' ∧
      b'.finalize = be32 (pre ++ kvpair p).length.toUInt32 ++ (pre ++ kvpair p) ∧
      b'.backing = b.backing := by
  have hentry : (p.1 ++ 0 :: p.2 ++ [0]).length = p.len := by
    simp only [Pair.len, List.length_append, List.length_cons, List.length_nil]
    omega
  -- the bytes past the pairs: four for the length field, then the entry
  obtain ⟨q₁, q₂, rfl, hq₁, hq₂⟩ : ∃ q₁ q₂ : List UInt8, rest = q₁ ++ q₂ ∧ q₁.length = 4 ∧
      q₂.length = (p.1 ++ 0 :: p.2 ++ [0]).length := by
    refine ⟨rest.take 4, rest.drop 4, (List.take_append_drop _ _).symm, ?_, ?_⟩ <;>
      simp only [List.length_take, List.length_drop, hrest, length_kvpair, hentry] <;> omega
  have hsize : b.size = 4 + pre.length + 4 + p.len := by
    rw [← length_finalize, hv]
    simp only [List.length_append, hh, hq₁, hq₂, hentry]
    omega
  have hpre : (hdr ++ pre).length = 4 + pre.length := by simp only [List.length_append, hh]
  have hv₁ : (b.write (4 + pre.length) (be32 p.len.toUInt32)).finalize =
      hdr ++ pre ++ be32 p.len.toUInt32 ++ q₂ := by
    rw [finalize_write (by simp only [length_be32, hsize]; omega), hv, ← List.append_assoc, ← hpre,
      writeAt_append _ _ _ _ (by rw [hq₁, length_be32])]
  have hv₂ : ((b.write (4 + pre.length) (be32 p.len.toUInt32)).write (4 + pre.length + 4)
      (p.1 ++ 0 :: p.2 ++ [0])).finalize = hdr ++ (pre ++ kvpair p) := by
    have hend : (hdr ++ pre ++ be32 p.len.toUInt32).length = 4 + pre.length + 4 := by
      simp only [List.length_append, hh, length_be32]
    rw [finalize_write (by simp only [size_write, hsize, hentry]; omega), hv₁,
      ← List.append_nil (hdr ++ pre ++ be32 p.len.toUInt32 ++ q₂), ← hend,
      writeAt_append _ _ _ _ hq₂, kvpair]
    simp only [List.append_assoc, List.cons_append, List.append_nil]
  simp only [writeKvpair]
  rw [show p.1.length + 1 + p.2.length + 1 = p.len from rfl,
    EStateM.bind_of_ok (writeLength_run (by omega) _), EStateM.get_bind, EStateM.set_bind,
    EStateM.get_bind, writeLength_run (by simp only [size_write]; omega)]
  refine ⟨_, rfl, ?_, by simp only [backing_write]⟩
  rw [finalize_write_header hv₂ hh]
  simp only [size_write, hsize, List.length_append, length_kvpair]
  congr 3
  omega
end Blob

/-! ### `get` and `remove` on a blob that holds pairs -/

theorem findValue_of_not_mem {key : List UInt8} :
    ∀ {c : Nat} {ps : List Pair}, key ∉ ps.map Prod.fst → findValue key c ps = none
  | _, [], _ => rfl
  | c, p :: ps, h => by
    have hp : p.1 ≠ key := fun he => h (List.mem_cons.mpr (.inl he.symm))
    rw [findValue, if_neg hp]
    exact findValue_of_not_mem (fun hk => h (List.mem_cons_of_mem _ hk))

theorem findValue_append_cons {key v : List UInt8} {bs : List Pair} :
    ∀ {c : Nat} {as : List Pair}, key ∉ as.map Prod.fst →
      findValue key c (as ++ (key, v) :: bs) = some (c + (pairsBytes as).length + 4 + key.length + 1)
  | c, [], _ => by simp [findValue]
  | c, a :: as, h => by
    have ha : a.1 ≠ key := fun he => h (List.mem_cons.mpr (.inl he.symm))
    rw [List.cons_append, findValue, if_neg ha,
      findValue_append_cons (fun hk => h (List.mem_cons_of_mem _ hk))]
    simp only [pairsBytes_cons, List.length_append, Option.some.injEq]
    omega

/-- A pair takes at least its length field. -/
theorem length_le_pairsBytes : ∀ ps : List Pair, 4 * ps.length ≤ (pairsBytes ps).length
  | [] => Nat.le_refl _
  | p :: ps => by
    have ih := length_le_pairsBytes ps
    simp only [pairsBytes_cons, List.length_append, length_kvpair, List.length_cons]
    omega

theorem pairsBytes_eq_nil {ps : List Pair} : pairsBytes ps = [] ↔ ps = [] := by
  cases ps with
  | nil => exact ⟨fun _ => rfl, fun _ => rfl⟩
  | cons p ps =>
    refine ⟨fun h => ?_, fun h => nomatch h⟩
    have := congrArg List.length h
    simp at this

/-- A key that is there splits the pairs at its pair. -/
theorem exists_split_of_mem {ps : List Pair} {key : List UInt8} (hnodup : (ps.map Prod.fst).Nodup)
    (hmem : key ∈ ps.map Prod.fst) :
    ∃ as v bs, ps = as ++ (key, v) :: bs ∧ key ∉ as.map Prod.fst ∧ key ∉ bs.map Prod.fst := by
  obtain ⟨⟨k, v⟩, hp, rfl⟩ := List.mem_map.mp hmem
  obtain ⟨as, bs, rfl⟩ := List.append_of_mem hp
  rw [List.map_append, List.map_cons, List.nodup_append] at hnodup
  obtain ⟨-, hnd, hdisj⟩ := hnodup
  exact ⟨as, v, bs, rfl, fun h => hdisj _ h _ List.mem_cons_self rfl,
    (List.nodup_cons.mp hnd).1⟩

namespace Holds

variable {b : Blob} {ps : List Pair}

theorem lt_size_of_layout (hv : b.finalize = layout ps) : ps.length < b.size := by
  have := length_le_pairsBytes ps
  have hl := congrArg List.length hv
  rw [Blob.length_finalize, length_layout] at hl
  omega

/-- `get` finds the pair of a key that is there. -/
theorem finalize_eq_layout (h : Holds b ps) (hne : ps ≠ []) : b.finalize = layout ps := by
  rcases h.view with ⟨-, hnil⟩ | hv
  · exact absurd hnil hne
  · exact hv

/-- The memory from the value of a pair on. -/
theorem memory_drop_value {key v : List UInt8} {as bs : List Pair} (h : Holds b ps)
    (hps : ps = as ++ (key, v) :: bs) :
    b.memory.drop (4 + (pairsBytes as).length + 4 + key.length + 1) =
      v ++ 0 :: (pairsBytes bs ++ b.memory.drop b.size) := by
  have hmem := Blob.memory_drop_pair (show b.finalize =
      (be32 (pairsBytes ps).length.toUInt32 ++ pairsBytes as) ++ kvpair (key, v) ++ pairsBytes bs by
    rw [h.finalize_eq_layout (by rw [hps]; simp), layout, hps]
    simp)
  simp only [List.length_append, length_be32] at hmem
  rw [show 4 + (pairsBytes as).length + 4 + key.length + 1 =
    (4 + (pairsBytes as).length + 4) + (key.length + 1) by omega, ← List.drop_drop, hmem]
  simp

/-- `get` finds the pair of a key that is there. -/
theorem get_eq {key v : List UInt8} {as bs : List Pair} (h : Holds b ps) (hkey : 0 ∉ key)
    (hps : ps = as ++ (key, v) :: bs) (has : key ∉ as.map Prod.fst) :
    b.get key = ⟨4 + (pairsBytes as).length + 4 + key.length + 1, v.length⟩ := by
  have hv := h.finalize_eq_layout (by rw [hps]; simp)
  have hloop := Blob.getLoop_pairs hkey h.small
    (show b.finalize = be32 (pairsBytes ps).length.toUInt32 ++ pairsBytes ps from hv) h.ok
    (lt_size_of_layout hv)
  rw [length_be32, hps, findValue_append_cons has] at hloop
  have hok : Pair.Ok (key, v) := h.ok _ (by rw [hps]; simp)
  rw [Blob.get, hloop]
  dsimp only
  rw [h.memory_drop_value hps, cstr_append_zero hok.2.2.2]

theorem get_eq_of_not_mem {key : List UInt8} (h : Holds b ps) (hkey : 0 ∉ key)
    (hk : key ∉ ps.map Prod.fst) : b.get key = ⟨0, 0⟩ := by
  rcases h.view with ⟨hv, rfl⟩ | hv
  · -- an empty view: the loop does not start
    have h0 : b.size = 0 := by rw [← Blob.length_finalize, hv]; rfl
    rw [Blob.get, h0]
    rfl
  · have hv' : b.finalize = be32 (pairsBytes ps).length.toUInt32 ++ pairsBytes ps := hv
    rw [Blob.get, ← length_be32 (pairsBytes ps).length.toUInt32,
      Blob.getLoop_pairs hkey h.small hv' h.ok (lt_size_of_layout hv), findValue_of_not_mem hk]

/-- The bytes of the value `get(key)` returns: the value of `key`, or none. -/
theorem bytes_get {key : List UInt8} (h : Holds b ps) (hkey : 0 ∉ key) :
    b.bytes (b.get key) = (ps.lookup key).getD [] := by
  by_cases hk : key ∈ ps.map Prod.fst
  · obtain ⟨as, v, bs, hps, has, -⟩ := exists_split_of_mem h.nodup hk
    rw [h.get_eq hkey hps has, Blob.bytes]
    dsimp only
    rw [h.memory_drop_value hps, List.take_left' rfl, hps,
      AssocList.lookup_append_cons_of_not_mem has, Option.getD_some]
  · rw [h.get_eq_of_not_mem hkey hk, AssocList.lookup_eq_none_of_not_mem hk]
    rfl

/-- Iteration yields the pairs, in order. -/
theorem items_eq (h : Holds b ps) : b.items = .ok ps := by
  rcases h.view with ⟨hv, rfl⟩ | hv
  · have h0 : b.size = 0 := by rw [← Blob.length_finalize, hv]; rfl
    rw [Blob.items, Blob.begin, if_pos h0, h0]
    rfl
  · have hsize : b.size ≠ 0 := by
      rw [← Blob.length_finalize, hv, length_layout]
      omega
    have hloop := Blob.itemsFrom_pairs h.small
      (show b.finalize = be32 (pairsBytes ps).length.toUInt32 ++ pairsBytes ps from hv) h.ok
      (lt_size_of_layout hv)
    rw [length_be32] at hloop
    rw [Blob.items, Blob.begin, if_neg hsize, hloop]

/-- `get_xattrs_size(type)`: `0` for an empty view, else the length field and
the pairs of that type. -/
theorem getXattrsSize_eq (h : Holds b ps) (type : AttrType) :
    b.getXattrsSize type = if b.finalize = [] then 0 else 4 + (pairsBytes (ofType type ps)).length := by
  rcases h.view with ⟨hv, rfl⟩ | hv
  · have h0 : b.size = 0 := by rw [← Blob.length_finalize, hv]; rfl
    rw [Blob.getXattrsSize, if_pos h0, if_pos hv]
  · have hsize : b.size ≠ 0 := by
      rw [← Blob.length_finalize, hv, length_layout]
      omega
    have hloop := Blob.sizeLoop_pairs type h.small 4
      (show b.finalize = be32 (pairsBytes ps).length.toUInt32 ++ pairsBytes ps from hv) h.ok
      (lt_size_of_layout hv)
    rw [length_be32] at hloop
    have hne : b.finalize ≠ [] := fun he => hsize (by rw [← Blob.length_finalize, he]; rfl)
    rw [Blob.getXattrsSize, if_neg hsize, if_neg hne, hloop]

/-- A view that `remove_segment` left after cutting the pair between `as`
and `bs` holds `as ++ bs`. -/
theorem of_cut {as bs : List Pair}
    (hv : b.finalize = if pairsBytes as ++ pairsBytes bs = [] then [] else
      be32 ((pairsBytes as).length + (pairsBytes bs).length).toUInt32 ++ (pairsBytes as ++ pairsBytes bs))
    (hok : ∀ p ∈ as ++ bs, p.Ok) (hnodup : ((as ++ bs).map Prod.fst).Nodup)
    (hsmall : 4 + (pairsBytes (as ++ bs)).length < 2 ^ 32) : Holds b (as ++ bs) := by
  rw [← List.length_append, ← pairsBytes_append] at hv
  have hsize : b.size ≤ 4 + (pairsBytes (as ++ bs)).length := by
    rw [← Blob.length_finalize, hv]
    split <;> simp
  refine ⟨?_, hok, hnodup, by omega⟩
  by_cases hnil : as ++ bs = []
  · rw [if_pos (pairsBytes_eq_nil.mpr hnil)] at hv
    exact .inl ⟨hv, hnil⟩
  · rw [if_neg (mt pairsBytes_eq_nil.mp hnil)] at hv
    exact .inr hv

theorem eraseKey_of_not_mem {key : List UInt8} {ps : List Pair} (hk : key ∉ ps.map Prod.fst) :
    eraseKey key ps = ps := by
  refine List.filter_eq_self.mpr fun p hp => ?_
  have hne : p.1 ≠ key := fun he => hk (List.mem_map.mpr ⟨p, hp, he⟩)
  simpa using hne

/-- `remove(key)`: the view holds the other pairs, in place. -/
theorem remove_run {key : List UInt8} (h : Holds b ps) (hkey : 0 ∉ key) :
    ∃ b', Blob.remove key b = .ok PUnit.unit b' ∧ Holds b' (eraseKey key ps) ∧
      (b'.backing = b.backing ∨ b'.backing = .null) := by
  by_cases hk : key ∈ ps.map Prod.fst
  · obtain ⟨as, v, bs, hps, has, hbs⟩ := exists_split_of_mem h.nodup hk
    have hget := h.get_eq hkey hps has
    have hok : Pair.Ok (key, v) := h.ok _ (by rw [hps]; simp)
    have herase : eraseKey key ps = as ++ bs := by
      rw [hps, eraseKey, List.filter_append, List.filter_cons_of_neg (by simp)]
      exact congrArg₂ (· ++ ·) (eraseKey_of_not_mem has) (eraseKey_of_not_mem hbs)
    -- the view with the pair of `key` between the others
    have hv : b.finalize = be32 (pairsBytes ps).length.toUInt32 ++ pairsBytes as ++
        kvpair (key, v) ++ pairsBytes bs := by
      rcases h.view with ⟨-, hnil⟩ | hv
      · exact absurd hnil (by rw [hps]; simp)
      · rw [hv, layout, hps]
        simp
    obtain ⟨b', hrun, hfin, hback⟩ := Blob.removeSegment_run hv (length_be32 _)
      (by simp [kvpair]) h.small
    have hlen : (pairsBytes ps).length = (pairsBytes as).length + (kvpair (key, v)).length +
        (pairsBytes bs).length := by
      rw [hps]
      simp only [pairsBytes_append, pairsBytes_cons, List.length_append]
      omega
    have hsize : b.size = 4 + (pairsBytes ps).length := by
      rw [← Blob.length_finalize, hv]
      simp only [List.length_append, length_be32, hlen]
      omega
    refine ⟨b', ?_, ?_, hback⟩
    · have hv0 : (b.get key).len ≠ 0 := by
        rw [hget]
        exact Nat.pos_iff_ne_zero.mp (List.length_pos_of_ne_nil hok.2.2.1)
      simp only [Blob.remove, EStateM.get_bind]
      rw [if_neg hv0, hget]
      dsimp only
      -- the offset and the size of the segment are those of the pair
      rw [show 4 + (pairsBytes as).length + 4 + key.length + 1 - 1 - key.length - 4 =
          4 + (pairsBytes as).length by omega,
        show 4 + key.length + 1 + v.length + 1 = (kvpair (key, v)).length by
          simp only [length_kvpair, Pair.len]; omega]
      exact hrun
    · have hsub : (as ++ bs).Sublist ps := by
        rw [hps]
        exact List.Sublist.append (List.Sublist.refl _) (List.sublist_cons_self _ _)
      rw [herase]
      refine of_cut hfin (fun p hp => h.ok p (hsub.subset hp)) ((hsub.map Prod.fst).nodup h.nodup) ?_
      have := h.small
      simp only [pairsBytes_append, List.length_append] at hlen ⊢
      omega
  · -- no pair of `key`: `get` finds nothing and nothing changes
    have hget := h.get_eq_of_not_mem hkey hk
    refine ⟨b, ?_, by rw [eraseKey_of_not_mem hk]; exact h, .inl rfl⟩
    simp only [Blob.remove, EStateM.get_bind]
    rw [if_pos (by rw [hget])]
    rfl

/-- Where `append_kvpair` writes: after the length field and the pairs. -/
theorem appendOffset_eq (h : Holds b ps) :
    (if b.size = 0 then 4 else b.size) = 4 + (pairsBytes ps).length := by
  rcases h.view with ⟨hv, rfl⟩ | hv
  · have h0 : b.size = 0 := by rw [← Blob.length_finalize, hv]; rfl
    rw [if_pos h0]
    rfl
  · have hsize : b.size = 4 + (pairsBytes ps).length := by
      rw [← Blob.length_finalize, hv, length_layout]
    rw [if_neg (by omega), hsize]

/-- A view grown from `b`'s with `b`'s bytes in front starts with a length
field and `b`'s pairs. -/
theorem front_of_grown (h : Holds b ps) {w : Blob} (hw : w.finalize.take b.size = b.finalize)
    (hsize : 4 + (pairsBytes ps).length ≤ w.size) :
    ∃ hdr, hdr.length = 4 ∧ w.finalize.take (4 + (pairsBytes ps).length) = hdr ++ pairsBytes ps := by
  rcases h.view with ⟨-, rfl⟩ | hv
  · -- an empty view: the length field is whatever the grown view has there
    refine ⟨w.finalize.take 4, ?_, by simp⟩
    simp only [pairsBytes_nil, List.length_nil, Nat.add_zero] at hsize
    simp only [List.length_take, Blob.length_finalize]
    omega
  · have hb : b.size = 4 + (pairsBytes ps).length := by
      rw [← Blob.length_finalize, hv, length_layout]
    exact ⟨_, length_be32 _, by rw [← hb, hw, hv, layout]⟩

/-- `append_kvpair(key, value)` for a new key on a blob that is not in the
caller's buffer: the pair is added after the others. -/
theorem appendKvpair_run {key value : List UInt8} (h : Holds b ps) (hb : b.backing ≠ .buffer)
    (hp : Pair.Ok (key, value)) (hk : key ∉ ps.map Prod.fst)
    (hsmall : (layout (ps ++ [(key, value)])).length < 2 ^ 32) :
    ∃ b', Blob.appendKvpair key value b = .ok PUnit.unit b' ∧ Holds b' (ps ++ [(key, value)]) ∧
      b'.backing = .allocator := by
  have hneeded : 4 + (pairsBytes ps).length + 4 + key.length + 1 + value.length + 1 =
      (layout (ps ++ [(key, value)])).length := by
    simp only [length_layout, pairsBytes_append, pairsBytes_cons, pairsBytes_nil, List.append_nil,
      List.length_append, length_kvpair, Pair.len]
    omega
  have hto : (layout (ps ++ [(key, value)])).length.toUInt32.toNat = (layout (ps ++ [(key, value)])).length := by
    rw [Nat.toUInt32, UInt32.toNat_ofNat', Nat.mod_eq_of_lt hsmall]
  have hle : b.size ≤ 4 + (pairsBytes ps).length := by
    have := h.appendOffset_eq
    split at this <;> omega
  obtain ⟨w, hgrow, hwsize, hwfront, hwback⟩ :=
    Blob.growBuffer_run hb (n := (layout (ps ++ [(key, value)])).length.toUInt32) (by omega)
  obtain ⟨hdr, hh, hfront⟩ := h.front_of_grown hwfront (by omega)
  -- the grown view: the length field, the pairs, and room for the new pair
  have hw : w.finalize = hdr ++ pairsBytes ps ++ w.finalize.drop (4 + (pairsBytes ps).length) := by
    rw [← hfront, List.take_append_drop]
  obtain ⟨w', hwrite, hfin, hback⟩ := Blob.writeKvpair_run (p := (key, value)) hw hh (by
    rw [List.length_drop, Blob.length_finalize, hwsize, hto, ← hneeded, length_kvpair]
    simp only [Pair.len]
    omega)
  have hfin' : w'.finalize = layout (ps ++ [(key, value)]) := by
    rw [hfin, layout, pairsBytes_append, pairsBytes_cons, pairsBytes_nil, List.append_nil]
  refine ⟨w', ?_, ⟨.inr hfin', ?_, ?_, ?_⟩, hback.trans hwback⟩
  · simp only [Blob.appendKvpair, EStateM.get_bind]
    rw [h.appendOffset_eq, hneeded, narrow, if_pos hsmall, EStateM.bind_of_ok (EStateM.ofExcept_ok _ _),
      EStateM.bind_of_ok hgrow]
    exact hwrite
  · intro q hq
    rcases List.mem_append.mp hq with hq | hq
    · exact h.ok q hq
    · rw [List.mem_singleton.mp hq]
      exact hp
  · exact AssocList.nodup_keys_append_singleton _ h.nodup hk
  · rw [← Blob.length_finalize, hfin']
    exact hsmall

theorem not_mem_eraseKey (key : List UInt8) (ps : List Pair) : key ∉ (eraseKey key ps).map Prod.fst := by
  intro hk
  obtain ⟨q, hq, rfl⟩ := List.mem_map.mp hk
  simp [eraseKey] at hq

/-- `set(key, value)` on a blob that is not in the caller's buffer. -/
theorem set_run {key value : List UInt8} (h : Holds b ps) (hb : b.backing ≠ .buffer)
    (hkey : key ≠ [] ∧ 0 ∉ key) (hval : 0 ∉ value)
    (hsmall : (layout (setKey key value ps)).length < 2 ^ 32) :
    ∃ b', Blob.set key value b = .ok PUnit.unit b' ∧ Holds b' (setKey key value ps) ∧
      b'.backing ≠ .buffer := by
  obtain ⟨b₁, hrem, h₁, hback₁⟩ := h.remove_run hkey.2
  have hb₁ : b₁.backing ≠ .buffer := by
    rcases hback₁ with e | e <;> rw [e]
    · exact hb
    · exact Backing.noConfusion
  simp only [Blob.set]
  rw [EStateM.bind_of_ok hrem]
  by_cases hv : value = []
  · -- an empty value only removes the key
    subst hv
    exact ⟨b₁, rfl, by rw [setKey, List.isEmpty_nil, if_pos rfl]; exact h₁, hb₁⟩
  · have hne : value.isEmpty = false := List.isEmpty_eq_false_iff.mpr hv
    rw [setKey, hne, if_neg Bool.false_ne_true] at hsmall
    obtain ⟨b₂, happ, h₂, hback₂⟩ :=
      h₁.appendKvpair_run hb₁ ⟨hkey.1, hkey.2, hv, hval⟩ (not_mem_eraseKey key ps) hsmall
    refine ⟨b₂, ?_, by rw [setKey, hne, if_neg Bool.false_ne_true]; exact h₂, by rw [hback₂]; exact Backing.noConfusion⟩
    rw [hne]
    exact happ

end Holds

/-- `set_run` asks for a view that is not in the caller's buffer. On a blob
constructed over a buffer holding `a = 1`, `set("b", "2")` grows the view
into a fresh allocator of zeros without copying the pair of `a` over: `get("a")`
finds nothing, and the view is not a valid blob. -/
theorem set_on_attached_buffer_drops_pairs (inflate : List UInt8 → Option (List UInt8))
    (validator : List UInt8 → Bool) :
    ∃ b b', Blob.assign inflate [0, 0, 0, 8, 0, 0, 0, 4, 0x61, 0, 0x31, 0] false = .ok b ∧
      Holds b [([0x61], [0x31])] ∧ b.backing = .buffer ∧
      Blob.set [0x62] [0x32] b = .ok PUnit.unit b' ∧
      b'.get [0x61] = ⟨0, 0⟩ ∧ b'.finalize ≠ [] ∧ validate validator b'.finalize = false :=
  ⟨_, _, rfl, ⟨.inr (by decide), by decide, by decide, by decide⟩, rfl, rfl, by decide, by decide, rfl⟩

namespace Holds

/-- The test of `prune_keys(type)` at a pair. -/
theorem prune_test_iff (type : AttrType) (k : List UInt8) :
    ((type = .user ∧ (!isSystemKey k) = true) ∨ (type = .system ∧ isSystemKey k = true)) ↔
      type.includes k = true := by
  cases type <;> simp [AttrType.includes]

theorem backing_trans {b₀ b₁ b₂ : Blob} (h₁ : b₁.backing = b₀.backing ∨ b₁.backing = .null)
    (h₂ : b₂.backing = b₁.backing ∨ b₂.backing = .null) :
    b₂.backing = b₀.backing ∨ b₂.backing = .null := by
  rcases h₂ with h₂ | h₂
  · rwa [h₂]
  · exact .inr h₂

/-- The `prune_keys` loop at the pair after `kept`: it keeps `kept` and
drops the pairs of `type` from the rest. Each turn either cuts the pair out,
staying at the same offset, or steps over it; both use up one pair. -/
theorem pruneLoop_pairs (type : AttrType) : ∀ {fuel : Nat} {kept rest : List Pair} {b : Blob},
    Holds b (kept ++ rest) → rest.length < fuel →
    ∃ b', Blob.pruneLoop type fuel (4 + (pairsBytes kept).length) b = .ok PUnit.unit b' ∧
      Holds b' (kept ++ pruneType type rest) ∧ (b'.backing = b.backing ∨ b'.backing = .null)
  | fuel + 1, kept, [], b, h, _ => by
    -- past the last pair, or an empty view
    have hend : ¬ 4 + (pairsBytes kept).length < b.size := by
      rcases h.view with ⟨hv, -⟩ | hv
      · rw [← Blob.length_finalize, hv]
        exact Nat.not_lt_zero _
      · rw [← Blob.length_finalize, hv, List.append_nil, length_layout]
        exact Nat.lt_irrefl _
    refine ⟨b, ?_, by simpa [pruneType] using h, .inl rfl⟩
    simp only [Blob.pruneLoop, EStateM.get_bind]
    rw [if_neg hend]
    rfl
  | fuel + 1, kept, p :: rest, b, h, hfuel => by
    have hv : b.finalize = be32 (pairsBytes (kept ++ p :: rest)).length.toUInt32 ++ pairsBytes kept ++
        kvpair p ++ pairsBytes rest := by
      rcases h.view with ⟨-, hnil⟩ | hv
      · simp at hnil
      · rw [hv, layout]
        simp
    have hpre : (be32 (pairsBytes (kept ++ p :: rest)).length.toUInt32 ++ pairsBytes kept).length =
        4 + (pairsBytes kept).length := by
      simp only [List.length_append, length_be32]
    have hok : p.Ok := h.ok p (by simp)
    have hsize : b.size = 4 + (pairsBytes kept).length + (kvpair p).length + (pairsBytes rest).length := by
      rw [← Blob.length_finalize, hv]
      simp only [List.length_append, length_be32]
    have hlen := Blob.toNat_len_add_four hv h.small
    have hcur : 4 + (pairsBytes kept).length < b.size := by
      simp only [hsize, length_kvpair]
      omega
    have hsystem := Blob.byteAt_key hv hok.1
    rw [hpre] at hsystem
    have hread := Blob.readLength_pair hv
    rw [hpre] at hread
    simp only [Blob.pruneLoop, EStateM.get_bind]
    rw [if_pos hcur, hread, EStateM.bind_of_ok (EStateM.ofExcept_ok _ _), hsystem, show (p.1.getD 0 0 == underscore) = isSystemKey p.1 from rfl]
    by_cases hprune : type.includes p.1 = true
    · -- the pair goes: the pairs after it move down to the same offset
      rw [if_pos ((prune_test_iff type p.1).mpr hprune), hlen]
      obtain ⟨b₁, hcut, hfin, hback₁⟩ := Blob.removeSegment_run (show b.finalize =
        be32 (pairsBytes (kept ++ p :: rest)).length.toUInt32 ++ pairsBytes kept ++ kvpair p ++
          pairsBytes rest from hv) (length_be32 _) (by simp [kvpair]) h.small
      have hsub : (kept ++ rest).Sublist (kept ++ p :: rest) :=
        List.Sublist.append (List.Sublist.refl _) (List.sublist_cons_self _ _)
      have h₁ : Holds b₁ (kept ++ rest) := by
        refine of_cut hfin (fun q hq => h.ok q (hsub.subset hq)) ((hsub.map Prod.fst).nodup h.nodup) ?_
        have := h.small
        simp only [pairsBytes_append, List.length_append] at hsize ⊢
        omega
      obtain ⟨b', hrun, h', hback⟩ := pruneLoop_pairs type h₁ (Nat.lt_of_succ_lt_succ hfuel)
      refine ⟨b', by rw [EStateM.bind_of_ok hcut]; exact hrun, ?_, backing_trans hback₁ hback⟩
      have hdrop : pruneType type (p :: rest) = pruneType type rest := by
        simp [pruneType, hprune]
      rwa [hdrop]
    · -- the pair stays: step over it
      rw [if_neg (mt (prune_test_iff type p.1).mp hprune)]
      have h₁ : Holds b ((kept ++ [p]) ++ rest) := by simpa using h
      obtain ⟨b', hrun, h', hback⟩ := pruneLoop_pairs type h₁ (Nat.lt_of_succ_lt_succ hfuel)
      have hnext : 4 + (pairsBytes kept).length + (4 + p.len.toUInt32).toNat =
          4 + (pairsBytes (kept ++ [p])).length := by
        rw [UInt32.add_comm, hlen]
        simp only [pairsBytes_append, pairsBytes_cons, pairsBytes_nil, List.append_nil,
          List.length_append, Nat.add_assoc]
      refine ⟨b', by rw [hnext]; exact hrun, ?_, hback⟩
      have hkeep : pruneType type (p :: rest) = p :: pruneType type rest := by
        simp [pruneType, hprune]
      rw [hkeep]
      simpa using h'

/-- `prune_keys(type)`: the view holds the pairs of the other type. -/
theorem pruneKeys_run (type : AttrType) (h : Holds b ps) :
    ∃ b', Blob.pruneKeys type b = .ok PUnit.unit b' ∧ Holds b' (pruneType type ps) ∧
      (b'.backing = b.backing ∨ b'.backing = .null) := by
  simp only [Blob.pruneKeys, EStateM.get_bind]
  rcases h.view with ⟨hv, rfl⟩ | hv
  · -- an empty view: the loop does not start
    have h0 : b.size = 0 := by rw [← Blob.length_finalize, hv]; rfl
    rw [h0]
    exact ⟨b, EStateM.tryCatch_of_ok rfl, h, .inl rfl⟩
  · obtain ⟨b', hrun, h', hback⟩ := pruneLoop_pairs type (show Holds b ([] ++ ps) from h)
      (lt_size_of_layout hv)
    exact ⟨b', EStateM.tryCatch_of_ok hrun, h', hback⟩

/-! ### The constructors -/

theorem empty : Holds Blob.empty [] :=
  ⟨.inl ⟨rfl, rfl⟩, (fun _ h => nomatch h), List.nodup_nil, by decide⟩

/-- The copy constructor: the copy's view is the same bytes, in its own
allocator. -/
theorem copy (h : Holds b ps) : Holds (Blob.copy b) ps := by
  have hfin : (Blob.copy b).finalize = b.finalize := by
    simp only [Blob.copy, Blob.finalize, Blob.memory, Backing.memory]
    exact List.take_of_length_le (by simp only [List.length_take]; exact Nat.min_le_left _ _)
  exact ⟨hfin ▸ h.view, h.ok, h.nodup, h.small⟩

end Holds

theorem isEmpty_layout_append (ps : List Pair) (rest : List UInt8) :
    (layout ps ++ rest).isEmpty = false := by
  simp [layout, be32]

/-- `get_body_offset` of a buffer that starts with a blob: the blob's size. -/
theorem getBodyOffset_layout (ps : List Pair) (rest : List UInt8) (hsmall : (layout ps).length < 2 ^ 32) :
    Blob.getBodyOffset (layout ps ++ rest) = .ok (layout ps).length.toUInt32 := by
  have hread : readBe32 (layout ps ++ rest) 0 = (pairsBytes ps).length.toUInt32 := by
    rw [layout, List.append_assoc, readBe32_be32]
  have hlen : (layout ps ++ rest).length ≥ 4 := by
    simp only [List.length_append, length_layout]
    omega
  have hto : (pairsBytes ps).length.toUInt32.toNat = (pairsBytes ps).length := by
    rw [Nat.toUInt32, UInt32.toNat_ofNat', Nat.mod_eq_of_lt (by rw [length_layout] at hsmall; omega)]
  rw [Blob.getBodyOffset, isEmpty_layout_append, if_neg Bool.false_ne_true, if_neg (by omega)]
  dsimp only
  rw [hread, hto, if_neg (by simp only [List.length_append, length_layout]; omega), toUInt32_add_four,
    length_layout, Nat.add_comm]

/-- `Blob(buffer)` over a buffer that starts with a blob: the view is
attached to the buffer and holds its pairs. -/
theorem assign_attached (inflate : List UInt8 → Option (List UInt8)) {ps : List Pair} {rest : List UInt8}
    (hok : ∀ p ∈ ps, p.Ok) (hnodup : (ps.map Prod.fst).Nodup) (hsmall : (layout ps).length < 2 ^ 32) :
    ∃ b, Blob.assign inflate (layout ps ++ rest) false = .ok b ∧ Holds b ps ∧ b.backing = .buffer := by
  have hto : (layout ps).length.toUInt32.toNat = (layout ps).length := by
    rw [Nat.toUInt32, UInt32.toNat_ofNat', Nat.mod_eq_of_lt hsmall]
  have hnot : ¬ (layout ps ++ rest).length < (layout ps).length.toUInt32.toNat := by
    rw [hto, List.length_append]
    omega
  rw [Blob.assign, isEmpty_layout_append, if_neg Bool.false_ne_true, if_neg Bool.false_ne_true,
    getBodyOffset_layout ps rest hsmall, Except.ok_bind, dif_neg hnot]
  refine ⟨_, rfl, ⟨.inr ?_, hok, hnodup, UInt32.toNat_lt _⟩, rfl⟩
  simp only [Blob.finalize, Blob.memory, Backing.memory, hto]
  exact List.take_left' rfl

/-- `Blob(buffer, true)` over a buffer that inflates to a blob: the view is
the blob's bytes in the allocator. -/
theorem assign_inflated {inflate : List UInt8 → Option (List UInt8)} {buffer rest : List UInt8}
    {ps : List Pair} (hne : buffer ≠ []) (hinf : inflate buffer = some (layout ps ++ rest))
    (hok : ∀ p ∈ ps, p.Ok) (hnodup : (ps.map Prod.fst).Nodup) (hsmall : (layout ps).length < 2 ^ 32) :
    ∃ b, Blob.assign inflate buffer true = .ok b ∧ Holds b ps ∧ b.backing = .allocator := by
  have hto : (layout ps).length.toUInt32.toNat = (layout ps).length := by
    rw [Nat.toUInt32, UInt32.toNat_ofNat', Nat.mod_eq_of_lt hsmall]
  have hzero : (layout ps).length.toUInt32 ≠ 0 := by
    intro h0
    have := congrArg UInt32.toNat h0
    rw [hto, length_layout] at this
    exact absurd this (by simp)
  have hnot : ¬ (layout ps ++ rest).length < (layout ps).length.toUInt32.toNat := by
    rw [hto, List.length_append]
    omega
  rw [Blob.assign, if_neg (by simpa using hne), if_pos rfl, hinf]
  dsimp only
  rw [getBodyOffset_layout ps rest hsmall, Except.ok_bind, if_neg hzero, dif_neg hnot]
  refine ⟨_, rfl, ⟨.inr ?_, hok, hnodup, UInt32.toNat_lt _⟩, rfl⟩
  simp only [Blob.finalize, Blob.memory, Backing.memory, hto, List.take_take, Nat.min_self]
  exact List.take_left' rfl

end KvEngine.Xattr
