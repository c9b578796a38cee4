import Mathlib

/-!
# Unsigned LEB128 (`include/mcbp/protocol/unsigned_leb128.h`)

The memcached binary protocol prefixes a document key with its collection id,
encoded as an unsigned LEB128: seven payload bits per byte, lowest first, and
the continuation bit `0x80` on every byte but the last.
`unsigned_leb128<T>` is instantiated at the four unsigned integer types `T`.

- `encode`: the constructor's loop (`unsigned_leb128(T in)`), writing into an
  array of `getMaxSize T` slots; `0` is the single byte `0x00`.
- `decodeNoThrow`: the protected `decode(buf, NoThrow)`. It ORs the payload
  bits of at most `getMaxSize T` bytes into a value of type `T`, so bits that
  a last byte shifts above the width of `T` are dropped.
- `decodeCanonical`: `decodeNoThrow` followed by `is_canonical`, which only
  compares the decoded value with the largest value of a shorter encoding.

Results:
- `decodeNoThrow_encode`, `decode_encode`, `decodeCanonical_encode`: every
  value of every `T`, followed by any bytes, decodes back to itself and the
  bytes after it, by all three decoders.
- `decodeCanonical_eq_some`: for `T` up to `uint32_t`, what `decodeCanonical`
  accepts is a prefix whose payloads, narrowed to `T`, are the value, and
  that prefix is the encoding of the value whenever its payloads fit `T`;
  `decodeCanonical_cons` reads the value's range off the first byte.
- `decodeCanonical_accepts_overlong_uint32`: the stop byte `0x11` in the fifth
  position of a `uint32_t` encoding carries a bit above bit 31 and still passes
  `is_canonical`, so `decodeCanonical` accepts a second encoding of `2^28`.
-/

namespace KvEngine.Mcbp

/-- The unsigned types `T` the codec is instantiated at. -/
inductive UIntType where
  | uint8
  | uint16
  | uint32
  | uint64
  deriving DecidableEq, Repr

namespace UIntType

/-- `sizeof(T)`. -/
def byteSize : UIntType → Nat
  | uint8 => 1
  | uint16 => 2
  | uint32 => 4
  | uint64 => 8

/-- The width of `T` in bits. -/
def bits (t : UIntType) : Nat := 8 * t.byteSize

end UIntType

namespace UnsignedLeb128

open UIntType

/-- `maxSize = sizeof(T) + (((sizeof(T) + 1) / 8) + 1)`: enough slots for `~T(0)`. -/
def getMaxSize (t : UIntType) : Nat := t.byteSize + ((t.byteSize + 1) / 8 + 1)

/-- The constructor's loop: the bytes it writes for `in` into at most `fuel`
array slots. The loop body runs once for `in = 0` too, since the array is
zero-initialised and `encodedSize` starts at one. -/
def encodeFrom : (fuel : Nat) → (n : Nat) → List UInt8
  | 0, _ => []
  | fuel + 1, n =>
    let byte := (n &&& 0x7f).toUInt8
    if n >>> 7 > 0 then (byte ||| 0x80) :: encodeFrom fuel (n >>> 7) else [byte]

/-- `unsigned_leb128<T>(in).get()`. -/
def encode (t : UIntType) (v : Nat) : List UInt8 := encodeFrom (getMaxSize t) v

/-- The `for (end = 1; end < size; end++)` loop of `decode(buf, NoThrow)`:
`budget` is `size - end`, `rv` the value so far and `shift` the shift of
`buf[end]`. The payload is shifted as an `unsigned long long` and the `|=`
narrows the result to `T`. Running out of budget is the `end == size` failure. -/
def decodeFrom (t : UIntType) : (budget : Nat) → List UInt8 → (rv shift : Nat) →
    Option (Nat × List UInt8)
  | 0, _, _, _ => none
  | _ + 1, [], _, _ => none
  | budget + 1, b :: rest, rv, shift =>
    let rv := (rv ||| (((b &&& 0x7f).toNat <<< shift) % 2 ^ 64)) % 2 ^ t.bits
    if b &&& 0x80 = 0 then some (rv, rest) else decodeFrom t budget rest rv (shift + 7)

/-- `decode(buf, NoThrow)`: the value and the bytes after the encoding, or
`none` for the `{0, {}}` failure result. The source reads `buf[0]` without a
check; its callers pass at least one byte, and `[]` is `none` here. -/
def decodeNoThrow (t : UIntType) : List UInt8 → Option (Nat × List UInt8)
  | [] => none
  | b :: rest =>
    let rv := (b &&& 0x7f).toNat
    if b &&& 0x80 = 0x80 then
      decodeFrom t (min (rest.length + 1) (getMaxSize t) - 1) rest rv 7
    else some (rv, rest)

/-- The public, throwing `decode`. -/
def decode (t : UIntType) (buf : List UInt8) : Except String (Nat × List UInt8) :=
  match (if buf.length > 0 then decodeNoThrow t buf else none) with
  | some r => .ok r
  | none => .error ("unsigned_leb128::decode invalid leb128 of size:" ++ toString buf.length)

/-- `MAX_LEB128(nbytes)`: the largest value an `nbytes` long encoding holds. -/
def maxLeb128 (nbytes : Nat) : Nat :=
  (0x7f <<< ((nbytes - 1) * 7)) ||| ((1 <<< ((nbytes - 1) * 7)) - 1)

/-- `unsigned_leb128<uint8_t>::is_canonical`. -/
def isCanonical8 (value encodedLength : Nat) : Bool :=
  (encodedLength == 2 && value > maxLeb128 1) || encodedLength == 1

/-- `unsigned_leb128<uint16_t>::is_canonical`. -/
def isCanonical16 (value encodedLength : Nat) : Bool :=
  isCanonical8 value encodedLength || (encodedLength == 3 && value > maxLeb128 2)

/-- `unsigned_leb128<uint32_t>::is_canonical`. -/
def isCanonical32 (value encodedLength : Nat) : Bool :=
  isCanonical16 value encodedLength ||
    match encodedLength with
    | 4 => value > maxLeb128 3
    | 5 => value > maxLeb128 4
    | _ => false

/-- `unsigned_leb128<uint64_t>::is_canonical`. -/
def isCanonical64 (value encodedLength : Nat) : Bool :=
  isCanonical32 value encodedLength ||
    match encodedLength with
    | 6 => value > maxLeb128 5
    | 7 => value > maxLeb128 6
    | 8 => value > maxLeb128 7
    | 9 => value > maxLeb128 8
    | 10 => value > maxLeb128 9
    | _ => false

/-- `is_canonical`, dispatched on `T`. -/
def isCanonical : UIntType → Nat → Nat → Bool
  | uint8 => isCanonical8
  | uint16 => isCanonical16
  | uint32 => isCanonical32
  | uint64 => isCanonical64

/-- `decodeCanonical`: the encoded length is `rv.second.data() - buf.data()`. -/
def decodeCanonical (t : UIntType) (buf : List UInt8) : Option (Nat × List UInt8) :=
  match decodeNoThrow t buf with
  | some (v, rest) =>
    if isCanonical t v (buf.length - rest.length) then some (v, rest) else none
  | none => none

/-! ## Bytes as numbers -/

theorem and_0x7f (n : Nat) : n &&& 0x7f = n % 128 := by
  rw [show (0x7f : Nat) = 2 ^ 7 - 1 by decide, Nat.and_two_pow_sub_one_eq_mod]

theorem shiftRight_seven (n : Nat) : n >>> 7 = n / 128 := by
  simp [Nat.shiftRight_eq_div_pow]

theorem toNat_and_0x7f (b : UInt8) : (b &&& 0x7f).toNat = b.toNat % 128 := by
  rw [UInt8.toNat_and, show (0x7f : UInt8).toNat = 0x7f by decide, and_0x7f]

/-- The continuation bit of a byte, as a test on its value. -/
theorem toNat_and_0x80 (b : UInt8) :
    (b &&& 0x80).toNat = if b.toNat < 128 then 0 else 128 := by
  have hbit : ∀ i : Fin 256, i.val &&& 128 = if i.val < 128 then 0 else 128 := by
    decide +kernel
  rw [UInt8.toNat_and, show (0x80 : UInt8).toNat = 128 by decide]
  exact hbit ⟨b.toNat, b.toNat_lt⟩

theorem and_0x80_eq_zero_iff (b : UInt8) : b &&& 0x80 = 0 ↔ b.toNat < 128 := by
  rw [← UInt8.toNat_inj, toNat_and_0x80]
  split <;> simp_all

theorem and_0x80_eq_0x80_iff (b : UInt8) : b &&& 0x80 = 0x80 ↔ 128 ≤ b.toNat := by
  rw [← UInt8.toNat_inj, toNat_and_0x80]
  split <;> simp_all

theorem toNat_ofNat_byte {x : Nat} (hx : x < 256) : (UInt8.ofNat x).toNat = x := by
  rw [UInt8.toNat_ofNat']
  exact Nat.mod_eq_of_lt hx

theorem toNat_payload (n : Nat) : (n &&& 0x7f).toUInt8.toNat = n % 128 := by
  rw [and_0x7f, Nat.toUInt8, UInt8.toNat_ofNat', Nat.mod_eq_of_lt (by omega)]

theorem toNat_payload_or (n : Nat) :
    ((n &&& 0x7f).toUInt8 ||| 0x80).toNat = n % 128 + 128 := by
  rw [UInt8.toNat_or, toNat_payload, show (0x80 : UInt8).toNat = 2 ^ 7 * 1 by decide,
    Nat.or_comm, ← Nat.two_pow_add_eq_or_of_lt (by omega)]
  omega

/-! ## The widths of `T` -/

theorem bits_le_64 (t : UIntType) : t.bits ≤ 64 := by
  cases t <;> decide

/-- Every value of `T` fits the payload bits of `getMaxSize T` bytes. -/
theorem two_pow_bits_le (t : UIntType) : 2 ^ t.bits ≤ 128 ^ getMaxSize t := by
  cases t <;> decide

theorem two_le_getMaxSize (t : UIntType) : 2 ≤ getMaxSize t := by
  cases t <;> decide

/-- `MAX_LEB128(n)` is `128^n - 1` for every length the checks use. -/
theorem maxLeb128_eq (n : Nat) (h1 : 1 ≤ n) (h9 : n ≤ 9) : maxLeb128 n = 128 ^ n - 1 := by
  interval_cases n <;> decide

/-- `is_canonical` holds of a length `L` up to `getMaxSize T` when a value needs
all `L` bytes. -/
theorem isCanonical_of_pow_le (t : UIntType) {v L : Nat} (h1 : 1 ≤ L)
    (hL : L ≤ getMaxSize t) (hv : 2 ≤ L → 128 ^ (L - 1) ≤ v) :
    isCanonical t v L = true := by
  cases t <;> simp only [getMaxSize, byteSize, Nat.reduceAdd, Nat.reduceDiv] at hL <;>
    interval_cases L <;>
    simp_all [isCanonical, isCanonical8, isCanonical16, isCanonical32, isCanonical64,
      maxLeb128_eq] <;> omega

/-! ## The encoding loop -/

/-- One round of the constructor's loop, on byte values. -/
theorem encodeFrom_succ (fuel n : Nat) :
    encodeFrom (fuel + 1) n =
      if 0 < n / 128 then UInt8.ofNat (n % 128 + 128) :: encodeFrom fuel (n / 128)
      else [UInt8.ofNat (n % 128)] := by
  have h1 : (n &&& 0x7f).toUInt8 ||| 0x80 = UInt8.ofNat (n % 128 + 128) := by
    apply UInt8.toNat_inj.mp
    rw [toNat_payload_or, toNat_ofNat_byte (by omega)]
  have h2 : (n &&& 0x7f).toUInt8 = UInt8.ofNat (n % 128) := by
    apply UInt8.toNat_inj.mp
    rw [toNat_payload, toNat_ofNat_byte (by omega)]
  show (if n >>> 7 > 0 then ((n &&& 0x7f).toUInt8 ||| 0x80) :: encodeFrom fuel (n >>> 7)
    else [(n &&& 0x7f).toUInt8]) = _
  rw [h1, h2, shiftRight_seven]

theorem length_encodeFrom_le (fuel n : Nat) : (encodeFrom fuel n).length ≤ fuel := by
  induction fuel generalizing n with
  | zero => simp [encodeFrom]
  | succ fuel ih =>
    rw [encodeFrom_succ]
    split
    · simpa using ih (n / 128)
    · simp

theorem length_encodeFrom_pos (fuel n : Nat) : 0 < (encodeFrom (fuel + 1) n).length := by
  rw [encodeFrom_succ]
  split <;> simp

/-- An encoding of `k + 1 ≥ 2` bytes holds a value of at least `128 ^ k`. -/
theorem pow_le_of_two_le_length (fuel n : Nat) (h : 2 ≤ (encodeFrom fuel n).length) :
    128 ^ ((encodeFrom fuel n).length - 1) ≤ n := by
  induction fuel generalizing n with
  | zero => simp [encodeFrom] at h
  | succ fuel ih =>
    rw [encodeFrom_succ] at h ⊢
    split at h
    · rename_i hmore
      rw [if_pos hmore, List.length_cons, Nat.add_sub_cancel]
      simp only [List.length_cons] at h
      by_cases h2 : 2 ≤ (encodeFrom fuel (n / 128)).length
      · -- the rest needs all its bytes too: one more byte is a factor of 128
        have hrest := ih (n / 128) h2
        obtain ⟨k, hk⟩ : ∃ k, (encodeFrom fuel (n / 128)).length = k + 1 :=
          ⟨_, (Nat.succ_pred_eq_of_pos (by omega)).symm⟩
        rw [hk, Nat.add_sub_cancel] at hrest
        rw [hk, Nat.pow_succ]
        calc 128 ^ k * 128 ≤ n / 128 * 128 := Nat.mul_le_mul_right _ hrest
          _ ≤ n := Nat.div_mul_le_self n 128
      · have h1 : (encodeFrom fuel (n / 128)).length = 1 := by omega
        rw [h1]
        omega
    · simp at h

/-! ## The decoding loop -/

/-- ORing a payload in above the bits accumulated so far adds it, and the
narrowing to `T` keeps it when the sum fits. -/
theorem accumulate (t : UIntType) {rv shift g : Nat} (hrv : rv < 2 ^ shift)
    (hfit : rv + g * 2 ^ shift < 2 ^ t.bits) :
    (rv ||| ((g <<< shift) % 2 ^ 64)) % 2 ^ t.bits = rv + g * 2 ^ shift := by
  have h64 : 2 ^ t.bits ≤ 2 ^ 64 := Nat.pow_le_pow_right (by decide) (bits_le_64 t)
  have hor : rv ||| g * 2 ^ shift = rv + g * 2 ^ shift := by
    rw [Nat.or_comm, Nat.mul_comm, ← Nat.two_pow_add_eq_or_of_lt hrv]
    omega
  have hg : g * 2 ^ shift % 2 ^ 64 = g * 2 ^ shift := Nat.mod_eq_of_lt (by omega)
  rw [Nat.shiftLeft_eq, hg, hor, Nat.mod_eq_of_lt hfit]

/-- A stop byte ends the decoding loop with its payload added. -/
theorem decodeFrom_stop (t : UIntType) {m rv shift : Nat} (budget : Nat) (s : List UInt8)
    (hm : m < 128) (hrv : rv < 2 ^ shift) (hfit : rv + m * 2 ^ shift < 2 ^ t.bits) :
    decodeFrom t (budget + 1) (UInt8.ofNat m :: s) rv shift =
      some (rv + m * 2 ^ shift, s) := by
  have hb := toNat_ofNat_byte (show m < 256 by omega)
  have hstop : UInt8.ofNat m &&& 0x80 = 0 := by
    rw [and_0x80_eq_zero_iff, hb]
    exact hm
  simp only [decodeFrom, hstop, if_true, toNat_and_0x7f, hb, Nat.mod_eq_of_lt hm]
  rw [accumulate t hrv hfit]

/-- A continuation byte adds its payload and moves the shift on by seven. -/
theorem decodeFrom_continue (t : UIntType) {g rv shift : Nat} (budget : Nat)
    (s : List UInt8) (hg : g < 128) (hrv : rv < 2 ^ shift)
    (hfit : rv + g * 2 ^ shift < 2 ^ t.bits) :
    decodeFrom t (budget + 1) (UInt8.ofNat (g + 128) :: s) rv shift =
      decodeFrom t budget s (rv + g * 2 ^ shift) (shift + 7) := by
  have hb := toNat_ofNat_byte (show g + 128 < 256 by omega)
  have hcont : ¬ (UInt8.ofNat (g + 128) &&& 0x80 = 0) := by
    rw [and_0x80_eq_zero_iff, hb]
    omega
  have hpay : (g + 128) % 128 = g := by omega
  simp only [decodeFrom, hcont, if_false, toNat_and_0x7f, hb, hpay]
  rw [accumulate t hrv hfit]

/-- The decoding loop reads back what the encoding loop wrote, whatever follows,
as long as the value fits `T`. The induction is on the encoder's fuel, with the
invariant that `rv` holds the payloads below `shift`. -/
theorem decodeFrom_encodeFrom (t : UIntType) (s : List UInt8) (fuel : Nat) :
    ∀ (m rv shift budget : Nat), m < 128 ^ (fuel + 1) →
      (encodeFrom (fuel + 1) m).length ≤ budget → rv < 2 ^ shift →
      rv + m * 2 ^ shift < 2 ^ t.bits →
      decodeFrom t budget (encodeFrom (fuel + 1) m ++ s) rv shift =
        some (rv + m * 2 ^ shift, s) := by
  induction fuel with
  | zero =>
    intro m rv shift budget hm hlen hrv hfit
    have hm' : m < 128 := by simpa using hm
    rw [encodeFrom_succ, if_neg (by omega)] at hlen ⊢
    obtain ⟨budget, rfl⟩ : ∃ b, budget = b + 1 := ⟨budget - 1, by simp at hlen; omega⟩
    rw [Nat.mod_eq_of_lt hm', List.cons_append, List.nil_append]
    exact decodeFrom_stop t budget s hm' hrv hfit
  | succ fuel ih =>
    intro m rv shift budget hm hlen hrv hfit
    rw [encodeFrom_succ] at hlen ⊢
    obtain ⟨budget, rfl⟩ : ∃ b, budget = b + 1 :=
      ⟨budget - 1, by split at hlen <;> simp at hlen <;> omega⟩
    by_cases hmore : 0 < m / 128
    · -- a continuation byte, then the encoding of `m / 128` at the next shift
      rw [if_pos hmore] at hlen ⊢
      have hP : 2 ^ (shift + 7) = 2 ^ shift * 128 := by rw [Nat.pow_add]
      have hsplit : m * 2 ^ shift = m % 128 * 2 ^ shift + m / 128 * 2 ^ (shift + 7) := by
        have := Nat.mod_add_div m 128
        rw [hP]
        calc m * 2 ^ shift = (m % 128 + 128 * (m / 128)) * 2 ^ shift := by rw [this]
          _ = m % 128 * 2 ^ shift + m / 128 * (2 ^ shift * 128) := by ring
      have hlow : m % 128 * 2 ^ shift ≤ 127 * 2 ^ shift :=
        Nat.mul_le_mul_right _ (by omega)
      rw [List.cons_append, decodeFrom_continue t budget _ (Nat.mod_lt _ (by decide)) hrv
        (by omega)]
      rw [ih (m / 128) _ (shift + 7) budget (by rw [Nat.pow_succ] at hm; omega)
        (by simp at hlen; omega) (by omega) (by omega), hsplit, Nat.add_assoc]
    · rw [if_neg hmore] at hlen ⊢
      have hm' : m < 128 := by omega
      rw [Nat.mod_eq_of_lt hm', List.cons_append, List.nil_append]
      exact decodeFrom_stop t budget s hm' hrv hfit

/-! ## Round trips -/

/-- `decode(encode(v) ++ s, NoThrow) = (v, s)` for every value `v` of `T`. -/
theorem decodeNoThrow_encode (t : UIntType) (v : Fin (2 ^ t.bits)) (s : List UInt8) :
    decodeNoThrow t (encode t v ++ s) = some (v.val, s) := by
  obtain ⟨k, hk⟩ : ∃ k, getMaxSize t = k + 2 :=
    ⟨getMaxSize t - 2, by have := two_le_getMaxSize t; omega⟩
  have hv := v.isLt
  have hcap := two_pow_bits_le t
  rw [encode, hk, encodeFrom_succ]
  by_cases hmore : 0 < v.val / 128
  · -- the first byte continues: the rest is the encoding of `v / 128` at shift 7
    rw [if_pos hmore, List.cons_append]
    have hb := toNat_ofNat_byte (show v.val % 128 + 128 < 256 by omega)
    have hcont : UInt8.ofNat (v.val % 128 + 128) &&& 0x80 = 0x80 := by
      rw [and_0x80_eq_0x80_iff, hb]
      omega
    have hlen := length_encodeFrom_le (k + 1) (v.val / 128)
    have hhigh : v.val / 128 < 128 ^ (k + 1) := by
      rw [hk, Nat.pow_succ] at hcap
      omega
    simp only [decodeNoThrow, hcont, if_true, toNat_and_0x7f, hb, List.length_append, hk]
    rw [decodeFrom_encodeFrom t s k (v.val / 128) _ 7 _ hhigh (by omega) (by omega)
      (by omega)]
    congr
    omega
  · rw [if_neg hmore, List.cons_append, List.nil_append]
    have hb := toNat_ofNat_byte (show v.val % 128 < 256 by omega)
    have hstop : ¬ (UInt8.ofNat (v.val % 128) &&& 0x80 = 0x80) := by
      rw [and_0x80_eq_0x80_iff, hb]
      omega
    simp only [decodeNoThrow, hstop, if_false, toNat_and_0x7f, hb]
    congr 2
    omega

/-- The throwing `decode` returns the value of every encoding. -/
theorem decode_encode (t : UIntType) (v : Fin (2 ^ t.bits)) (s : List UInt8) :
    decode t (encode t v ++ s) = .ok (v.val, s) := by
  have hpos : (encode t v ++ s).length > 0 := by
    obtain ⟨k, hk⟩ : ∃ k, getMaxSize t = k + 1 :=
      ⟨getMaxSize t - 1, by have := two_le_getMaxSize t; omega⟩
    have := length_encodeFrom_pos k v.val
    rw [List.length_append, encode, hk]
    omega
  simp only [decode, if_pos hpos, decodeNoThrow_encode]

/-- Every encoding the constructor writes is canonical, so `decodeCanonical`
accepts it back. -/
theorem decodeCanonical_encode (t : UIntType) (v : Fin (2 ^ t.bits)) (s : List UInt8) :
    decodeCanonical t (encode t v ++ s) = some (v.val, s) := by
  obtain ⟨k, hk⟩ : ∃ k, getMaxSize t = k + 1 :=
    ⟨getMaxSize t - 1, by have := two_le_getMaxSize t; omega⟩
  have hcanon : isCanonical t v ((encode t v ++ s).length - s.length) = true := by
    rw [List.length_append, Nat.add_sub_cancel]
    apply isCanonical_of_pow_le
    · rw [encode, hk]
      exact length_encodeFrom_pos k v.val
    · exact length_encodeFrom_le _ _
    · exact pow_le_of_two_le_length _ _
  simp only [decodeCanonical, decodeNoThrow_encode, if_pos hcanon]

/-! ## What the decoders accept -/

/-- The payloads of a byte string, lowest first, as one number. -/
def digitsValue : List UInt8 → Nat
  | [] => 0
  | b :: rest => b.toNat % 128 + 128 * digitsValue rest

/-- A run of continuation bytes closed by a stop byte. -/
inductive IsEncoding : List UInt8 → Prop
  | stop {b : UInt8} : b.toNat < 128 → IsEncoding [b]
  | cont {b : UInt8} {rest : List UInt8} : 128 ≤ b.toNat → IsEncoding rest → IsEncoding (b :: rest)

/-- One turn of the decoding loop adds the byte's payload at `shift`, below
the narrowing to `T`. -/
theorem step_value (t : UIntType) (b : UInt8) {rv shift : Nat} (hrv : rv < 2 ^ shift) (hroom : shift + 7 ≤ 64) :
    (rv ||| (((b &&& 0x7f).toNat <<< shift) % 2 ^ 64)) % 2 ^ t.bits = (rv + 2 ^ shift * (b.toNat % 128)) % 2 ^ t.bits := by
  have hg : b.toNat % 128 * 2 ^ shift < 2 ^ 64 := by
    calc b.toNat % 128 * 2 ^ shift < 2 ^ 7 * 2 ^ shift :=
          Nat.mul_lt_mul_of_pos_right (by omega) (Nat.two_pow_pos _)
      _ = 2 ^ (7 + shift) := (Nat.pow_add 2 7 shift).symm
      _ ≤ 2 ^ 64 := Nat.pow_le_pow_right (by decide) (by omega)
  have hor : rv ||| b.toNat % 128 * 2 ^ shift = rv + b.toNat % 128 * 2 ^ shift := by
    rw [Nat.or_comm, Nat.mul_comm, ← Nat.two_pow_add_eq_or_of_lt hrv]
    omega
  rw [toNat_and_0x7f, Nat.shiftLeft_eq, Nat.mod_eq_of_lt hg, hor, Nat.mul_comm (b.toNat % 128)]

/-- A run of the decoding loop that stops read a continuation run closed by a
stop byte, within its budget, and its value is the payloads added at `shift`,
narrowed to `T`. The recursion is the loop's. -/
theorem decodeFrom_eq_some (t : UIntType) :
    ∀ (budget : Nat) (l : List UInt8) (rv shift v : Nat) (rest : List UInt8),
      decodeFrom t budget l rv shift = some (v, rest) → rv < 2 ^ shift → shift + 7 * budget ≤ 64 →
      ∃ pre, l = pre ++ rest ∧ IsEncoding pre ∧ pre.length ≤ budget ∧
        v = (rv + 2 ^ shift * digitsValue pre) % 2 ^ t.bits
  | 0, _, _, _, _, _, h, _, _ => by simp [decodeFrom] at h
  | _ + 1, [], _, _, _, _, h, _, _ => by simp [decodeFrom] at h
  | budget + 1, b :: l, rv, shift, v, rest, h, hrv, hroom => by
    have hstep := step_value t b hrv (by omega)
    simp only [decodeFrom] at h
    split at h
    · -- a stop byte ends the run
      rename_i hstop
      cases h
      refine ⟨[b], rfl, .stop ((and_0x80_eq_zero_iff b).mp hstop), by simp, ?_⟩
      rw [hstep]
      simp [digitsValue]
    · -- a continuation byte: the rest of the run is read at the next shift
      rename_i hcont
      have hnext : (rv + 2 ^ shift * (b.toNat % 128)) % 2 ^ t.bits < 2 ^ (shift + 7) := by
        have := Nat.mod_le (rv + 2 ^ shift * (b.toNat % 128)) (2 ^ t.bits)
        have hP : 2 ^ (shift + 7) = 2 ^ shift * 128 := Nat.pow_add 2 shift 7
        have : 2 ^ shift * (b.toNat % 128) ≤ 2 ^ shift * 127 := Nat.mul_le_mul_left _ (by omega)
        omega
      rw [hstep] at h
      obtain ⟨pre, rfl, hpre, hlen, hv⟩ := decodeFrom_eq_some t budget l _ (shift + 7) v rest h hnext (by omega)
      refine ⟨b :: pre, rfl, .cont (by have := (and_0x80_eq_zero_iff b).not.mp hcont; omega) hpre,
        by simp [hlen], ?_⟩
      rw [hv, Nat.mod_add_mod, digitsValue, Nat.pow_add]
      congr 1
      ring

/-- `decode(buf, NoThrow)` of a `T` whose encodings fit in 64 bits of shifts
succeeds on a continuation run closed by a stop byte, of at most
`getMaxSize T` bytes, and returns its payloads narrowed to `T`. -/
theorem decodeNoThrow_eq_some (t : UIntType) (hroom : 7 * getMaxSize t ≤ 64) {buf rest : List UInt8} {v : Nat}
    (h : decodeNoThrow t buf = some (v, rest)) :
    ∃ pre, buf = pre ++ rest ∧ IsEncoding pre ∧ pre.length ≤ getMaxSize t ∧ v = digitsValue pre % 2 ^ t.bits := by
  have h8 : 2 ^ 8 ≤ 2 ^ t.bits := Nat.pow_le_pow_right (by decide) (by cases t <;> decide)
  cases buf with
  | nil => simp [decodeNoThrow] at h
  | cons b l =>
    simp only [decodeNoThrow] at h
    split at h
    · -- the first byte continues
      rename_i hcont
      obtain ⟨pre, rfl, hpre, hlen, hv⟩ := decodeFrom_eq_some t _ l _ 7 v rest h
        (by rw [toNat_and_0x7f]; omega) (by omega)
      have hlen' : (b :: pre).length ≤ getMaxSize t := by
        have := two_le_getMaxSize t
        simp only [List.length_cons]
        omega
      refine ⟨b :: pre, rfl, .cont ((and_0x80_eq_0x80_iff b).mp hcont) hpre, hlen', ?_⟩
      rw [hv, toNat_and_0x7f, digitsValue]
      congr 1
    · rename_i hstop
      cases h
      have hb : b.toNat < 128 := by
        have := (and_0x80_eq_0x80_iff b).not.mp hstop
        omega
      refine ⟨[b], rfl, .stop hb, by have := two_le_getMaxSize t; simp; omega, ?_⟩
      rw [toNat_and_0x7f, digitsValue, digitsValue, Nat.mul_zero, Nat.add_zero, Nat.mod_eq_of_lt (by omega),
        Nat.mod_eq_of_lt (by omega)]

/-- The encoding loop writes back a run whose last payload is not a
superfluous zero. The induction is on the run. -/
theorem encodeFrom_digitsValue {pre : List UInt8} (hpre : IsEncoding pre) :
    ∀ fuel, pre.length ≤ fuel → (2 ≤ pre.length → 128 ^ (pre.length - 1) ≤ digitsValue pre) →
      encodeFrom fuel (digitsValue pre) = pre := by
  induction hpre with
  | stop hb =>
    rename_i b
    intro fuel hlen _
    obtain ⟨fuel, rfl⟩ : ∃ f, fuel = f + 1 := ⟨fuel - 1, by simp at hlen; omega⟩
    rw [encodeFrom_succ, digitsValue, digitsValue, if_neg (by omega)]
    congr 1
    apply UInt8.toNat_inj.mp
    rw [toNat_ofNat_byte (by omega)]
    omega
  | cont hb hrest ih =>
    rename_i b rest
    intro fuel hlen hcanon
    obtain ⟨fuel, rfl⟩ : ∃ f, fuel = f + 1 := ⟨fuel - 1, by simp at hlen; omega⟩
    have hne : rest ≠ [] := by cases hrest <;> simp
    have hlen' : 1 ≤ rest.length := List.length_pos_iff.mpr hne
    -- the run is long, so its value is at least `128 ^ rest.length`
    have hlow := hcanon (by simp; omega)
    simp only [List.length_cons, Nat.add_sub_cancel, digitsValue] at hlow
    obtain ⟨k, hk⟩ : ∃ k, rest.length = k + 1 := ⟨rest.length - 1, by omega⟩
    rw [hk, Nat.pow_succ] at hlow
    have hk1 : 1 ≤ 128 ^ k := Nat.one_le_pow _ _ (by decide)
    have hb256 := b.toNat_lt
    have hdiv : (b.toNat % 128 + 128 * digitsValue rest) / 128 = digitsValue rest := by omega
    have hmod : (b.toNat % 128 + 128 * digitsValue rest) % 128 = b.toNat % 128 := by omega
    rw [encodeFrom_succ, digitsValue, hdiv, hmod, if_pos (by omega)]
    congr 1
    · apply UInt8.toNat_inj.mp
      rw [toNat_ofNat_byte (by omega)]
      omega
    · refine ih fuel (by simp at hlen; omega) fun _ => ?_
      rw [hk, Nat.add_sub_cancel]
      omega

/-- `is_canonical` of a length `L ≥ 2` within `getMaxSize T` asks for a value
that needs all `L` bytes. -/
theorem pow_le_of_isCanonical (t : UIntType) {v L : Nat} (h : isCanonical t v L = true) (h2 : 2 ≤ L)
    (hL : L ≤ getMaxSize t) : 128 ^ (L - 1) ≤ v := by
  cases t <;> simp only [getMaxSize, byteSize, Nat.reduceAdd, Nat.reduceDiv] at hL <;>
    interval_cases L <;>
    simp_all [isCanonical, isCanonical8, isCanonical16, isCanonical32, isCanonical64, maxLeb128_eq] <;> omega

/-- What `decodeCanonical` accepts: a prefix whose payloads, narrowed to `T`,
are the value, and which is the encoding of the value whenever its payloads
fit `T`. Only a last byte with bits above the width of `T` gives a prefix
that is not the encoding. -/
theorem decodeCanonical_eq_some (t : UIntType) (hroom : 7 * getMaxSize t ≤ 64) {buf rest : List UInt8}
    {v : Nat} (h : decodeCanonical t buf = some (v, rest)) :
    ∃ pre, buf = pre ++ rest ∧ v = digitsValue pre % 2 ^ t.bits ∧
      (digitsValue pre < 2 ^ t.bits → pre = encode t v) := by
  unfold decodeCanonical at h
  split at h
  · rename_i v' rest' hdec
    split_ifs at h with hcanon
    cases h
    obtain ⟨pre, rfl, hpre, hlen, hv⟩ := decodeNoThrow_eq_some t hroom hdec
    refine ⟨pre, rfl, hv, fun hfit => ?_⟩
    rw [hv, Nat.mod_eq_of_lt hfit, encode]
    refine (encodeFrom_digitsValue hpre _ hlen fun h2 => ?_).symm
    rw [List.length_append, Nat.add_sub_cancel, hv, Nat.mod_eq_of_lt hfit] at hcanon
    exact pow_le_of_isCanonical t hcanon h2 hlen
  · cases h

/-- `decodeCanonical` only adds a check to `decode(buf, NoThrow)`, so the
throwing `decode` returns what it accepts. -/
theorem decode_of_decodeCanonical {t : UIntType} {buf : List UInt8} {r : Nat × List UInt8}
    (h : decodeCanonical t buf = some r) : decode t buf = .ok r := by
  unfold decodeCanonical at h
  split at h
  · rename_i v rest hdec
    split_ifs at h
    cases h
    have hne : buf.length > 0 := by
      cases buf with
      | nil => simp [decodeNoThrow] at hdec
      | cons => simp
    simp only [decode, if_pos hne, hdec]
  · cases h

/-- A first byte without the continuation bit is the whole encoding. -/
theorem decodeNoThrow_stop (t : UIntType) {b : UInt8} (hb : b.toNat < 128) (l : List UInt8) :
    decodeNoThrow t (b :: l) = some (b.toNat, l) := by
  have hstop : ¬ b &&& 0x80 = 0x80 := fun h => by
    have := (and_0x80_eq_0x80_iff b).mp h
    omega
  simp only [decodeNoThrow, if_neg hstop, toNat_and_0x7f, Nat.mod_eq_of_lt hb]

/-- The throwing `decode` of a stop byte. -/
theorem decode_stop (t : UIntType) {b : UInt8} (hb : b.toNat < 128) (l : List UInt8) :
    decode t (b :: l) = .ok (b.toNat, l) := by
  simp only [decode, List.length_cons, Nat.lt_add_left_iff_pos, Nat.zero_lt_succ, ↓reduceIte,
    decodeNoThrow_stop t hb]

/-- What `decodeCanonical` accepts from its first byte: a stop byte is the
value, and a continuation byte starts an encoding of at least two bytes, which
`is_canonical` asks to be at least 128. -/
theorem decodeCanonical_cons (t : UIntType) (hroom : 7 * getMaxSize t ≤ 64) {b : UInt8}
    {l rest : List UInt8} {v : Nat} (h : decodeCanonical t (b :: l) = some (v, rest)) :
    (b.toNat < 128 → v = b.toNat ∧ rest = l) ∧ (128 ≤ b.toNat → 128 ≤ v) := by
  unfold decodeCanonical at h
  split at h
  · rename_i v' rest' hdec
    split_ifs at h with hcanon
    cases h
    constructor
    · intro hb
      rw [decodeNoThrow_stop t hb] at hdec
      cases hdec
      exact ⟨rfl, rfl⟩
    · intro hb
      obtain ⟨pre, hbuf, hpre, hlen, _⟩ := decodeNoThrow_eq_some t hroom hdec
      -- a continuation byte is followed by at least one more byte of the run
      have h2 : 2 ≤ pre.length := by
        cases hpre with
        | stop hs =>
          simp only [List.singleton_append, List.cons.injEq] at hbuf
          rw [← hbuf.1] at hs
          omega
        | cont _ hrest => cases hrest <;> simp
      have hL : (b :: l).length - rest.length = pre.length := by
        rw [hbuf, List.length_append]
        omega
      rw [hL] at hcanon
      calc 128 = 128 ^ 1 := rfl
        _ ≤ 128 ^ (pre.length - 1) := Nat.pow_le_pow_right (by decide) (by omega)
        _ ≤ v := pow_le_of_isCanonical t hcanon h2 hlen
  · cases h

/-- The code bug: the fifth byte of a `uint32_t` encoding is shifted by 28, so
only its low four bits reach the value. The stop byte `0x11` sets bit 32 as
well, which the narrowing to `uint32_t` drops, and `is_canonical` only sees the
value `2^28 > MAX_LEB128(4)`. The bytes are accepted as a canonical encoding of
`2^28`, whose real encoding ends in `0x01`. -/
theorem decodeCanonical_accepts_overlong_uint32 :
    decodeCanonical .uint32 [0x80, 0x80, 0x80, 0x80, 0x11] = some (2 ^ 28, []) ∧
      [0x80, 0x80, 0x80, 0x80, 0x11] ≠ encode .uint32 (2 ^ 28) ++ [] := by
  decide

end UnsignedLeb128

end KvEngine.Mcbp
