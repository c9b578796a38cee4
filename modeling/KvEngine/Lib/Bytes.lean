import Mathlib

/-!
# Byte buffers

A buffer is a list of bytes. This module gives the three things the C++ code
does with raw buffers: 32-bit words in network byte order, copying a range of
bytes over a buffer in place, and NUL-terminated strings.

- `ByteList.be32`, `ByteList.readBe32`: `htonl` and `ntohl` of a word stored
  at an offset; `readBe32_append` reads back what `be32` wrote. `be16` and
  `readBe16` are `htons` and `ntohs`.
- `ByteList.writeAt l off bs`: `l` with `bs` copied over it from `off`
  (`std::copy` into a buffer, or a store through a pointer), and
  `ByteList.memmove`. `writeAt_append` is the case where the range lines up
  with the pieces of `l`; `take_writeAt` and `take_memmove` say what a write
  does to a prefix of the buffer.
- `ByteList.cstr l`: the bytes up to the first NUL (`strlen`).
- `ByteList.findFrom p l pos`, `ByteList.replace`: `find`, `find_first_of`
  and `replace` of `std::string`. `findFrom` is pinned down by three lemmas:
  it stops at an element that passes (`findFrom_of_pass`), steps over one that
  does not (`findFrom_of_fail`), and finds nothing past the end
  (`findFrom_of_length_le`).
-/

namespace ByteList

/-! ### Words in network byte order -/

/-- `htonl(v)`: the four bytes of `v`, most significant first. -/
def be32 (v : UInt32) : List UInt8 :=
  [UInt8.ofNat (v.toNat / 2 ^ 24), UInt8.ofNat (v.toNat / 2 ^ 16),
    UInt8.ofNat (v.toNat / 2 ^ 8), UInt8.ofNat v.toNat]

/-- `ntohl` of the word at `off`; a byte past the end reads as `0`. -/
def readBe32 (l : List UInt8) (off : Nat) : UInt32 :=
  UInt32.ofNat ((l[off]?.getD 0).toNat * 2 ^ 24 + (l[off + 1]?.getD 0).toNat * 2 ^ 16 +
    (l[off + 2]?.getD 0).toNat * 2 ^ 8 + (l[off + 3]?.getD 0).toNat)

@[simp] theorem length_be32 (v : UInt32) : (be32 v).length = 4 := rfl

theorem readBe32_be32 (v : UInt32) (rest : List UInt8) : readBe32 (be32 v ++ rest) 0 = v := by
  have hv := v.toNat_lt
  -- the four digits in base 256 put back together
  have hdigits : (v.toNat / 2 ^ 24 % 2 ^ 8) * 2 ^ 24 + (v.toNat / 2 ^ 16 % 2 ^ 8) * 2 ^ 16 +
      (v.toNat / 2 ^ 8 % 2 ^ 8) * 2 ^ 8 + v.toNat % 2 ^ 8 = v.toNat := by omega
  simp only [readBe32, be32, List.cons_append, List.getElem?_cons_zero,
    List.getElem?_cons_succ, Option.getD_some, UInt8.toNat_ofNat']
  rw [hdigits, UInt32.ofNat_toNat]

/-- `htons(v)`: the two bytes of `v`, most significant first. -/
def be16 (v : UInt16) : List UInt8 :=
  [UInt8.ofNat (v.toNat / 2 ^ 8), UInt8.ofNat v.toNat]

/-- `ntohs` of the half-word at `off`; a byte past the end reads as `0`. -/
def readBe16 (l : List UInt8) (off : Nat) : UInt16 :=
  UInt16.ofNat ((l[off]?.getD 0).toNat * 2 ^ 8 + (l[off + 1]?.getD 0).toNat)

@[simp] theorem length_be16 (v : UInt16) : (be16 v).length = 2 := rfl

theorem readBe16_be16 (v : UInt16) (rest : List UInt8) : readBe16 (be16 v ++ rest) 0 = v := by
  have hv := v.toNat_lt
  have hdigits : (v.toNat / 2 ^ 8 % 2 ^ 8) * 2 ^ 8 + v.toNat % 2 ^ 8 = v.toNat := by omega
  simp only [readBe16, be16, List.cons_append, List.getElem?_cons_zero,
    List.getElem?_cons_succ, Option.getD_some, UInt8.toNat_ofNat']
  rw [hdigits, UInt16.ofNat_toNat]

theorem getElem?_append_add {α : Type*} (pre l : List α) (i : Nat) :
    (pre ++ l)[pre.length + i]? = l[i]? := by
  rw [List.getElem?_append_right (Nat.le_add_right _ _), Nat.add_sub_cancel_left]

/-- A half-word is read the same with bytes put in front of the buffer. -/
theorem readBe16_append_left (pre l : List UInt8) (off : Nat) :
    readBe16 (pre ++ l) (pre.length + off) = readBe16 l off := by
  simp only [readBe16, Nat.add_assoc, getElem?_append_add]

/-- A word is read the same with bytes put in front of the buffer. -/
theorem readBe32_append_left (pre l : List UInt8) (off : Nat) :
    readBe32 (pre ++ l) (pre.length + off) = readBe32 l off := by
  simp only [readBe32, Nat.add_assoc, getElem?_append_add]

/-- A word inside the first `n` bytes is read the same from them. -/
theorem readBe32_take {l : List UInt8} {off n : Nat} (h : off + 4 ≤ n) :
    readBe32 (l.take n) off = readBe32 l off := by
  simp only [readBe32, List.getElem?_take, if_pos (show off < n by omega),
    if_pos (show off + 1 < n by omega), if_pos (show off + 2 < n by omega),
    if_pos (show off + 3 < n by omega)]

theorem readBe32_append (pre rest : List UInt8) (v : UInt32) :
    readBe32 (pre ++ be32 v ++ rest) pre.length = v := by
  rw [List.append_assoc, ← Nat.add_zero pre.length, readBe32_append_left, readBe32_be32]

/-- Writing back the word read at `off` gives the four bytes there. -/
theorem be32_readBe32 {l : List UInt8} {off : Nat} (h : off + 4 ≤ l.length) :
    be32 (readBe32 l off) = (l.drop off).take 4 := by
  obtain ⟨a, b, c, d, rest, hl⟩ : ∃ a b c d rest, l.drop off = a :: b :: c :: d :: rest := by
    match hd : l.drop off with
    | a :: b :: c :: d :: rest => exact ⟨a, b, c, d, rest, rfl⟩
    | [] | [_] | [_, _] | [_, _, _] =>
      have := congrArg List.length hd
      simp only [List.length_drop, List.length_nil, List.length_cons] at this
      omega
  have hoff : (l.take off).length = off := List.length_take_of_le (by omega)
  have hread : readBe32 l off = readBe32 (l.drop off) 0 := by
    have h := readBe32_append_left (l.take off) (l.drop off) 0
    rwa [List.take_append_drop, hoff, Nat.add_zero] at h
  have ha := a.toNat_lt
  have hb := b.toNat_lt
  have hc := c.toNat_lt
  have hd := d.toNat_lt
  rw [hread, hl]
  simp only [readBe32, be32, List.getElem?_cons_zero, List.getElem?_cons_succ, Option.getD_some,
    List.take_succ_cons, List.take_zero, UInt32.toNat_ofNat', List.cons.injEq]
  refine ⟨?_, ?_, ?_, ?_, trivial⟩ <;> apply UInt8.toNat_inj.mp <;>
    simp only [UInt8.toNat_ofNat'] <;> omega

/-! ### Writing over a range -/

section Write

variable {α : Type*}

/-- `l` with `bs` copied over it from `off`. -/
def writeAt (l : List α) (off : Nat) (bs : List α) : List α :=
  l.take off ++ bs ++ l.drop (off + bs.length)

/-- `memmove(l + dst, l + src, n)`: the `n` bytes at `src` copied to `dst`, as
if through a temporary buffer. -/
def memmove (l : List α) (dst src n : Nat) : List α :=
  writeAt l dst ((l.drop src).take n)

theorem writeAt_append (pre old post bs : List α) (h : old.length = bs.length) :
    writeAt (pre ++ old ++ post) pre.length bs = pre ++ bs ++ post := by
  simp [writeAt, List.drop_append, h, List.drop_left']

theorem le_length_writeAt (l : List α) (off : Nat) (bs : List α) :
    l.length ≤ (writeAt l off bs).length := by
  simp only [writeAt, List.length_append, List.length_take, List.length_drop]
  omega

theorem length_writeAt {l : List α} {off : Nat} {bs : List α} (h : off + bs.length ≤ l.length) :
    (writeAt l off bs).length = l.length := by
  simp only [writeAt, List.length_append, List.length_take, List.length_drop]
  omega

theorem writeAt_append_of_le {l : List α} {off : Nat} {bs : List α} (h : off + bs.length ≤ l.length)
    (t : List α) : writeAt (l ++ t) off bs = writeAt l off bs ++ t := by
  simp only [writeAt, List.take_append_of_le_length (by omega : off ≤ l.length),
    List.drop_append_of_le_length h, List.append_assoc]

/-- A write inside the first `n` elements only touches those. -/
theorem take_writeAt {l : List α} {off n : Nat} {bs : List α} (h : off + bs.length ≤ n) :
    (writeAt l off bs).take n = writeAt (l.take n) off bs := by
  rcases Nat.lt_or_ge l.length n with hn | hn
  · -- `l` is shorter than `n`: so is the written list
    rw [List.take_of_length_le (Nat.le_of_lt hn), List.take_of_length_le]
    simp only [writeAt, List.length_append, List.length_take, List.length_drop]
    omega
  · -- split `l` at `n`: the write stays in the first part
    have hlen : (l.take n).length = n := List.length_take_of_le hn
    have hin : off + bs.length ≤ (l.take n).length := by rw [hlen]; exact h
    conv_lhs => rw [← List.take_append_drop n l]
    rw [writeAt_append_of_le hin, List.take_left' (by rw [length_writeAt hin, hlen])]

/-- Closing a gap of `s` elements at `o` in the first `n`: what `memmove`
leaves in front once the tail is cut off. -/
theorem take_memmove {l : List α} {o s n : Nat} (h : o + s ≤ n) (hn : n ≤ l.length) :
    (memmove l o (o + s) (n - o - s)).take (n - s) = l.take o ++ (l.take n).drop (o + s) := by
  have hmoved : (l.drop (o + s)).take (n - o - s) = (l.take n).drop (o + s) := by
    rw [List.drop_take, Nat.sub_sub]
  have hlen : ((l.drop (o + s)).take (n - o - s)).length = n - o - s := by
    simp only [List.length_take, List.length_drop]
    omega
  have htail : (l.take (n - s)).drop (o + (n - o - s)) = [] :=
    List.drop_eq_nil_of_le (by simp only [List.length_take]; omega)
  rw [memmove, take_writeAt (by omega), writeAt, hlen, hmoved, List.take_take,
    Nat.min_eq_left (by omega), htail, List.append_nil]

end Write

/-! ### NUL-terminated strings -/

/-- `strlen`: the bytes before the first NUL. -/
def cstr (l : List UInt8) : List UInt8 := l.takeWhile (· ≠ 0)

theorem cstr_append_zero {s : List UInt8} (h : 0 ∉ s) (rest : List UInt8) :
    cstr (s ++ 0 :: rest) = s := by
  have hpos : ∀ a ∈ s, decide (a ≠ 0) = true := by
    intro a ha
    rw [decide_eq_true_eq]
    rintro rfl
    exact h ha
  rw [cstr, List.takeWhile_append_of_pos hpos]
  simp

/-! ### Searching and replacing -/

section Search

variable {α : Type*}

/-- `s.find(c, pos)` and `s.find_first_of(chars, pos)`, for the elements that
pass `p`: the first index at or after `pos`; `none` is `npos`. -/
def findFrom (p : α → Bool) : List α → Nat → Option Nat
  | [], _ => none
  | b :: s, 0 => if p b then some 0 else (findFrom p s 0).map (· + 1)
  | _ :: s, pos + 1 => (findFrom p s pos).map (· + 1)

/-- `s.replace(pos, count, r)`. -/
def replace (s : List α) (pos count : Nat) (r : List α) : List α :=
  s.take pos ++ r ++ s.drop (pos + count)

variable {p : α → Bool}

theorem findFrom_of_length_le {l : List α} {pos : Nat} (h : l.length ≤ pos) : findFrom p l pos = none := by
  induction l generalizing pos with
  | nil => cases pos <;> rfl
  | cons b l ih =>
    cases pos with
    | zero => simp at h
    | succ pos =>
      simp only [List.length_cons, Nat.add_le_add_iff_right] at h
      simp [findFrom, ih h]

theorem findFrom_of_pass {l : List α} {pos : Nat} {b : α} (hb : l[pos]? = some b) (hp : p b = true) :
    findFrom p l pos = some pos := by
  induction l generalizing pos with
  | nil => simp at hb
  | cons c l ih =>
    cases pos with
    | zero =>
      simp only [List.getElem?_cons_zero, Option.some.injEq] at hb
      subst hb
      simp [findFrom, hp]
    | succ pos =>
      simp only [List.getElem?_cons_succ] at hb
      simp [findFrom, ih hb]

theorem findFrom_of_fail {l : List α} {pos : Nat} {b : α} (hb : l[pos]? = some b) (hp : p b = false) :
    findFrom p l pos = findFrom p l (pos + 1) := by
  induction l generalizing pos with
  | nil => simp at hb
  | cons c l ih =>
    cases pos with
    | zero =>
      simp only [List.getElem?_cons_zero, Option.some.injEq] at hb
      subst hb
      simp [findFrom, hp]
    | succ pos =>
      simp only [List.getElem?_cons_succ] at hb
      simp [findFrom, ih hb]

/-- The search steps over a piece of elements that all fail. -/
theorem findFrom_append_of_fail (pre w rest : List α) (hw : ∀ b ∈ w, p b = false) :
    findFrom p (pre ++ w ++ rest) pre.length = findFrom p (pre ++ w ++ rest) (pre ++ w).length := by
  induction w generalizing pre with
  | nil => simp
  | cons b w ih =>
    have hb : (pre ++ b :: w ++ rest)[pre.length]? = some b := by simp
    rw [findFrom_of_fail hb (hw b (List.mem_cons_self ..))]
    have h := ih (pre ++ [b]) (fun c hc => hw c (List.mem_cons_of_mem b hc))
    simp only [List.append_assoc, List.cons_append, List.nil_append, List.length_append,
      List.length_cons, List.length_nil, Nat.zero_add] at h ⊢
    rw [h]

/-- The search from `pre.length` finds nothing when every element after `pre`
fails. -/
theorem findFrom_append_of_all_fail (pre w : List α) (hw : ∀ b ∈ w, p b = false) :
    findFrom p (pre ++ w) pre.length = none := by
  have h := findFrom_append_of_fail pre w [] hw
  rw [List.append_nil] at h
  rw [h]
  exact findFrom_of_length_le (Nat.le_refl _)

/-- The search from `pre.length` stops at the first element after `pre` that
passes. -/
theorem findFrom_append_of_first (pre w rest : List α) {x : α} (hw : ∀ b ∈ w, p b = false)
    (hx : p x = true) : findFrom p (pre ++ w ++ x :: rest) pre.length = some (pre ++ w).length := by
  rw [findFrom_append_of_fail pre w (x :: rest) hw]
  exact findFrom_of_pass (by simp) hx

/-- Replacing the middle piece of a list. -/
theorem replace_append (pre mid rest r : List α) :
    replace (pre ++ mid ++ rest) pre.length mid.length r = pre ++ r ++ rest := by
  simp [replace, List.append_assoc, List.drop_append]

end Search

end ByteList
