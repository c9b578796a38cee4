import Mathlib

/-!
# Extended attribute keys

`is_valid_xattr_key(path, key_length)` walks the key one UTF-8 character at
a time (`get_utf8_char_width`), refuses a leading punctuation or control
character other than `_` and `$`, refuses a NUL, and measures the key up to
its first `.` or `[`, which must be between one and fifteen bytes (two for a
system key).

- `getUtf8CharWidth`: the width of the character at the front of the bytes
  available, or `none` where the C++ throws `encoding_error`.
- `isValidXattrKey`: the key length when the key is valid.
- `ne_nil_of_isValidXattrKey`, `zero_not_mem_of_isValidXattrKey`: a valid key
  is not empty and has no NUL, so it can be stored NUL-terminated.
-/

namespace KvEngine.Xattr

/-- `SUBDOC_MAX_XATTR_LENGTH`. -/
def SUBDOC_MAX_XATTR_LENGTH : Nat := 16

/-- `std::ispunct` in the C locale. -/
def isPunct (c : UInt8) : Bool :=
  (0x21 ≤ c && c ≤ 0x2F) || (0x3A ≤ c && c ≤ 0x40) || (0x5B ≤ c && c ≤ 0x60) ||
    (0x7B ≤ c && c ≤ 0x7E)

/-- `std::iscntrl` in the C locale. -/
def isCntrl (c : UInt8) : Bool := c ≤ 0x1F || c = 0x7F

/-- `get_utf8_char_width(ptr, avail)`, with `bytes` the `avail` bytes from
`ptr`; `none` where it throws. -/
def getUtf8CharWidth (bytes : List UInt8) : Option Nat :=
  let b i := bytes.getD i 0
  let tail i := b i &&& 0xC0 = 0x80
  if b 0 < 0x80 then some 1
  else if bytes.length < 2 then none
  else if b 0 &&& 0xE0 = 0xC0 then (if tail 1 then some 2 else none)
  else if bytes.length < 3 then none
  else if b 0 &&& 0xF0 = 0xE0 then (if tail 1 ∧ tail 2 then some 3 else none)
  else if bytes.length < 4 then none
  else if b 0 &&& 0xF8 = 0xF0 ∧ tail 1 ∧ tail 2 ∧ tail 3 then some 4
  else none

/-- The loop of `is_valid_xattr_key` from `offset` on, carrying `dot` and
`system`: `none` where it returns `false`. -/
def keyLoop (path : List UInt8) : Nat → Nat → Nat → Bool → Option (Nat × Bool)
  | 0, _, dot, system => some (dot, system)
  | fuel + 1, offset, dot, system =>
    if offset < path.length then
      match getUtf8CharWidth (path.drop offset) with
      | none => none
      | some width =>
        if width = 1 then
          let c := path.getD offset 0
          -- the first character may only be punctuation if it marks a system
          -- or virtual attribute
          let special := offset = 0 ∧ (isPunct c || isCntrl c)
          if special ∧ ¬ (c = '_'.toUInt8 ∨ c = '$'.toUInt8) then none
          else
            let system := if special then true else system
            let dot := if (c = '.'.toUInt8 ∨ c = '['.toUInt8) ∧ dot = path.length then offset else dot
            if c = 0 then none
            else keyLoop path fuel (offset + width) dot system
        else keyLoop path fuel (offset + width) dot system
    else some (dot, system)

/-- `is_valid_xattr_key(path, key_length)`: the key length when `path` is a
valid key. -/
def isValidXattrKey (path : List UInt8) : Option Nat :=
  match keyLoop path path.length 0 path.length false with
  | none => none
  | some (dot, system) =>
    if dot = 0 ∨ SUBDOC_MAX_XATTR_LENGTH ≤ dot ∨ (system ∧ dot = 1) then none else some dot

/-! ### What a valid key looks like -/

theorem ne_zero_of_and_eq {b m r : UInt8} (h : b &&& m = r) (hr : r ≠ 0) : b ≠ 0 := by
  rintro rfl
  exact hr (by rw [← h, UInt8.zero_and])

/-- A character the width function accepts fits in the bytes available, and
none of its bytes is a NUL unless it is a one-byte character. -/
theorem getUtf8CharWidth_spec {bytes : List UInt8} {w : Nat} (h : getUtf8CharWidth bytes = some w) :
    1 ≤ w ∧ (w = 1 ∨ (w ≤ bytes.length ∧ ∀ i < w, bytes.getD i 0 ≠ 0)) := by
  unfold getUtf8CharWidth at h
  dsimp only at h
  split_ifs at h with h0 h1 h2 h3 h4 h5 h6 h7 h8 <;> cases h
  · exact ⟨Nat.le_refl 1, .inl rfl⟩
  · -- two bytes: a lead byte and one continuation byte
    refine ⟨by omega, .inr ⟨by omega, fun i hi => ?_⟩⟩
    match i, hi with
    | 0, _ => exact ne_zero_of_and_eq h2 (by decide)
    | 1, _ => exact ne_zero_of_and_eq h3 (by decide)
  · refine ⟨by omega, .inr ⟨by omega, fun i hi => ?_⟩⟩
    match i, hi with
    | 0, _ => exact ne_zero_of_and_eq h5 (by decide)
    | 1, _ => exact ne_zero_of_and_eq h6.1 (by decide)
    | 2, _ => exact ne_zero_of_and_eq h6.2 (by decide)
  · refine ⟨by omega, .inr ⟨by omega, fun i hi => ?_⟩⟩
    match i, hi with
    | 0, _ => exact ne_zero_of_and_eq h8.1 (by decide)
    | 1, _ => exact ne_zero_of_and_eq h8.2.1 (by decide)
    | 2, _ => exact ne_zero_of_and_eq h8.2.2.1 (by decide)
    | 3, _ => exact ne_zero_of_and_eq h8.2.2.2 (by decide)

/-- One turn of the key loop that did not refuse: the character's width, a
one-byte character that is not a NUL, and the rest of the loop. -/
theorem keyLoop_succ_eq_some {path : List UInt8} {fuel offset dot : Nat} {system : Bool}
    {r : Nat × Bool} (h : keyLoop path (fuel + 1) offset dot system = some r)
    (hoff : offset < path.length) :
    ∃ w dot' system', getUtf8CharWidth (path.drop offset) = some w ∧
      (w = 1 → path.getD offset 0 ≠ 0) ∧ keyLoop path fuel (offset + w) dot' system' = some r := by
  unfold keyLoop at h
  rw [if_pos hoff] at h
  split at h
  · cases h
  · rename_i w hw
    dsimp only at h
    -- every branch of the body either refuses or goes on with the next turn;
    -- a one-byte character goes on only if it is not a NUL
    split_ifs at h with h1 <;>
      first
      | cases h
      | exact ⟨w, _, _, hw, fun _ => ‹¬ path.getD offset 0 = 0›, h⟩
      | exact ⟨w, _, _, hw, fun h' => absurd h' h1, h⟩

/-- Every byte the loop walks over, up to the end of the key, is not a NUL. -/
theorem keyLoop_ne_zero {path : List UInt8} :
    ∀ {fuel offset dot : Nat} {system : Bool} {r : Nat × Bool},
      keyLoop path fuel offset dot system = some r → path.length ≤ offset + fuel →
      ∀ i, offset ≤ i → i < path.length → path.getD i 0 ≠ 0
  | 0, _, _, _, _, _, hfuel, _, hi, hlt => absurd hlt (by omega)
  | fuel + 1, offset, dot, system, r, h, hfuel, i, hi, hlt => by
    obtain ⟨w, dot', system', hw, hone, hrest⟩ := keyLoop_succ_eq_some h (by omega)
    obtain ⟨hw1, hwide⟩ := getUtf8CharWidth_spec hw
    by_cases hin : i < offset + w
    · -- `i` is a byte of the character at `offset`
      rcases hwide with rfl | ⟨-, hbytes⟩
      · obtain rfl : i = offset := by omega
        exact hone rfl
      · have hget := hbytes (i - offset) (by omega)
        rwa [List.getD_eq_getElem?_getD, List.getElem?_drop, Nat.add_sub_cancel' hi,
          ← List.getD_eq_getElem?_getD] at hget
    · exact keyLoop_ne_zero hrest (by omega) i (by omega) hlt

theorem zero_not_mem_of_isValidXattrKey {path : List UInt8} {n : Nat}
    (h : isValidXattrKey path = some n) : 0 ∉ path := by
  unfold isValidXattrKey at h
  split at h
  · cases h
  · rename_i r hloop
    intro hmem
    obtain ⟨i, hi, hget⟩ := List.getElem_of_mem hmem
    refine keyLoop_ne_zero hloop (by omega) i (Nat.zero_le _) hi ?_
    rw [List.getD_eq_getElem?_getD, List.getElem?_eq_getElem hi, Option.getD_some, hget]

theorem ne_nil_of_isValidXattrKey {path : List UInt8} {n : Nat}
    (h : isValidXattrKey path = some n) : path ≠ [] := by
  rintro rfl
  -- the empty key has its `dot` at `0`
  have hnone : isValidXattrKey [] = none := by decide
  rw [hnone] at h
  cases h

end KvEngine.Xattr
