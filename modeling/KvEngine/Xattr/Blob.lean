import KvEngine.Lib.Bytes
import KvEngine.Xattr.KeyValidator

/-!
# `cb::xattr::Blob`

An xattr blob is a 4-byte big-endian length followed by that many bytes of
key/value pairs, each a 4-byte big-endian length, the key, a NUL, the value
and a NUL. A `Blob` is a view (`blob`, a pointer and a size) into either the
caller's buffer it was constructed over or its own `allocator` string, and
every member function edits the bytes of that view in place: `remove` closes
the gap with `memmove`, `set` removes the key and appends the pair after the
last one, growing the view first.

- `Blob`: where the view points (`Backing`), the caller's buffer, the
  allocator, and the view's size, which never passes the end of the memory
  it points into.
- `BlobM`: a member function that mutates the blob and may throw; what it
  changed before it threw stays changed, as in the C++.
- `Blob.get`, `Blob.getXattrsSize`, `Blob.items`: the read-only walks over the
  pairs; `Blob.remove`, `Blob.set`, `Blob.pruneKeys`: the mutators, built from
  `removeSegment`, `growBuffer` and `writeKvpair`.
- `Blob.assign`, `Blob.copy`, `Blob.empty`: the constructors.

A `std::string_view` returned by `get` is `View`, a start and a length in the
memory of the view. Reads go through the memory the view points into, so a
malformed blob can read past the view as the C++ does; where the C++ reads or
writes past the end of its memory, or an `Expects` fails, the model throws
`Error.undefined` instead.
-/

namespace KvEngine.Xattr

open ByteList

/-- What a `Blob` operation throws. -/
inductive Error where
  /-- `std::out_of_range`: `read_length`, `write_length`, `check_len`. -/
  | outOfRange
  /-- `gsl::narrowing_error` from `gsl::narrow<uint32_t>`. -/
  | narrowing
  /-- `std::runtime_error`: a compressed buffer that does not inflate. -/
  | inflate
  /-- What the C++ leaves undefined: a failed `Expects`, or a view or a read
  past the end of the buffer. -/
  | undefined
  deriving DecidableEq, Repr

/-- Where `blob.data()` points. -/
inductive Backing where
  /-- `blob = {}`. -/
  | null
  /-- The caller's buffer the blob was constructed over. -/
  | buffer
  /-- The blob's own `allocator`. -/
  | allocator
  deriving DecidableEq, Repr

/-- The memory a view with this backing points into. -/
def Backing.memory : Backing → List UInt8 → List UInt8 → List UInt8
  | .null, _, _ => []
  | .buffer, buf, _ => buf
  | .allocator, _, alloc => alloc

/-- `Blob`: the view `blob` (where it points and its size), the caller's
buffer and `allocator`. -/
structure Blob where
  backing : Backing
  buffer : List UInt8
  allocator : List UInt8
  size : Nat
  size_le : size ≤ (backing.memory buffer allocator).length

/-- `Blob::Type`. -/
inductive AttrType where
  | system
  | user
  deriving DecidableEq, Repr

/-- A `std::string_view` into the blob's memory. -/
structure View where
  start : Nat
  len : Nat
  deriving DecidableEq, Repr

/-- `gsl::narrow<uint32_t>`. -/
def narrow (n : Nat) : Except Error UInt32 :=
  if n < 2 ^ 32 then .ok n.toUInt32 else .error .narrowing

/-- A member function of `Blob` that mutates it in place and may throw. -/
abbrev BlobM := EStateM Error Blob

/-- The NUL that ends keys and values, and the `_` that starts a system key. -/
def underscore : UInt8 := '_'.toUInt8

namespace Blob

/-! ### The view -/

/-- The memory `blob.data()` points into. -/
def memory (b : Blob) : List UInt8 := b.backing.memory b.buffer b.allocator

/-- `finalize()`: the bytes of the view. -/
def finalize (b : Blob) : List UInt8 := b.memory.take b.size

/-- `blob[i]`. -/
def byteAt (b : Blob) (i : Nat) : UInt8 := b.memory.getD i 0

/-- The bytes of a `string_view` into the blob. -/
def bytes (b : Blob) (v : View) : List UInt8 := (b.memory.drop v.start).take v.len

/-- `blob = {}`. -/
def clear (b : Blob) : Blob := ⟨.null, b.buffer, b.allocator, 0, Nat.zero_le _⟩

/-- `blob = {blob.data(), n}` for `n` within the view. -/
def shrink (b : Blob) (n : Nat) (h : n ≤ b.size) : Blob :=
  { b with size := n, size_le := Nat.le_trans h b.size_le }

/-- Store `bs` at `off` through `blob.data()`. -/
def write (b : Blob) (off : Nat) (bs : List UInt8) : Blob :=
  match hb : b.backing with
  | .null => b
  | .buffer =>
    { b with buffer := writeAt b.buffer off bs
             size_le := by
               have h := b.size_le
               simp only [hb, Backing.memory] at h ⊢
               exact Nat.le_trans h (le_length_writeAt _ _ _) }
  | .allocator =>
    { b with allocator := writeAt b.allocator off bs
             size_le := by
               have h := b.size_le
               simp only [hb, Backing.memory] at h ⊢
               exact Nat.le_trans h (le_length_writeAt _ _ _) }

@[simp] theorem size_write (b : Blob) (off : Nat) (bs : List UInt8) :
    (b.write off bs).size = b.size := by
  unfold write
  split <;> rfl

@[simp] theorem backing_write (b : Blob) (off : Nat) (bs : List UInt8) :
    (b.write off bs).backing = b.backing := by
  unfold write
  split <;> simp_all

/-- `read_length(offset)`. -/
def readLength (b : Blob) (offset : Nat) : Except Error UInt32 :=
  if b.size < offset + 4 then .error .outOfRange else .ok (readBe32 b.memory offset)

/-! ### Reading -/

/-- The loop of `get(key)` from `current`: the offset of the key's value. -/
def getLoop (b : Blob) (key : List UInt8) : Nat → Nat → Except Error (Option Nat)
  | 0, _ => .ok none
  | fuel + 1, current =>
    if current < b.size then do
      let size ← b.readLength current
      let current := current + 4
      -- a longer entry whose key is `key`, NUL-terminated; the two `else`
      -- branches of the C++ both jump to the next pair
      if key.length < size.toNat ∧ b.byteAt (current + key.length) = 0 ∧
          (b.memory.drop current).take key.length = key then
        .ok (some (current + key.length + 1))
      else getLoop b key fuel (current + size.toNat)
    else .ok none

/-- `get(key)`: the value of `key`, or the empty view; a malformed blob's
`out_of_range` is caught. -/
def get (b : Blob) (key : List UInt8) : View :=
  match b.getLoop key b.size 4 with
  | .ok (some value) => ⟨value, (cstr (b.memory.drop value)).length⟩
  | _ => ⟨0, 0⟩

/-- The loop of `get_xattrs_size(type)` from `current`, adding up `ret`. -/
def sizeLoop (b : Blob) (type : AttrType) : Nat → Nat → Nat → Nat
  | 0, _, ret => ret
  | fuel + 1, current, ret =>
    if current < b.size then
      match b.readLength current with
      | .error _ => ret
      | .ok size =>
        let system := b.byteAt (current + 4) == underscore
        let counted := match type with
          | .system => system
          | .user => !system
        let ret := if counted then ret + (size + 4).toNat else ret
        sizeLoop b type fuel (current + (4 + size).toNat) ret
    else ret

/-- `get_xattrs_size(type)`: `0` for an empty blob, else the length field
plus the pairs of that type. -/
def getXattrsSize (b : Blob) (type : AttrType) : Nat :=
  if b.size = 0 then 0 else b.sizeLoop type b.size 4 4

/-- `get_system_size()`. -/
def getSystemSize (b : Blob) : Nat := b.getXattrsSize .system

/-- `get_user_size()`. -/
def getUserSize (b : Blob) : Nat := b.getXattrsSize .user

/-- `iterator::operator++` from `current`. -/
def incr (b : Blob) (current : Nat) : Except Error Nat :=
  if current = b.size then .ok current
  else do
    let size ← b.readLength current
    let current := current + size.toNat + 4
    .ok (if b.size < current then b.size else current)

/-- `iterator::operator*` at `current`. -/
def deref (b : Blob) (current : Nat) : List UInt8 × List UInt8 :=
  let key := cstr (b.memory.drop (current + 4))
  (key, cstr (b.memory.drop (current + 4 + key.length + 1)))

/-- `begin()`: `end()` for an empty blob. -/
def begin (b : Blob) : Nat := if b.size = 0 then b.size else 4

/-- The pairs a loop from `current` to `end()` yields. -/
def itemsFrom (b : Blob) : Nat → Nat → Except Error (List (List UInt8 × List UInt8))
  | 0, _ => .ok []
  | fuel + 1, current =>
    if current = b.size then .ok []
    else do
      let next ← b.incr current
      let rest ← b.itemsFrom fuel next
      .ok (b.deref current :: rest)

/-- The pairs `for (auto [key, value] : blob)` yields. -/
def items (b : Blob) : Except Error (List (List UInt8 × List UInt8)) :=
  b.itemsFrom b.size b.begin

/-! ### Mutating -/

/-- `write_length(offset, value)`. -/
def writeLength (offset : Nat) (value : UInt32) : BlobM Unit := do
  let b ← EStateM.get
  if b.size < offset + 4 then throw .outOfRange
  EStateM.set (b.write offset (be32 value))

/-- `remove_segment(offset, size)`: cut `size` bytes at `offset` out of the
view, and rewrite the length field unless the view is now empty. -/
def removeSegment (offset size : Nat) : BlobM Unit := do
  let b ← EStateM.get
  if h : offset + size = b.size then
    -- the last pair: shorten the view; a bare length field becomes `{}`
    let b := b.shrink offset (by omega)
    EStateM.set (if b.size = 4 then b.clear else b)
  else
    let moved := b.write offset ((b.memory.drop (offset + size)).take (b.size - offset - size))
    EStateM.set (moved.shrink (b.size - size) (by rw [size_write]; exact Nat.sub_le _ _))
  let b ← EStateM.get
  if b.size ≠ 0 then
    let n ← MonadExcept.ofExcept (narrow b.size)
    writeLength 0 (n - 4)

/-- `remove(key)`. -/
def remove (key : List UInt8) : BlobM Unit := do
  let b ← EStateM.get
  let old := b.get key
  if old.len = 0 then return
  removeSegment (old.start - 1 - key.length - 4) (4 + key.length + 1 + old.len + 1)

/-- `grow_buffer(size)`: a view too small moves to the allocator, which is
resized first if it is too small; nothing is copied into it. -/
def growBuffer (size : UInt32) : BlobM Unit := do
  let b ← EStateM.get
  if b.size < size.toNat then
    if h : b.allocator.length < size.toNat then
      EStateM.set (⟨.allocator, b.buffer, b.allocator ++ List.replicate (size.toNat - b.allocator.length) 0,
        size.toNat, by simp [Backing.memory]; omega⟩ : Blob)
    else
      EStateM.set (⟨.allocator, b.buffer, b.allocator, size.toNat, by simp [Backing.memory]; omega⟩ : Blob)

/-- `write_kvpair(offset, key, value)`. -/
def writeKvpair (offset : Nat) (key value : List UInt8) : BlobM Unit := do
  writeLength offset (key.length + 1 + value.length + 1).toUInt32
  let b ← EStateM.get
  -- the key and the value, each followed by its NUL
  EStateM.set (b.write (offset + 4) (key ++ 0 :: value ++ [0]))
  let b ← EStateM.get
  writeLength 0 (b.size - 4).toUInt32

/-- `append_kvpair(key, value)`: after the last pair, or after a new length
field in an empty blob. -/
def appendKvpair (key value : List UInt8) : BlobM Unit := do
  let b ← EStateM.get
  let offset := if b.size = 0 then 4 else b.size
  let needed ← MonadExcept.ofExcept (narrow (offset + 4 + key.length + 1 + value.length + 1))
  growBuffer needed
  writeKvpair offset key value

/-- `set(key, value)`: an empty value only removes the key. -/
def set (key value : List UInt8) : BlobM Unit := do
  remove key
  if !value.isEmpty then appendKvpair key value

/-- The loop of `prune_keys(type)` from `current`. -/
def pruneLoop (type : AttrType) : Nat → Nat → BlobM Unit
  | 0, _ => pure ()
  | fuel + 1, current => do
    let b ← EStateM.get
    if current < b.size then
      let size ← MonadExcept.ofExcept (b.readLength current)
      let system := b.byteAt (current + 4) == underscore
      if (type = .user ∧ !system) ∨ (type = .system ∧ system) then
        removeSegment current (size + 4).toNat
        pruneLoop type fuel current
      else pruneLoop type fuel (current + (4 + size).toNat)

/-- `prune_keys(type)`: remove every pair of that type; a malformed blob's
`out_of_range` ends the loop. -/
def pruneKeys (type : AttrType) : BlobM Unit := do
  let b ← EStateM.get
  tryCatch (pruneLoop type b.size 4) (fun _ => pure ())

/-- `prune_user_keys()`. -/
def pruneUserKeys : BlobM Unit := pruneKeys .user

/-- `prune_system_keys()`. -/
def pruneSystemKeys : BlobM Unit := pruneKeys .system

/-! ### Constructors -/

/-- `Blob()`. -/
def empty : Blob := ⟨.null, [], [], 0, Nat.zero_le _⟩

/-- `Blob(const Blob& other)`: a deep copy into a new allocator. -/
def copy (other : Blob) : Blob :=
  ⟨.allocator, [], other.finalize, other.size, by
    simp only [Backing.memory, finalize, List.length_take]
    exact Nat.le_min.mpr ⟨Nat.le_refl _, other.size_le⟩⟩

/-- `get_body_offset(payload)`: the length field plus its own four bytes. -/
def getBodyOffset (payload : List UInt8) : Except Error UInt32 :=
  if payload.isEmpty then .error .undefined
  else if payload.length < 4 then .error .undefined
  else
    let len := readBe32 payload 0
    if payload.length < len.toNat then .error .outOfRange else .ok (len + 4)

/-- `Blob(buffer, compressed)` and `assign(buffer, compressed)`: a compressed
buffer is inflated (by `inflate`, `none` where snappy fails) and its xattrs
copied into the allocator; otherwise the view is attached to `buffer`. -/
def assign (inflate : List UInt8 → Option (List UInt8)) (buffer : List UInt8) (compressed : Bool) :
    Except Error Blob :=
  if buffer.isEmpty then .ok empty
  else if compressed then
    match inflate buffer with
    | none => .error .inflate
    | some payload => do
      let size ← getBodyOffset payload
      if size = 0 then .error .undefined
      else if h : payload.length < size.toNat then .error .undefined
      else .ok ⟨.allocator, [], payload.take size.toNat, size.toNat, by
        simp only [Backing.memory, List.length_take]
        omega⟩
  else do
    let size ← getBodyOffset buffer
    if h : buffer.length < size.toNat then .error .undefined
    else .ok ⟨.buffer, buffer, [], size.toNat, by simp only [Backing.memory]; omega⟩

end Blob

end KvEngine.Xattr
