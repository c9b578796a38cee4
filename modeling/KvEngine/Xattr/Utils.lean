import KvEngine.Xattr.Blob

/-!
# Validating an xattr blob

`cb::xattr::validate` walks the pairs of a blob the way `Blob` lays them out
and accepts it when every pair has a valid key, a value the JSON syntax
validator accepts, a length field that matches, and a key no earlier pair
has; the pairs must fill the blob exactly, and the system pairs, with the
length field, must fit in `PrivilegedBytes`.

- `trimString`, `validateLoop`, `validate1`, `validate`, `getSystemSize`: the
  functions of `utils.cc`. The JSON syntax validator is a parameter.
-/

namespace KvEngine.Xattr

open ByteList

/-- `cb::limits::PrivilegedBytes`: 1 MiB. -/
def PrivilegedBytes : Nat := 1024 * 1024

/-- `trim_string(blob)`: the bytes before the first NUL; `out_of_range`
without one. -/
def trimString (blob : List UInt8) : Except Error (List UInt8) :=
  if 0 ∈ blob then .ok (cstr blob) else .error .outOfRange

/-- `ValidationData`. -/
structure ValidationData where
  valid : Bool := false
  systemSize : Nat := 0
  deriving DecidableEq, Repr

section Validate

variable (validator : List UInt8 → Bool) (blob : List UInt8) (size : Nat)

/-- The loop of `validate1` from `offset`, with the keys seen and the system
size so far; `size` is the end of the pairs. -/
def validateLoop : Nat → Nat → List (List UInt8) → Nat → Except Error ValidationData
  | 0, offset, _, systemSize => .ok ⟨offset = size, systemSize⟩
  | fuel + 1, offset, keys, systemSize =>
    if offset < size then
      -- a length field, a one-byte key and two NULs at least
      if size < offset + 7 then .ok {}
      else
        let kvsize := (readBe32 blob offset).toNat
        let offset := offset + 4
        if size < offset + kvsize then .ok {}
        else do
          let keybuf ← trimString ((blob.drop offset).take (size - offset))
          let offset := offset + keybuf.length + 1
          if (isValidXattrKey keybuf).isNone then .ok {}
          else do
            let valuebuf ← trimString ((blob.drop offset).take (size - offset))
            let offset := offset + valuebuf.length + 1
            if !validator valuebuf then .ok {}
            else if kvsize ≠ keybuf.length + valuebuf.length + 2 then .ok {}
            else if keybuf ∈ keys then .ok {}
            else
              let systemSize := if keybuf.getD 0 0 = underscore
                then systemSize + 4 + (keybuf.length + valuebuf.length + 2) else systemSize
              validateLoop fuel offset (keybuf :: keys) systemSize
    else .ok ⟨offset = size, systemSize⟩

/-- `validate1(validator, blob)`: whether the pairs are well formed, and the
size of the system pairs with the length field; a thrown `out_of_range` is
caught and refuses the blob. -/
def validate1 : ValidationData :=
  if blob.length < 4 then {}
  else
    let r : Except Error ValidationData := do
      let size := (← Blob.getBodyOffset blob).toNat
      if blob.length < size then .ok {}
      else validateLoop validator blob size blob.length 4 [] 4
    match r with
    | .ok d => d
    | .error _ => {}

/-- `validate(validator, blob)`. -/
def validate : Bool :=
  let vData := validate1 validator blob
  vData.valid && decide (vData.systemSize ≤ PrivilegedBytes)

/-- `get_system_size(blob)`, with `validator` the syntax validator it makes. -/
def getSystemSize : Nat := (validate1 validator blob).systemSize

end Validate

end KvEngine.Xattr
