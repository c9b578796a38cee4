import KvEngine.Lib.Bytes
import KvEngine.Lib.Except

/-!
# Request framing (`include/mcbp/protocol/header.h`, `protocol/mcbp/request.cc`)

A request of the memcached binary protocol is a 24-byte header and `bodylen`
bytes of body: the framing extras (present only with the alternative
encoding), the extras, the key and the value, one after the other. The
header's getters find each of them by chaining the lengths the header holds;
the alternative encoding keeps the framing extras length in byte 2 and an
8-bit key length in byte 3, where the classic encoding keeps a 16-bit key
length.

- `Magic`: `cb::mcbp::Magic` with its byte, `is_legal`, `is_request` and
  `is_alternative_encoding`, which throws on a byte that is no magic.
- `Slice`: a byte buffer into the packet, as an offset and a length.
- `getKeylen`, `getFramingExtraslen`, `getExtlen`, `getBodylen` and
  `getFramingExtras`, `getExtdata`, `getKey`, `getValue`, `getFrame`: the
  getters over the packet's bytes. The value's length is `getBodylen()`
  less the other three lengths in `size_t` arithmetic (`sizeSub`).
- `isValid`: `Request::isValid()`.

Results:
- `getValue_of_isValid`: on a valid request the four slices are found, start
  at the end of the header, each where the one before ends, and the value
  ends at `24 + bodylen`.
- `bytes_slices_of_isValid`: in a packet of `24 + bodylen` bytes their bytes,
  concatenated, are the body.
-/

namespace KvEngine.Mcbp

open ByteList

/-- `cb::mcbp::Magic`. -/
inductive Magic where
  | clientRequest
  | altClientRequest
  | clientResponse
  | altClientResponse
  | serverRequest
  | serverResponse
  deriving DecidableEq, Repr

namespace Magic

/-- The byte of each magic. -/
def toByte : Magic → UInt8
  | clientRequest => 0x80
  | altClientRequest => 0x08
  | clientResponse => 0x81
  | altClientResponse => 0x18
  | serverRequest => 0x82
  | serverResponse => 0x83

/-- `Magic(byte)` where the byte is a magic: `is_legal` holds exactly when
this is `some`. -/
def ofByte (b : UInt8) : Option Magic :=
  [clientRequest, altClientRequest, clientResponse, altClientResponse, serverRequest,
    serverResponse].find? (·.toByte == b)

/-- `is_request(magic)`. -/
def isRequest : Magic → Bool
  | clientRequest | altClientRequest | serverRequest => true
  | clientResponse | altClientResponse | serverResponse => false

/-- `is_alternative_encoding(magic)`: the packet carries framing extras. -/
def isAlternativeEncoding : Magic → Bool
  | altClientRequest | altClientResponse => true
  | _ => false

theorem ofByte_toByte (m : Magic) : ofByte m.toByte = some m := by
  cases m <;> rfl

end Magic

/-- `std::invalid_argument` from `is_alternative_encoding` on a byte that is no
magic. -/
inductive HeaderError where
  | invalidMagic (b : UInt8)
  deriving DecidableEq, Repr

/-- `is_alternative_encoding(Magic(b))`, which throws where `b` is no magic. -/
def isAlternativeEncoding (b : UInt8) : Except HeaderError Bool :=
  match Magic.ofByte b with
  | some m => .ok m.isAlternativeEncoding
  | none => .error (.invalidMagic b)

/-- A `cb::const_byte_buffer` into the packet. -/
structure Slice where
  start : Nat
  len : Nat
  deriving DecidableEq, Repr

/-- `end()` of the buffer. -/
def Slice.endOffset (s : Slice) : Nat := s.start + s.len

/-- The bytes of the packet the buffer spans. -/
def Slice.bytes (p : List UInt8) (s : Slice) : List UInt8 := (p.drop s.start).take s.len

/-- `a - b` in `size_t`, for operands below `2^64`. -/
def sizeSub (a b : Nat) : Nat := (a + (2 ^ 64 - b)) % 2 ^ 64

/-! ## The getters -/

section Header

variable (p : List UInt8)

/-- `getMagic()`: byte 0. -/
def getMagic : UInt8 := p.getD 0 0

/-- `getKeylen()`: byte 3 with the alternative encoding, else the 16-bit
field at byte 2. -/
def getKeylen : Nat :=
  match Magic.ofByte (getMagic p) with
  | some m => if m.isAlternativeEncoding then (p.getD 3 0).toNat else (readBe16 p 2).toNat
  | none => (readBe16 p 2).toNat

/-- `getFramingExtraslen()`: byte 2 with the alternative encoding, else `0`. -/
def getFramingExtraslen : Nat :=
  match Magic.ofByte (getMagic p) with
  | some m => if m.isAlternativeEncoding then (p.getD 2 0).toNat else 0
  | none => 0

/-- `getExtlen()`: byte 4. -/
def getExtlen : Nat := (p.getD 4 0).toNat

/-- `getBodylen()`: the 32-bit field at byte 8. -/
def getBodylen : Nat := (readBe32 p 8).toNat

/-- `getFramingExtras()`: from the end of the header, byte 2's length with the
alternative encoding, else empty. -/
def getFramingExtras : Except HeaderError Slice := do
  let alt ← isAlternativeEncoding (getMagic p)
  pure ⟨24, if alt then (p.getD 2 0).toNat else 0⟩

/-- `getExtdata()`: `getExtlen()` bytes after the framing extras. -/
def getExtdata : Except HeaderError Slice := do
  let loc ← getFramingExtras p
  pure ⟨loc.endOffset, getExtlen p⟩

/-- `getKey()`: `getKeylen()` bytes after the extras. -/
def getKey : Except HeaderError Slice := do
  let loc ← getExtdata p
  pure ⟨loc.endOffset, getKeylen p⟩

/-- `getValue()`: after the key, what the body length leaves of the body. -/
def getValue : Except HeaderError Slice := do
  let fe ← getFramingExtras p
  let ex ← getExtdata p
  let key ← getKey p
  pure ⟨key.endOffset, sizeSub (sizeSub (sizeSub (getBodylen p) key.len) ex.len) fe.len⟩

/-- `getFrame()`: the header and the body. -/
def getFrame : Slice := ⟨0, 24 + getBodylen p⟩

/-- `Request::isValid()`: a request magic, and the three lengths within the
body. -/
def isValid : Bool :=
  match Magic.ofByte (getMagic p) with
  | some m => m.isRequest && decide (getFramingExtraslen p + getExtlen p + getKeylen p ≤ getBodylen p)
  | none => false

end Header

/-! ## The slices of a valid request -/

theorem sizeSub_of_le {a b : Nat} (hab : b ≤ a) (ha : a < 2 ^ 64) : sizeSub a b = a - b := by
  unfold sizeSub
  rw [show a + (2 ^ 64 - b) = (a - b) + 2 ^ 64 by omega, Nat.add_mod_right, Nat.mod_eq_of_lt (by omega)]

theorem bytes_append_bytes (p : List UInt8) {s t : Slice} (h : t.start = s.endOffset) :
    s.bytes p ++ t.bytes p = Slice.bytes p ⟨s.start, s.len + t.len⟩ := by
  unfold Slice.bytes
  rw [h, Slice.endOffset, List.take_add, List.drop_drop]

section Valid

variable {p : List UInt8}

/-- A valid request's magic is a legal request magic. -/
theorem magic_of_isValid (h : isValid p = true) :
    ∃ m, Magic.ofByte (getMagic p) = some m ∧ m.isRequest = true ∧
      getFramingExtraslen p + getExtlen p + getKeylen p ≤ getBodylen p := by
  unfold isValid at h
  split at h
  · rename_i m hm
    simp only [Bool.and_eq_true, decide_eq_true_eq] at h
    exact ⟨m, hm, h.1, h.2⟩
  · cases h

/-- On a legal magic the framing extras are the length `getFramingExtraslen`
reads. -/
theorem getFramingExtras_of_ofByte {m : Magic} (hm : Magic.ofByte (getMagic p) = some m) :
    getFramingExtras p = .ok ⟨24, getFramingExtraslen p⟩ := by
  unfold getFramingExtras getFramingExtraslen isAlternativeEncoding
  rw [hm]
  rfl

theorem getValue_of_isValid (h : isValid p = true) :
    ∃ fe ex key value, getFramingExtras p = .ok fe ∧ getExtdata p = .ok ex ∧
      getKey p = .ok key ∧ getValue p = .ok value ∧ fe.start = 24 ∧
      ex.start = fe.endOffset ∧ key.start = ex.endOffset ∧ value.start = key.endOffset ∧
      value.endOffset = 24 + getBodylen p := by
  obtain ⟨m, hm, -, hle⟩ := magic_of_isValid h
  have hfe := getFramingExtras_of_ofByte hm
  have hex : getExtdata p = .ok ⟨24 + getFramingExtraslen p, getExtlen p⟩ := by
    rw [getExtdata, hfe]
    rfl
  have hkey : getKey p = .ok ⟨24 + getFramingExtraslen p + getExtlen p, getKeylen p⟩ := by
    rw [getKey, hex]
    rfl
  have hbody : getBodylen p < 2 ^ 64 := by
    have := (readBe32 p 8).toNat_lt
    unfold getBodylen
    omega
  have hvalue : getValue p = .ok ⟨24 + getFramingExtraslen p + getExtlen p + getKeylen p,
      sizeSub (sizeSub (sizeSub (getBodylen p) (getKeylen p)) (getExtlen p))
        (getFramingExtraslen p)⟩ := by
    rw [getValue, hfe, hex, hkey]
    rfl
  refine ⟨_, _, _, _, hfe, hex, hkey, hvalue, rfl, rfl, rfl, rfl, ?_⟩
  -- the value's length undoes the three subtractions, which do not wrap
  show 24 + getFramingExtraslen p + getExtlen p + getKeylen p +
    sizeSub (sizeSub (sizeSub (getBodylen p) (getKeylen p)) (getExtlen p))
      (getFramingExtraslen p) = 24 + getBodylen p
  have h1 : sizeSub (getBodylen p) (getKeylen p) = getBodylen p - getKeylen p :=
    sizeSub_of_le (by omega) hbody
  have h2 : sizeSub (getBodylen p - getKeylen p) (getExtlen p) =
      getBodylen p - getKeylen p - getExtlen p := sizeSub_of_le (by omega) (by omega)
  have h3 : sizeSub (getBodylen p - getKeylen p - getExtlen p) (getFramingExtraslen p) =
      getBodylen p - getKeylen p - getExtlen p - getFramingExtraslen p :=
    sizeSub_of_le (by omega) (by omega)
  rw [h1, h2, h3]
  omega

/-- In a packet of the header and the body, the framing extras, the extras,
the key and the value of a valid request make up the body. -/
theorem bytes_slices_of_isValid (h : isValid p = true) (hlen : p.length = 24 + getBodylen p) :
    ∃ fe ex key value, getFramingExtras p = .ok fe ∧ getExtdata p = .ok ex ∧
      getKey p = .ok key ∧ getValue p = .ok value ∧
      fe.bytes p ++ ex.bytes p ++ key.bytes p ++ value.bytes p = p.drop 24 := by
  obtain ⟨fe, ex, key, value, hfe, hex, hkey, hvalue, h24, hfeex, hexkey, hkeyvalue, hend⟩ :=
    getValue_of_isValid h
  refine ⟨fe, ex, key, value, hfe, hex, hkey, hvalue, ?_⟩
  simp only [Slice.endOffset] at hfeex hexkey hkeyvalue hend
  rw [bytes_append_bytes p hfeex, bytes_append_bytes p (by simp only [Slice.endOffset]; omega),
    bytes_append_bytes p (by simp only [Slice.endOffset]; omega)]
  unfold Slice.bytes
  rw [List.take_of_length_le (by simp only [List.length_drop]; omega), h24]

end Valid

end KvEngine.Mcbp
