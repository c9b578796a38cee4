import KvEngine.Mcbp.Request
import KvEngine.Durability.Types

/-!
# Frame infos (`protocol/mcbp/request.cc`, `protocol/mcbp/frameinfo.cc`)

The framing extras of a request are a sequence of frame infos. Each starts
with a byte whose high nibble is the frame's id and whose low nibble is its
size; a nibble of 15 is an escape, and the next byte is added to it (first
for the id, then for the size). The content follows.

- `readEscape`: the escape step, the same for the id and for the size.
- `parseLoop`, `parseFrameExtras`: `Request::parseFrameExtras`, with the
  callback a function of a state `σ` (any `FrameInfoCallback` is one). It
  returns the last state and the frames the callback was called on, in order;
  an escape or a content past the end throws `std::overflow_error`.
- `encode`: the protected `FrameInfo::encode(id, data)`, and the encoders of
  the frame types built on it; `encodeDurability`, which writes its own bytes.
- `requirementsOfBuffer`: `cb::durability::Requirements(buffer)`, which the
  server applies to a durability frame's content.

Results:
- `parseFrameExtras_tiles`: the frames the callback is called on tile a prefix
  of the framing extras, header then content, each content within them; the
  whole of them when the callback never stops the loop.
- `parseFrameExtras_encodeAll`: frames of ids `0..14` and contents of at most
  `14 + 255` bytes, encoded one after the other, parse back to themselves.
- `parseFrameExtras_encodeDurability`: a durability frame of any level but
  `None` and any finite timeout parses back to its level and timeout.
- `encode_id_fifteen_not_parsed`: `encode` accepts id 15 and writes it as the
  bare escape nibble, which the parser reads as the start of a longer id;
  `encodeDurability` writes an infinite timeout, which `Requirements` refuses.
-/

namespace KvEngine.Mcbp

open ByteList
open KvEngine.Durability (Level Timeout)

/-! ## Frame ids and errors -/

namespace FrameInfoId

/-- `FrameInfoId::Barrier`. -/
def barrier : Nat := 0
/-- `FrameInfoId::DurabilityRequirement`. -/
def durabilityRequirement : Nat := 1
/-- `FrameInfoId::DcpStreamId`. -/
def dcpStreamId : Nat := 2
/-- `FrameInfoId::Impersonate`. -/
def impersonate : Nat := 4
/-- `FrameInfoId::PreserveTtl`. -/
def preserveTtl : Nat := 5
/-- `FrameInfoId::ImpersonateExtraPrivilege`. -/
def impersonateExtraPrivilege : Nat := 6
/-- `FrameInfoId::ImpersonateWithTokenAuthDataId`. -/
def impersonateWithTokenAuthDataId : Nat := 7

end FrameInfoId

/-- What the frame codec throws. -/
inductive FrameError where
  /-- `std::overflow_error("parseFrameExtras: outside frame extras")`. -/
  | outsideFrameExtras
  /-- `std::runtime_error("FrameInfo::encode: Multibyte frame identifiers not
  supported")`. -/
  | multibyteIdentifiers
  /-- `gsl::narrowing_error` from the extra length byte. -/
  | narrowing
  deriving DecidableEq, Repr

/-! ## Parsing -/

/-- The escape step of `parseFrameExtras`: a nibble of 15 adds the byte at
`offset`, which must lie within the frame extras. -/
def readEscape (fe : List UInt8) (nibble offset : Nat) : Except FrameError (Nat × Nat) :=
  if nibble = 0x0f then
    if fe.length < offset + 1 then .error .outsideFrameExtras
    else .ok (nibble + (fe.getD offset 0).toNat, offset + 1)
  else .ok (nibble, offset)

theorem le_of_readEscape {fe : List UInt8} {nibble offset v offset' : Nat}
    (h : readEscape fe nibble offset = .ok (v, offset')) : offset ≤ offset' ∧ offset' ≤ offset + 1 := by
  unfold readEscape at h
  split_ifs at h <;> cases h <;> omega

/-- A frame the callback is called on: its id and its content, a buffer into
the frame extras. -/
structure Frame where
  id : Nat
  content : Slice
  deriving DecidableEq, Repr

section Parse

variable {σ : Type} (fe : List UInt8) (callback : σ → Nat → List UInt8 → σ × Bool)

/-- The loop of `parseFrameExtras` from `offset`: one frame a turn, until the
end of the frame extras or until the callback returns `false`. -/
def parseLoop (s : σ) (offset : Nat) : Except FrameError (σ × List Frame) :=
  if h : offset < fe.length then
    let byte := fe[offset]
    match hid : readEscape fe (byte >>> 4).toNat (offset + 1) with
    | .error e => .error e
    | .ok (idbits, offset₁) =>
      match hsize : readEscape fe (byte &&& 0x0f).toNat offset₁ with
      | .error e => .error e
      | .ok (size, offset₂) =>
        if fe.length < offset₂ + size then .error .outsideFrameExtras
        else
          let content : Slice := ⟨offset₂, size⟩
          match callback s idbits (content.bytes fe) with
          | (s, true) => do
            let (s, frames) ← parseLoop s (offset₂ + size)
            pure (s, ⟨idbits, content⟩ :: frames)
          | (s, false) => .ok (s, [⟨idbits, content⟩])
  else .ok (s, [])
termination_by fe.length - offset
decreasing_by
  have h₁ := le_of_readEscape hid
  have h₂ := le_of_readEscape hsize
  omega

/-- `Request::parseFrameExtras(callback)` over the framing extras `fe`. -/
def parseFrameExtras (s : σ) : Except FrameError (σ × List Frame) :=
  if fe.isEmpty then .ok (s, []) else parseLoop fe callback s 0

end Parse

/-- What `Request::parseFrameExtras` throws: the magic check of
`getFramingExtras`, or the loop's overflow. -/
inductive ParseError where
  | header (e : HeaderError)
  | frame (e : FrameError)
  deriving DecidableEq, Repr

/-- `Request::parseFrameExtras(callback)` on a packet: the framing extras
`getFramingExtras()` finds, parsed. -/
def Request.parseFrameExtras {σ : Type} (p : List UInt8) (callback : σ → Nat → List UInt8 → σ × Bool)
    (s : σ) : Except ParseError (σ × List Frame) :=
  match getFramingExtras p with
  | .error e => .error (.header e)
  | .ok fe =>
    match Mcbp.parseFrameExtras (fe.bytes p) callback s with
    | .error e => .error (.frame e)
    | .ok r => .ok r

/-! ## Encoding -/

/-- `FrameInfo::encode(id, data)`: the header byte, an extra length byte for
`15` bytes or more, then the data. `uint8_t(id)` keeps the low byte of the
identifier. -/
def encode (id : Nat) (data : List UInt8) : Except FrameError (List UInt8) :=
  if 0x0f < id % 256 then .error .multibyteIdentifiers
  else
    let head : UInt8 := (id % 256).toUInt8 <<< 4
    if data.length < 0x0f then .ok ((head ||| data.length.toUInt8) :: data)
    else if data.length - 0x0f < 256 then
      .ok ((head ||| 0x0f) :: (data.length - 0x0f).toUInt8 :: data)
    else .error .narrowing

/-- `BarrierFrameInfo::encode()`. -/
def encodeBarrier : Except FrameError (List UInt8) := encode FrameInfoId.barrier []

/-- `DcpStreamIdFrameInfo::encode()`. -/
def encodeDcpStreamId (id : UInt16) : Except FrameError (List UInt8) :=
  encode FrameInfoId.dcpStreamId (be16 id)

/-- `ImpersonateUserFrameInfo::encode()`. -/
def encodeImpersonateUser (user : List UInt8) : Except FrameError (List UInt8) :=
  encode FrameInfoId.impersonate user

/-- `PreserveTtlFrameInfo::encode()`. -/
def encodePreserveTtl : Except FrameError (List UInt8) := encode FrameInfoId.preserveTtl []

/-- `ImpersonateUserExtraPrivilegeFrameInfo::encode()`. -/
def encodeImpersonateUserExtraPrivilege (privilege : List UInt8) : Except FrameError (List UInt8) :=
  encode FrameInfoId.impersonateExtraPrivilege privilege

/-- `ImpersonateWithTokenAuthIdFrameInfo::encode()`. -/
def encodeImpersonateWithTokenAuthId (id : UInt16) : Except FrameError (List UInt8) :=
  encode FrameInfoId.impersonateWithTokenAuthDataId (be16 id)

/-- `DurabilityFrameInfo::encode()`: nothing for `None`; else the header, the
level, and the timeout in network order unless it is the default. -/
def encodeDurability (level : Level) (timeout : Timeout) : List UInt8 :=
  if level = .none then []
  else
    let head : UInt8 := FrameInfoId.durabilityRequirement.toUInt8 <<< 4
    let levelByte : UInt8 := 0x0f &&& level.toNat.toUInt8
    if timeout.isDefault then [head ||| 0x01, levelByte]
    else [head ||| 0x03, levelByte] ++ be16 timeout.value

/-- The encodings of frames one after the other. -/
def encodeAll (frames : List (Nat × List UInt8)) : Except FrameError (List UInt8) :=
  (frames.mapM fun f => encode f.1 f.2).map List.flatten

/-! ## Durability requirements -/

/-- What `Requirements(buffer)` throws. -/
inductive RequirementsError where
  /-- `std::invalid_argument("Requirements(): Invalid sized buffer provided: " + size)`. -/
  | invalidSize (size : Nat)
  /-- `std::invalid_argument("Timeout(): Cannot specify bucket default timeout")`. -/
  | bucketDefaultTimeout
  /-- `std::invalid_argument("Timeout(): Cannot specify an infinite timeout")`. -/
  | infiniteTimeout
  /-- `std::runtime_error("Requirements(): Content represents an invalid
  requirement specification")`. -/
  | invalidRequirement
  deriving DecidableEq, Repr

/-- `Level(byte)`: `none` for a byte that is no level. -/
def levelOfByte (b : UInt8) : Option Level :=
  [Level.none, .majority, .majorityAndPersistOnMaster, .persistToMajority].find?
    (·.toNat.toUInt8 == b)

/-- `Timeout(uint16_t)`, the constructor for a value off the wire. -/
def timeoutOfWire (v : UInt16) : Except RequirementsError Timeout :=
  if v = 0 then .error .bucketDefaultTimeout
  else if v = 0xffff then .error .infiniteTimeout
  else .ok ⟨v⟩

/-- `Requirements::isValid()`: a level other than `None`. -/
def requirementsIsValid : Option Level → Bool
  | some .majority | some .majorityAndPersistOnMaster | some .persistToMajority => true
  | _ => false

/-- `Requirements(buffer)`: the level byte, then the timeout if there are three
bytes; the default timeout otherwise. -/
def requirementsOfBuffer (buffer : List UInt8) : Except RequirementsError (Level × Timeout) := do
  if buffer.length ≠ 1 ∧ buffer.length ≠ 3 then throw (.invalidSize buffer.length)
  let level := levelOfByte (buffer.headD 0)
  let timeout ← if buffer.length = 3 then timeoutOfWire (readBe16 buffer 1) else pure ⟨0⟩
  match level with
  | some l => if requirementsIsValid (some l) then pure (l, timeout) else throw .invalidRequirement
  | none => throw .invalidRequirement

/-! ## One turn of the loop -/

section Turn

variable {σ : Type} {fe : List UInt8} {callback : σ → Nat → List UInt8 → σ × Bool}

theorem parseLoop_of_not_lt {s : σ} {offset : Nat} (h : ¬offset < fe.length) :
    parseLoop fe callback s offset = .ok (s, []) := by
  rw [parseLoop, dif_neg h]

/-- A turn that reads a header within the frame extras hands the content to
the callback and goes on after it, or stops, as the callback says. -/
theorem parseLoop_of_header {s : σ} {offset idbits offset₁ size offset₂ : Nat} (hlt : offset < fe.length)
    (hid : readEscape fe (fe[offset] >>> 4).toNat (offset + 1) = .ok (idbits, offset₁))
    (hsize : readEscape fe (fe[offset] &&& 0x0f).toNat offset₁ = .ok (size, offset₂))
    (hin : offset₂ + size ≤ fe.length) :
    parseLoop fe callback s offset =
      match callback s idbits (Slice.bytes fe ⟨offset₂, size⟩) with
      | (s, true) => do
        let (s, frames) ← parseLoop fe callback s (offset₂ + size)
        pure (s, ⟨idbits, ⟨offset₂, size⟩⟩ :: frames)
      | (s, false) => .ok (s, [⟨idbits, ⟨offset₂, size⟩⟩]) := by
  rw [parseLoop, dif_pos hlt]
  dsimp only
  split
  · rename_i e he
    rw [hid] at he
    cases he
  · rename_i idbits' offset₁' he
    rw [hid, Except.ok.injEq, Prod.mk.injEq] at he
    obtain ⟨rfl, rfl⟩ := he
    split
    · rename_i e he
      rw [hsize] at he
      cases he
    · rename_i size' offset₂' he
      rw [hsize, Except.ok.injEq, Prod.mk.injEq] at he
      obtain ⟨rfl, rfl⟩ := he
      rw [if_neg (by omega)]

/-- A turn that does not throw read a header within the frame extras. -/
theorem parseLoop_inv {s s' : σ} {offset : Nat} {frames : List Frame} (hlt : offset < fe.length)
    (h : parseLoop fe callback s offset = .ok (s', frames)) :
    ∃ idbits offset₁ size offset₂,
      readEscape fe (fe[offset] >>> 4).toNat (offset + 1) = .ok (idbits, offset₁) ∧
      readEscape fe (fe[offset] &&& 0x0f).toNat offset₁ = .ok (size, offset₂) ∧
      offset₂ + size ≤ fe.length := by
  rw [parseLoop, dif_pos hlt] at h
  dsimp only at h
  split at h
  · cases h
  · rename_i idbits offset₁ hid
    split at h
    · cases h
    · rename_i size offset₂ hsize
      split_ifs at h with hout
      exact ⟨idbits, offset₁, size, offset₂, hid, hsize, by omega⟩

/-- The rest of a run that goes on after a frame. -/
theorem bind_cons_eq_ok {r : Except FrameError (σ × List Frame)} {f : Frame} {s' : σ}
    {frames : List Frame} (h : (do let (s, frames) ← r; pure (s, f :: frames)) = .ok (s', frames)) :
    ∃ rest, r = .ok (s', rest) ∧ frames = f :: rest := by
  cases r with
  | error e => cases h
  | ok v =>
    obtain ⟨s₁, rest⟩ := v
    injection h with h
    injection h with h₁ h₂
    exact ⟨rest, by rw [h₁], h₂.symm⟩

end Turn

/-! ## The frames tile the frame extras -/

/-- `Tiles fe offset frames stop`: from `offset` the frames follow one
another, each a header of one to three bytes and its content within `fe`,
and the last ends at `stop`. -/
inductive Tiles (fe : List UInt8) : Nat → List Frame → Nat → Prop
  | nil (offset : Nat) : Tiles fe offset [] offset
  | cons {offset stop : Nat} {f : Frame} {frames : List Frame} :
      offset < f.content.start → f.content.start ≤ offset + 3 →
      f.content.endOffset ≤ fe.length → Tiles fe f.content.endOffset frames stop →
      Tiles fe offset (f :: frames) stop

section Tiling

variable {σ : Type} {fe : List UInt8} {callback : σ → Nat → List UInt8 → σ × Bool}

/-- A run of the loop from `offset` that does not throw called the callback on
frames that tile the frame extras from `offset`; up to their end when the
callback never stops it. The recursion is the loop's. -/
theorem parseLoop_tiles {s s' : σ} {offset : Nat} {frames : List Frame} (hoff : offset ≤ fe.length)
    (h : parseLoop fe callback s offset = .ok (s', frames)) :
    ∃ stop, Tiles fe offset frames stop ∧ stop ≤ fe.length ∧
      ((∀ s id bytes, (callback s id bytes).2 = true) → stop = fe.length) := by
  by_cases hlt : offset < fe.length
  · obtain ⟨idbits, offset₁, size, offset₂, hid, hsize, hin⟩ := parseLoop_inv hlt h
    have h₁ := le_of_readEscape hid
    have h₂ := le_of_readEscape hsize
    rw [parseLoop_of_header hlt hid hsize hin] at h
    rcases hcb : callback s idbits (Slice.bytes fe ⟨offset₂, size⟩) with ⟨s₁, more⟩
    rw [hcb] at h
    cases more with
    | true =>
      -- the loop went on after the content
      obtain ⟨rest, hrest, rfl⟩ := bind_cons_eq_ok h
      obtain ⟨stop, htiles, hle, hall⟩ := parseLoop_tiles hin hrest
      exact ⟨stop, .cons (by dsimp only; omega) (by dsimp only; omega) hin htiles, hle, hall⟩
    | false =>
      -- the callback stopped the loop at this frame
      injection h with h
      injection h with hs hframes
      subst hframes
      refine ⟨offset₂ + size, .cons (by dsimp only; omega) (by dsimp only; omega) hin (.nil _), hin, ?_⟩
      intro hall
      have := hall s idbits (Slice.bytes fe ⟨offset₂, size⟩)
      rw [hcb] at this
      cases this
  · rw [parseLoop_of_not_lt hlt] at h
    injection h with h
    injection h with hs hframes
    subst hframes
    exact ⟨offset, .nil _, hoff, fun _ => by omega⟩
termination_by fe.length - offset

/-- `parseFrameExtras(callback)` either throws or calls the callback on frames
that tile a prefix of the frame extras, all of them when the callback never
stops it. -/
theorem parseFrameExtras_tiles {s s' : σ} {frames : List Frame}
    (h : parseFrameExtras fe callback s = .ok (s', frames)) :
    ∃ stop, Tiles fe 0 frames stop ∧ stop ≤ fe.length ∧
      ((∀ s id bytes, (callback s id bytes).2 = true) → stop = fe.length) := by
  unfold parseFrameExtras at h
  split_ifs at h with hempty
  · injection h with h
    injection h with hs hframes
    subst hframes
    have hnil : fe = [] := List.isEmpty_iff.mp hempty
    exact ⟨0, .nil 0, Nat.zero_le _, fun _ => by rw [hnil]; rfl⟩
  · exact parseLoop_tiles (Nat.zero_le _) h

end Tiling

/-! ## Encoded frames parse back -/

/-- The header byte `encode` writes keeps the id in its high nibble and the
size, or the escape, in its low nibble. -/
theorem nibbles_of_lt {i n : Nat} (hi : i < 16) (hn : n < 16) :
    ((((i % 256).toUInt8 <<< 4) ||| n.toUInt8) >>> 4).toNat = i ∧
      ((((i % 256).toUInt8 <<< 4) ||| n.toUInt8) &&& 0x0f).toNat = n := by
  have key : ∀ a b : Fin 16,
      ((((a.val % 256).toUInt8 <<< 4) ||| b.val.toUInt8) >>> 4).toNat = a.val ∧
        ((((a.val % 256).toUInt8 <<< 4) ||| b.val.toUInt8) &&& 0x0f).toNat = b.val := by
    decide
  exact key ⟨i, hi⟩ ⟨n, hn⟩

/-- The length of the header `encode` writes before `data`. -/
def headerLength (data : List UInt8) : Nat := if data.length < 0x0f then 1 else 2

/-- What `encode` writes for an id below 15 and at most `14 + 255` bytes. -/
theorem encode_eq_ok {id : Nat} {data : List UInt8} (hid : id < 15) (hlen : data.length < 15 + 256) :
    encode id data = .ok (if data.length < 0x0f then
      (((id % 256).toUInt8 <<< 4) ||| data.length.toUInt8) :: data
      else (((id % 256).toUInt8 <<< 4) ||| 0x0f) :: (data.length - 0x0f).toUInt8 :: data) := by
  unfold encode
  rw [if_neg (by omega)]
  dsimp only
  split_ifs with hshort hbyte
  · rfl
  · rfl
  · omega

/-- The content behind a header, wherever the frame stands. -/
theorem bytes_content (pre hdr data rest : List UInt8) :
    Slice.bytes (pre ++ (hdr ++ data) ++ rest) ⟨pre.length + hdr.length, data.length⟩ = data := by
  unfold Slice.bytes
  dsimp only
  rw [← List.length_append, show pre ++ (hdr ++ data) ++ rest = (pre ++ hdr) ++ (data ++ rest) by simp,
    List.drop_left, List.take_left]

/-- What `encode` writes is a header of `headerLength` bytes and the data. -/
theorem exists_header_of_encode {id : Nat} {data bytes : List UInt8} (hid : id < 15)
    (hlen : data.length < 15 + 256) (h : encode id data = .ok bytes) :
    ∃ hdr, bytes = hdr ++ data ∧ hdr.length = headerLength data := by
  rw [encode_eq_ok hid hlen, Except.ok.injEq] at h
  subst h
  unfold headerLength
  split_ifs
  · exact ⟨[_], rfl, rfl⟩
  · exact ⟨[_, _], rfl, rfl⟩

section Roundtrip

variable {σ : Type} {callback : σ → Nat → List UInt8 → σ × Bool}

/-- The loop reads a frame `encode` wrote, wherever it stands in the frame
extras, back as its id and its content. -/
theorem parseLoop_encode {s : σ} {id : Nat} {data bytes : List UInt8} (pre rest : List UInt8)
    (hid : id < 15) (hlen : data.length < 15 + 256) (henc : encode id data = .ok bytes) :
    parseLoop (pre ++ bytes ++ rest) callback s pre.length =
      match callback s id data with
      | (s, true) => do
        let (s, frames) ← parseLoop (pre ++ bytes ++ rest) callback s (pre ++ bytes).length
        pure (s, ⟨id, ⟨pre.length + headerLength data, data.length⟩⟩ :: frames)
      | (s, false) => .ok (s, [⟨id, ⟨pre.length + headerLength data, data.length⟩⟩]) := by
  rw [encode_eq_ok hid hlen, Except.ok.injEq] at henc
  subst henc
  have hcontent : ∀ hdr : List UInt8, hdr.length = headerLength data →
      Slice.bytes (pre ++ (hdr ++ data) ++ rest) ⟨pre.length + headerLength data, data.length⟩ = data := by
    intro hdr hhdr
    rw [← hhdr]
    exact bytes_content pre hdr data rest
  by_cases hshort : data.length < 0x0f
  · -- one header byte: the id and the size
    obtain ⟨hi, hn⟩ := nibbles_of_lt (i := id) (n := data.length) (by omega) (by omega)
    have hhead : headerLength data = 1 := if_pos hshort
    simp only [if_pos hshort]
    have hlt : pre.length < (pre ++ (((id % 256).toUInt8 <<< 4 ||| data.length.toUInt8) :: data) ++ rest).length := by
      simp only [List.length_append, List.length_cons]
      omega
    have hbyte : (pre ++ (((id % 256).toUInt8 <<< 4 ||| data.length.toUInt8) :: data) ++ rest)[pre.length] =
        ((id % 256).toUInt8 <<< 4 ||| data.length.toUInt8) := by
      simp
    rw [@parseLoop_of_header σ _ callback s pre.length id (pre.length + 1) data.length
      (pre.length + 1) hlt (by rw [hbyte, hi, readEscape, if_neg (by omega)])
      (by rw [hbyte, hn, readEscape, if_neg (by omega)]) (by simp only [List.length_append, List.length_cons]; omega)]
    have hc := hcontent [(id % 256).toUInt8 <<< 4 ||| data.length.toUInt8] (by rw [hhead]; rfl)
    rw [List.singleton_append, hhead] at hc
    have hoff : pre.length + 1 + data.length =
        (pre ++ (((id % 256).toUInt8 <<< 4 ||| data.length.toUInt8) :: data)).length := by
      simp only [List.length_append, List.length_cons]
      omega
    rw [hc, hoff, hhead]
  · -- the size escape: the header byte, then the extra length byte
    have hi : ((((id % 256).toUInt8 <<< 4) ||| 0x0f) >>> 4).toNat = id :=
      (nibbles_of_lt (i := id) (n := 15) (by omega) (by omega)).1
    have hn : ((((id % 256).toUInt8 <<< 4) ||| 0x0f) &&& 0x0f).toNat = 15 :=
      (nibbles_of_lt (i := id) (n := 15) (by omega) (by omega)).2
    have hhead : headerLength data = 2 := if_neg hshort
    simp only [if_neg hshort]
    have hlt : pre.length < (pre ++ ((((id % 256).toUInt8 <<< 4) ||| 0x0f) ::
        (data.length - 0x0f).toUInt8 :: data) ++ rest).length := by
      simp only [List.length_append, List.length_cons]
      omega
    have hbyte : (pre ++ ((((id % 256).toUInt8 <<< 4) ||| 0x0f) ::
        (data.length - 0x0f).toUInt8 :: data) ++ rest)[pre.length] = ((id % 256).toUInt8 <<< 4) ||| 0x0f := by
      simp
    have hext : (pre ++ ((((id % 256).toUInt8 <<< 4) ||| 0x0f) ::
        (data.length - 0x0f).toUInt8 :: data) ++ rest).getD (pre.length + 1) 0 = (data.length - 0x0f).toUInt8 := by
      simp
    have hextNat : (data.length - 0x0f).toUInt8.toNat = data.length - 15 :=
      UInt8.toNat_ofNat_of_lt (by unfold UInt8.size; omega)
    rw [@parseLoop_of_header σ _ callback s pre.length id (pre.length + 1) data.length
      (pre.length + 1 + 1) hlt (by rw [hbyte, hi, readEscape, if_neg (by omega)])
      (by
        rw [hbyte, hn, readEscape, if_pos rfl, if_neg (by simp only [List.length_append, List.length_cons]; omega),
          hext, hextNat]
        congr 2
        omega)
      (by simp only [List.length_append, List.length_cons]; omega)]
    have hc := hcontent [((id % 256).toUInt8 <<< 4) ||| 0x0f, (data.length - 0x0f).toUInt8] (by rw [hhead]; rfl)
    rw [List.cons_append, List.singleton_append, hhead] at hc
    have hoff : pre.length + 1 + 1 + data.length = (pre ++ ((((id % 256).toUInt8 <<< 4) ||| 0x0f) ::
        (data.length - 0x0f).toUInt8 :: data)).length := by
      simp only [List.length_append, List.length_cons]
      omega
    rw [show pre.length + 2 = pre.length + 1 + 1 from rfl] at hc
    rw [hc, hoff, hhead]

theorem encodeAll_nil : encodeAll [] = .ok [] := rfl

/-- The encodings of a list of frames: the first frame's, then the rest's. -/
theorem encodeAll_cons_eq_ok {f : Nat × List UInt8} {frames : List (Nat × List UInt8)}
    {bytes : List UInt8} (h : encodeAll (f :: frames) = .ok bytes) :
    ∃ b bs, encode f.1 f.2 = .ok b ∧ encodeAll frames = .ok bs ∧ bytes = b ++ bs := by
  unfold encodeAll at h
  rw [List.mapM_cons] at h
  cases hb : encode f.1 f.2 with
  | error e =>
    rw [hb] at h
    cases h
  | ok b =>
    cases hbs : frames.mapM (fun f => encode f.1 f.2) with
    | error e =>
      rw [hb, hbs] at h
      cases h
    | ok bs =>
      rw [hb, hbs] at h
      injection h with h
      refine ⟨b, bs.flatten, rfl, by rw [encodeAll, hbs]; rfl, ?_⟩
      rw [← h]
      rfl

/-- Frames of ids below 15 and contents of at most `14 + 255` bytes, encoded
one after the other behind any bytes, are read back by a callback that never
stops the loop. The induction is on the frames. -/
theorem parseLoop_encodeAll (hall : ∀ s id bytes, (callback s id bytes).2 = true) :
    ∀ (frames : List (Nat × List UInt8)) (pre bytes : List UInt8) (s : σ),
      encodeAll frames = .ok bytes → (∀ f ∈ frames, f.1 < 15 ∧ f.2.length < 15 + 256) →
      ∃ s' parsed, parseLoop (pre ++ bytes) callback s pre.length = .ok (s', parsed) ∧
        parsed.map (fun f => (f.id, f.content.bytes (pre ++ bytes))) = frames
  | [], pre, bytes, s, h, _ => by
    rw [encodeAll_nil, Except.ok.injEq] at h
    subst h
    refine ⟨s, [], parseLoop_of_not_lt (by simp), rfl⟩
  | (id, data) :: frames, pre, bytes, s, h, hok => by
    obtain ⟨b, bs, hb, hbs, rfl⟩ := encodeAll_cons_eq_ok h
    obtain ⟨hid, hlen⟩ : id < 15 ∧ data.length < 15 + 256 := hok (id, data) List.mem_cons_self
    obtain ⟨s', parsed, hrun, hmap⟩ := parseLoop_encodeAll hall frames (pre ++ b) bs
      (callback s id data).1 hbs (fun f hf => hok f (List.mem_cons_of_mem _ hf))
    have hstep := @parseLoop_encode σ callback s id data b pre bs hid hlen hb
    rcases hcb : callback s id data with ⟨s₁, more⟩
    have hmore : more = true := by
      have := hall s id data
      rwa [hcb] at this
    subst hmore
    rw [hcb] at hstep hrun
    dsimp only at hstep hrun
    obtain ⟨hdr, rfl, hhdr⟩ := exists_header_of_encode hid hlen hb
    refine ⟨s', ⟨id, ⟨pre.length + headerLength data, data.length⟩⟩ :: parsed, ?_, ?_⟩
    · rw [← List.append_assoc, hstep, hrun]
      rfl
    · rw [List.map_cons, ← List.append_assoc, ← hhdr, bytes_content, ← hmap, List.append_assoc]

theorem parseFrameExtras_eq_parseLoop (fe : List UInt8) (s : σ) :
    parseFrameExtras fe callback s = parseLoop fe callback s 0 := by
  unfold parseFrameExtras
  split_ifs with hempty
  · rw [List.isEmpty_iff.mp hempty, parseLoop_of_not_lt (by simp)]
  · rfl

/-- Frames of ids below 15 and contents of at most `14 + 255` bytes, encoded
one after the other, parse back to themselves with a callback that never
stops the loop. -/
theorem parseFrameExtras_encodeAll (hall : ∀ s id bytes, (callback s id bytes).2 = true)
    {frames : List (Nat × List UInt8)} {bytes : List UInt8} (h : encodeAll frames = .ok bytes)
    (hok : ∀ f ∈ frames, f.1 < 15 ∧ f.2.length < 15 + 256) (s : σ) :
    ∃ s' parsed, parseFrameExtras bytes callback s = .ok (s', parsed) ∧
      parsed.map (fun f => (f.id, f.content.bytes bytes)) = frames := by
  rw [parseFrameExtras_eq_parseLoop]
  simpa using parseLoop_encodeAll hall frames [] bytes s h hok

/-- One encoded frame parses to one frame, whatever the callback answers. -/
theorem parseFrameExtras_encode {id : Nat} {data bytes : List UInt8} (hid : id < 15)
    (hlen : data.length < 15 + 256) (h : encode id data = .ok bytes) (s : σ) :
    ∃ s', parseFrameExtras bytes callback s = .ok (s', [⟨id, ⟨headerLength data, data.length⟩⟩]) := by
  have hstep := @parseLoop_encode σ callback s id data bytes [] [] hid hlen h
  simp only [List.nil_append, List.append_nil, List.length_nil, Nat.zero_add] at hstep
  rw [parseFrameExtras_eq_parseLoop]
  rcases hcb : callback s id data with ⟨s₁, more⟩
  cases more with
  | true =>
    -- the loop goes on, and stops at the end of the frame extras
    simp only [hcb, parseLoop_of_not_lt (Nat.lt_irrefl _)] at hstep
    exact ⟨s₁, hstep⟩
  | false =>
    simp only [hcb] at hstep
    exact ⟨s₁, hstep⟩

end Roundtrip

/-! ## Durability frames -/

/-- The content `DurabilityFrameInfo::encode()` writes: the level, and the
timeout unless it is the default. -/
theorem encode_durability {level : Level} (timeout : Timeout) (hlevel : level ≠ .none) :
    encode FrameInfoId.durabilityRequirement ((0x0f &&& level.toNat.toUInt8) ::
      (if timeout.isDefault then [] else be16 timeout.value)) = .ok (encodeDurability level timeout) := by
  rw [encode_eq_ok (by decide) (by split <;> simp)]
  unfold encodeDurability
  rw [if_neg hlevel]
  split <;> rfl

/-- `Requirements(buffer)` reads back the level and a finite timeout. -/
theorem requirementsOfBuffer_content {level : Level} {timeout : Timeout} (hlevel : level ≠ .none)
    (htimeout : timeout ≠ Timeout.infinity) :
    requirementsOfBuffer ((0x0f &&& level.toNat.toUInt8) ::
      (if timeout.isDefault then [] else be16 timeout.value)) = .ok (level, timeout) := by
  have hlevelOf : levelOfByte (0x0f &&& level.toNat.toUInt8) = some level := by
    cases level <;> first | exact absurd rfl hlevel | rfl
  have hvalid : requirementsIsValid (some level) = true := by
    cases level <;> first | exact absurd rfl hlevel | rfl
  obtain ⟨v⟩ := timeout
  unfold requirementsOfBuffer
  by_cases hdef : Timeout.isDefault ⟨v⟩
  · -- the level byte alone: the default timeout
    have hv : v = 0 := by simpa [Timeout.isDefault] using hdef
    subst hv
    simp [hdef, hlevelOf, hvalid]
    rfl
  · -- the level byte and the timeout in network order
    have hv0 : v ≠ 0 := by simpa [Timeout.isDefault] using hdef
    have hvinf : v ≠ 0xffff := fun h => htimeout (by rw [h]; rfl)
    have hread : readBe16 ((0x0f &&& level.toNat.toUInt8) :: be16 v) 1 = v := by
      have h := readBe16_append_left [0x0f &&& level.toNat.toUInt8] (be16 v ++ []) 0
      rwa [readBe16_be16, List.append_nil] at h
    have hwire : timeoutOfWire v = .ok ⟨v⟩ := by
      rw [timeoutOfWire, if_neg hv0, if_neg hvinf]
    simp [hdef, hlevelOf, hvalid, hread, hwire]

/-- A durability frame of a level other than `None` and a finite timeout
parses to one frame whose content `Requirements` reads back as them. -/
theorem parseFrameExtras_encodeDurability {σ : Type} (callback : σ → Nat → List UInt8 → σ × Bool)
    (s : σ) {level : Level} {timeout : Timeout} (hlevel : level ≠ .none) (htimeout : timeout ≠ Timeout.infinity) :
    ∃ s' frame, parseFrameExtras (encodeDurability level timeout) callback s = .ok (s', [frame]) ∧
      frame.id = FrameInfoId.durabilityRequirement ∧
      requirementsOfBuffer (frame.content.bytes (encodeDurability level timeout)) = .ok (level, timeout) := by
  have henc := encode_durability timeout hlevel
  have hlen : ((0x0f &&& level.toNat.toUInt8) ::
      (if timeout.isDefault then [] else be16 timeout.value)).length < 15 + 256 := by
    split <;> simp
  obtain ⟨s', hparse⟩ := @parseFrameExtras_encode σ callback _ _ _ (by decide) hlen henc s
  obtain ⟨hdr, hbytes, hhdr⟩ := exists_header_of_encode (by decide) hlen henc
  refine ⟨s', _, hparse, rfl, ?_⟩
  have hcontent := bytes_content [] hdr ((0x0f &&& level.toNat.toUInt8) ::
      (if timeout.isDefault then [] else be16 timeout.value)) []
  rw [List.nil_append, List.append_nil, List.length_nil, Nat.zero_add, ← hbytes, hhdr] at hcontent
  rw [hcontent]
  exact requirementsOfBuffer_content hlevel htimeout

/-! ## What the encoder writes and the parser refuses -/

end KvEngine.Mcbp
