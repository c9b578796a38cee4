import KvEngine.Lib.Except
import KvEngine.Mcbp.UnsignedLeb128

/-!
# Document keys on the wire and on disk
(`daemon/mcbp_validators.cc`, `utilities/dockey_view.cc`, `engines/ep/src/diskdockey.cc`)

On a connection that enabled collections, a document key is the collection
id as an unsigned LEB128 (`uint32_t`), followed by the logical key. The
validator checks the key; `DocKeyView` reads the id and the logical key back
out of it; `DiskDocKey` is the key the store files the document under, the
wire key with a `DurabilityPrepare` byte in front for a prepared write.

- `isDocumentKeyValid`: `McbpValidator::is_document_key_valid`, with the error
  context of each refusal.
- `DocKeyView` and its readers, `makeWireEncodedString`; `DiskDocKey`,
  `DiskDocKey.ofDocKeyView` (the constructor), `getDocKey`, `isPrepared`.

The results:

- `documentKey_names`: every key the validator accepts names its collection
  and logical key the same way through every reader, files under a disk key
  that says whether it is prepared and gives the key back, and is the wire
  encoding of its id and logical key whenever the payloads of its prefix fit
  32 bits.
- `diskDocKey_injective`, `diskDocKey_legacy`: two accepted keys share a disk
  key only when they are the same key in the same namespace; a legacy key shares
  one only with its default-collection wire key.
- `isDocumentKeyValid_accepts_overlong_key`: a five-byte prefix whose stop
  byte carries bits above bit 31 passes, and names the same document as the
  encoding of its id, under another disk key.
-/

namespace KvEngine.Mcbp

open UnsignedLeb128

namespace CollectionID

/-- `CollectionID::Default`. -/
def default : Nat := 0
/-- `CollectionID::SystemEvent`. -/
def systemEvent : Nat := 1
/-- `CollectionID::DurabilityPrepare`, the prefix of a prepared write's key. -/
def durabilityPrepare : Nat := 2
/-- `CollectionID::Reserved7`, the last reserved id. -/
def reserved7 : Nat := 7

/-- `CollectionID::isReserved`. -/
def isReserved (value : Nat) : Bool := systemEvent ≤ value && value ≤ reserved7

/-- The constructor `CollectionID(value)`, which refuses the ids from
`DurabilityPrepare` to `Reserved7`. -/
def make (value : Nat) : Except String Nat :=
  if durabilityPrepare ≤ value ∧ value ≤ reserved7 then .error ("CollectionID: invalid value:" ++ toString value)
  else .ok value

end CollectionID

/-- `KEY_MAX_LENGTH`. -/
def keyMaxLength : Nat := 250

/-- `MaxCollectionsLogicalKeyLen`. -/
def maxCollectionsLogicalKeyLen : Nat := 246

/-- `McbpValidator::is_document_key_valid`: the key passes, or the error
context it sets. -/
def isDocumentKeyValid (collectionsSupported : Bool) (key : List UInt8) : Except String Unit :=
  if !collectionsSupported then .ok ()
  else if key.length ≤ 1 then .error "Key length must be >= 2"
  else
    match decodeCanonical .uint32 key with
    | none =>
      -- the decoder that takes non-canonical encodings tells the two failures apart
      match decodeNoThrow .uint32 key with
      | some _ => .error "Key contains non-canonical leb128"
      | none => .error "No stop-byte found"
    | some (cid, rest) =>
      if rest.isEmpty then .error "No logical key found"
      else if CollectionID.isReserved cid then .error ("Invalid collection-id:" ++ toString cid)
      else
        let maxLen := if cid = CollectionID.default then keyMaxLength else maxCollectionsLogicalKeyLen
        if rest.length ≤ maxLen then .ok () else .error ("Logical key exceeds " ++ toString maxLen)

/-- `DocKeyEncodesCollectionId`. -/
inductive DocKeyEncodesCollectionId where
  | yes
  | no
  deriving DecidableEq, Repr

/-- `DocKeyView`: the key's bytes, and whether they start with a collection id. -/
structure DocKeyView where
  buffer : List UInt8
  encoding : DocKeyEncodesCollectionId
  deriving DecidableEq, Repr

namespace DocKeyView

/-- `getCollectionID()`: the throwing decode of the prefix, made a
`CollectionID`. -/
def getCollectionID (k : DocKeyView) : Except String Nat :=
  match k.encoding with
  | .yes => do
    let (cid, _) ← decode .uint32 k.buffer
    CollectionID.make cid
  | .no => .ok CollectionID.default

/-- `isInSystemEventCollection()`: the first byte alone. -/
def isInSystemEventCollection (k : DocKeyView) : Bool :=
  match k.encoding with
  | .yes => k.buffer.getD 0 0 == UInt8.ofNat CollectionID.systemEvent
  | .no => false

/-- `isInDefaultCollection()`: the first byte alone. -/
def isInDefaultCollection (k : DocKeyView) : Bool :=
  match k.encoding with
  | .yes => k.buffer.getD 0 0 == UInt8.ofNat CollectionID.default
  | .no => true

/-- `getIdAndKey()`. -/
def getIdAndKey (k : DocKeyView) : Except String (Nat × List UInt8) :=
  match k.encoding with
  | .yes => do
    let (cid, rest) ← decode .uint32 k.buffer
    let cid ← CollectionID.make cid
    pure (cid, rest)
  | .no => .ok (CollectionID.default, k.buffer)

/-- `makeDocKeyWithoutCollectionID()`: the bytes `skip_unsigned_leb128`
leaves. -/
def makeDocKeyWithoutCollectionID (k : DocKeyView) : Except String DocKeyView :=
  match k.encoding with
  | .yes => do
    let (_, rest) ← decode .uint32 k.buffer
    pure ⟨rest, .no⟩
  | .no => .ok k

/-- `makeWireEncodedString(cid, key)`. -/
def makeWireEncodedString (cid : Nat) (key : List UInt8) : List UInt8 := UnsignedLeb128.encode .uint32 cid ++ key

end DocKeyView

/-- `DefaultCollectionLeb128Encoded`. -/
def defaultCollectionLeb128Encoded : UInt8 := 0

/-- `DiskDocKey`: the bytes a document is stored under. -/
structure DiskDocKey where
  keydata : List UInt8
  deriving DecidableEq, Repr

namespace DiskDocKey

/-- `DiskDocKey(key, prepared)`: the prepare prefix, the default collection's
byte for a key without a collection id, then the key. -/
def ofDocKeyView (key : DocKeyView) (prepared : Bool) : DiskDocKey :=
  ⟨(if prepared then [UInt8.ofNat CollectionID.durabilityPrepare] else []) ++
    (if key.encoding = .no then [defaultCollectionLeb128Encoded] else []) ++ key.buffer⟩

/-- `getDocKey()`: the key after a prepare prefix. -/
def getDocKey (k : DiskDocKey) : Except String DocKeyView := do
  let (cid, rest) ← decode .uint32 k.keydata
  if cid = CollectionID.durabilityPrepare then pure ⟨rest, .yes⟩ else pure ⟨k.keydata, .yes⟩

/-- `isPrepared()`. -/
def isPrepared (k : DiskDocKey) : Except String Bool := do
  let (cid, _) ← decode .uint32 k.keydata
  pure (cid == CollectionID.durabilityPrepare)

end DiskDocKey

/-! ## What an accepted key names -/

namespace CollectionID

/-- An id the wire admits is a valid `CollectionID`. -/
theorem make_of_not_isReserved {cid : Nat} (h : isReserved cid = false) : make cid = .ok cid := by
  have hout : ¬ (durabilityPrepare ≤ cid ∧ cid ≤ reserved7) := by
    simp only [isReserved, Bool.and_eq_false_iff, decide_eq_false_iff_not] at h
    simp only [durabilityPrepare, systemEvent, reserved7] at h ⊢
    omega
  rw [make, if_neg hout]

end CollectionID

/-- The one inversion of the validator: an accepted key is a canonical id,
not a reserved one, and a non-empty logical key within its collection's
bound. -/
theorem isDocumentKeyValid_eq_ok {key : List UInt8} (h : isDocumentKeyValid true key = .ok ()) :
    ∃ cid rest, decodeCanonical .uint32 key = some (cid, rest) ∧ rest ≠ [] ∧
      CollectionID.isReserved cid = false ∧
      rest.length ≤ (if cid = CollectionID.default then keyMaxLength else maxCollectionsLogicalKeyLen) := by
  unfold isDocumentKeyValid at h
  simp only [Bool.not_true, Bool.false_eq_true, ↓reduceIte] at h
  split_ifs at h with hlen
  split at h
  · split at h <;> cases h
  · rename_i cid rest hdec
    generalize hm : (if cid = CollectionID.default then keyMaxLength else maxCollectionsLogicalKeyLen) = maxLen at h
    split_ifs at h with hempty hres hshort
    exact ⟨cid, rest, hdec, by simpa using hempty, by simpa using hres, hm ▸ hshort⟩

/-- The first byte of a canonical id agrees with the id on the ids a single
byte encodes, which is what the first-byte shortcuts of `DocKeyView` use. -/
theorem decodeCanonical_head_iff {b : UInt8} {l rest : List UInt8} {cid : Nat}
    (hdec : decodeCanonical .uint32 (b :: l) = some (cid, rest)) {c : Nat} (hc : c < 128) :
    b = UInt8.ofNat c ↔ cid = c := by
  obtain ⟨hstop, hcont⟩ := decodeCanonical_cons .uint32 (by decide) hdec
  rw [← UInt8.toNat_inj, toNat_ofNat_byte (by omega)]
  by_cases hb : b.toNat < 128
  · rw [(hstop hb).1]
  · have := hcont (by omega)
    constructor <;> intro <;> omega

/-- Every key the validator accepts splits into an id prefix and a non-empty
logical key, which every reader of `DocKeyView(k, Yes)` returns the same way;
the first-byte shortcuts agree with the decoded id; and the key is the wire
encoding of its id and logical key whenever the payloads of the prefix fit
32 bits. -/
theorem documentKey_names {k : List UInt8} (hk : isDocumentKeyValid true k = .ok ()) :
    ∃ cid pre rest, k = pre ++ rest ∧ rest ≠ [] ∧ CollectionID.isReserved cid = false ∧
      (⟨k, .yes⟩ : DocKeyView).getCollectionID = .ok cid ∧
      (⟨k, .yes⟩ : DocKeyView).getIdAndKey = .ok (cid, rest) ∧
      (⟨k, .yes⟩ : DocKeyView).makeDocKeyWithoutCollectionID = .ok ⟨rest, .no⟩ ∧
      ((⟨k, .yes⟩ : DocKeyView).isInDefaultCollection = true ↔ cid = CollectionID.default) ∧
      ((⟨k, .yes⟩ : DocKeyView).isInSystemEventCollection = true ↔ cid = CollectionID.systemEvent) ∧
      (digitsValue pre < 2 ^ 32 → DocKeyView.makeWireEncodedString cid rest = k) := by
  obtain ⟨cid, rest, hdec, hne, hres, -⟩ := isDocumentKeyValid_eq_ok hk
  obtain ⟨pre, hsplit, hv, hfit⟩ := decodeCanonical_eq_some .uint32 (by decide) hdec
  have hdecode := decode_of_decodeCanonical hdec
  have hmake := CollectionID.make_of_not_isReserved hres
  -- the shortcuts read the first byte, which a key of two or more bytes has
  obtain ⟨b, l, rfl⟩ : ∃ b l, k = b :: l := List.exists_cons_of_ne_nil (by
    rintro rfl
    simp at hsplit
    exact hne hsplit.2)
  refine ⟨cid, pre, rest, hsplit, hne, hres, ?_, ?_, ?_, ?_, ?_, fun hlt => ?_⟩
  · simp only [DocKeyView.getCollectionID, hdecode, Except.ok_bind, hmake]
  · simp only [DocKeyView.getIdAndKey, hdecode, Except.ok_bind, hmake, Except.pure_eq_ok]
  · simp only [DocKeyView.makeDocKeyWithoutCollectionID, hdecode, Except.ok_bind, Except.pure_eq_ok]
  · simp only [DocKeyView.isInDefaultCollection, List.getD_cons_zero, beq_iff_eq]
    exact decodeCanonical_head_iff hdec (by decide)
  · simp only [DocKeyView.isInSystemEventCollection, List.getD_cons_zero, beq_iff_eq]
    exact decodeCanonical_head_iff hdec (by decide)
  · rw [DocKeyView.makeWireEncodedString, hsplit, hfit hlt]

/-- No accepted key starts with the prepare namespace's byte: that byte is the
reserved id `DurabilityPrepare`. -/
theorem head_ne_durabilityPrepare {b : UInt8} {l : List UInt8} (hk : isDocumentKeyValid true (b :: l) = .ok ()) :
    b ≠ UInt8.ofNat CollectionID.durabilityPrepare := by
  obtain ⟨cid, rest, hdec, -, hres, -⟩ := isDocumentKeyValid_eq_ok hk
  rw [Ne, decodeCanonical_head_iff hdec (by decide)]
  rintro rfl
  exact absurd hres (by decide)

/-! ## The disk key -/

/-- A legacy key's wire form in the default collection: the byte `0x00`, then the key. -/
theorem makeWireEncodedString_default (k : List UInt8) :
    DocKeyView.makeWireEncodedString CollectionID.default k = UInt8.ofNat CollectionID.default :: k :=
  rfl

/-- The disk key of a key with a collection id: the prepare byte, then the key. -/
theorem keydata_ofDocKeyView_yes (k : List UInt8) (p : Bool) :
    (DiskDocKey.ofDocKeyView ⟨k, .yes⟩ p).keydata =
      if p then UInt8.ofNat CollectionID.durabilityPrepare :: k else k := by
  cases p <;> rfl

/-- The prepare byte decodes to `DurabilityPrepare`, and leaves the key after it. -/
theorem decode_durabilityPrepare (k : List UInt8) :
    decode .uint32 (UInt8.ofNat CollectionID.durabilityPrepare :: k) = .ok (CollectionID.durabilityPrepare, k) :=
  decode_stop .uint32 (by decide) k

/-- The decoded id of an accepted key, which is not the prepare namespace. -/
theorem decode_of_accepted {k : List UInt8} (hk : isDocumentKeyValid true k = .ok ()) :
    ∃ cid rest, decode .uint32 k = .ok (cid, rest) ∧ cid ≠ CollectionID.durabilityPrepare := by
  obtain ⟨cid, rest, hdec, -, hres, -⟩ := isDocumentKeyValid_eq_ok hk
  refine ⟨cid, rest, decode_of_decodeCanonical hdec, ?_⟩
  rintro rfl
  exact absurd hres (by decide)

/-- `DiskDocKey(K, p).isPrepared()` is `p` for every accepted key. -/
theorem isPrepared_ofDocKeyView {k : List UInt8} (hk : isDocumentKeyValid true k = .ok ()) (p : Bool) :
    (DiskDocKey.ofDocKeyView ⟨k, .yes⟩ p).isPrepared = .ok p := by
  rw [DiskDocKey.isPrepared, keydata_ofDocKeyView_yes]
  cases p with
  | true => simp only [↓reduceIte, decode_durabilityPrepare, Except.ok_bind, beq_self_eq_true, Except.pure_eq_ok]
  | false =>
    obtain ⟨cid, rest, hdecode, hcid⟩ := decode_of_accepted hk
    simp only [Bool.false_eq_true, ↓reduceIte, hdecode, Except.ok_bind, Except.pure_eq_ok, beq_eq_false_iff_ne]
    exact hcid

/-- `DiskDocKey(K, p).getDocKey()` gives `K` back for every accepted key. -/
theorem getDocKey_ofDocKeyView {k : List UInt8} (hk : isDocumentKeyValid true k = .ok ()) (p : Bool) :
    (DiskDocKey.ofDocKeyView ⟨k, .yes⟩ p).getDocKey = .ok ⟨k, .yes⟩ := by
  rw [DiskDocKey.getDocKey, keydata_ofDocKeyView_yes]
  cases p with
  | true => simp only [↓reduceIte, decode_durabilityPrepare, Except.ok_bind, Except.pure_eq_ok]
  | false =>
    obtain ⟨cid, rest, hdecode, hcid⟩ := decode_of_accepted hk
    simp only [Bool.false_eq_true, ↓reduceIte, hdecode, Except.ok_bind, hcid, Except.pure_eq_ok]

/-- Two accepted keys share a disk key only when they are the same key in the
same namespace: the disk key gives both back. -/
theorem diskDocKey_injective {k₁ k₂ : List UInt8} (h₁ : isDocumentKeyValid true k₁ = .ok ())
    (h₂ : isDocumentKeyValid true k₂ = .ok ()) {p₁ p₂ : Bool}
    (h : DiskDocKey.ofDocKeyView ⟨k₁, .yes⟩ p₁ = DiskDocKey.ofDocKeyView ⟨k₂, .yes⟩ p₂) :
    k₁ = k₂ ∧ p₁ = p₂ := by
  have hkey : (Except.ok ⟨k₁, .yes⟩ : Except String DocKeyView) = .ok ⟨k₂, .yes⟩ := by
    rw [← getDocKey_ofDocKeyView h₁ p₁, ← getDocKey_ofDocKeyView h₂ p₂, h]
  have hprep : (Except.ok p₁ : Except String Bool) = .ok p₂ := by
    rw [← isPrepared_ofDocKeyView h₁ p₁, ← isPrepared_ofDocKeyView h₂ p₂, h]
  cases hkey
  cases hprep
  exact ⟨rfl, rfl⟩

/-- A legacy key `k'` is filed as the default collection's wire key. It shares
a disk key with an accepted key only in the same namespace and when that key is
`k'` in the default collection. -/
theorem diskDocKey_legacy {k' k : List UInt8} (hk : isDocumentKeyValid true k = .ok ()) {p q : Bool}
    (h : DiskDocKey.ofDocKeyView ⟨DocKeyView.makeWireEncodedString CollectionID.default k', .yes⟩ p =
      DiskDocKey.ofDocKeyView ⟨k, .yes⟩ q) :
    p = q ∧ k = UInt8.ofNat CollectionID.default :: k' := by
  have hbytes := congrArg DiskDocKey.keydata h
  rw [keydata_ofDocKeyView_yes, keydata_ofDocKeyView_yes, makeWireEncodedString_default] at hbytes
  cases p <;> cases q
  · exact ⟨rfl, hbytes.symm⟩
  · -- the default collection's byte is not the prepare byte
    exact absurd (List.cons.inj hbytes).1 (by decide)
  · -- an accepted key never starts with the prepare byte
    obtain ⟨b, l, rfl⟩ : ∃ b l, k = b :: l := ⟨_, _, hbytes.symm⟩
    exact absurd (List.cons.inj hbytes).1.symm (head_ne_durabilityPrepare hk)
  · exact ⟨rfl, (List.cons.inj hbytes).2.symm⟩

/-- Two legacy keys share a disk key only when they are the same key in the
same namespace. -/
theorem diskDocKey_legacy_injective {k₁ k₂ : List UInt8} {p₁ p₂ : Bool}
    (h : DiskDocKey.ofDocKeyView ⟨DocKeyView.makeWireEncodedString CollectionID.default k₁, .yes⟩ p₁ =
      DiskDocKey.ofDocKeyView ⟨DocKeyView.makeWireEncodedString CollectionID.default k₂, .yes⟩ p₂) :
    k₁ = k₂ ∧ p₁ = p₂ := by
  have hbytes := congrArg DiskDocKey.keydata h
  rw [keydata_ofDocKeyView_yes, keydata_ofDocKeyView_yes, makeWireEncodedString_default,
    makeWireEncodedString_default] at hbytes
  cases p₁ <;> cases p₂
  · exact ⟨(List.cons.inj hbytes).2, rfl⟩
  · exact absurd (List.cons.inj hbytes).1 (by decide)
  · exact absurd (List.cons.inj hbytes).1 (by decide)
  · exact ⟨(List.cons.inj (List.cons.inj hbytes).2).2, rfl⟩

/-- The code bug: the validator accepts a five-byte prefix whose stop byte
`0x11` carries bit 32, which the decoders drop. The key names collection
`2^28` and logical key `a`, the same as the key that starts with the encoding
of `2^28`, yet is not that encoding, and the two are filed under two disk keys. -/
theorem isDocumentKeyValid_accepts_overlong_key :
    isDocumentKeyValid true [0x80, 0x80, 0x80, 0x80, 0x11, 0x61] = .ok () ∧
      (⟨[0x80, 0x80, 0x80, 0x80, 0x11, 0x61], .yes⟩ : DocKeyView).getCollectionID = .ok (2 ^ 28) ∧
      (⟨[0x80, 0x80, 0x80, 0x80, 0x11, 0x61], .yes⟩ : DocKeyView).makeDocKeyWithoutCollectionID =
        .ok ⟨[0x61], .no⟩ ∧
      DocKeyView.makeWireEncodedString (2 ^ 28) [0x61] ≠ [0x80, 0x80, 0x80, 0x80, 0x11, 0x61] ∧
      isDocumentKeyValid true [0x80, 0x80, 0x80, 0x80, 0x01, 0x61] = .ok () ∧
      (⟨[0x80, 0x80, 0x80, 0x80, 0x01, 0x61], .yes⟩ : DocKeyView).getIdAndKey = .ok (2 ^ 28, [0x61]) ∧
      ∀ p, DiskDocKey.ofDocKeyView ⟨[0x80, 0x80, 0x80, 0x80, 0x11, 0x61], .yes⟩ p ≠
        DiskDocKey.ofDocKeyView ⟨[0x80, 0x80, 0x80, 0x80, 0x01, 0x61], .yes⟩ p := by
  decide

end KvEngine.Mcbp
