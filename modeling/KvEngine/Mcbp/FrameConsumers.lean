import KvEngine.Mcbp.FrameInfo
import KvEngine.Rbac.PrivilegeDatabase

/-!
# What the server and the tools read from a request's frame infos
(`daemon/mcbp_validators.cc`, `protocol/mcbp/request.cc`, `protocol/mcbp/dump.cc`)

Three functions walk the frame infos of a request with `parseFrameExtras`:
the validator, which checks each frame and records it in the cookie;
`Request::to_json(true)`, which reports each frame in the request's JSON; and
the dump printer, which writes a line for each.

- `validateFrame`: the validator's callback, over the cookie fields it writes
  and its status; `validateFrameExtras`, the static
  `parseFrameExtras(cookie, request)` of the validator.
- `FrameField`: a decoded frame; `decodeContent`, the value the validator
  takes from a frame's content (what it hands the cookie's setter), and
  `FrameCookie.record`, what recording it does to the cookie.
- `toJsonFrame`, `dumpFrame`: the callbacks of `to_json` and of the dump
  printer. Their buffer is a pointer into the packet: a word read through it
  is read from the packet at the content's offset, and may run past the
  content.

The results:

- `parseLoop_of_continue`: a run whose callback stops only by leaving a state
  that no successful run ends in went on at every frame, and any callback that
  never stops is called on the same frames.
- `frameExtras_agree`: a request the validator accepts has every frame decoded
  by `decodeContent` and recorded; for every frame but
  `ImpersonateWithTokenAuthDataId`, `to_json` and the dump report that value,
  read from the content alone. For an `ImpersonateWithTokenAuthDataId` frame
  they report the validator's id times `2^16` plus the two bytes after the
  content, `ntohl` of a two-byte content.
- `toJson_reads_token_id_past_content`: such a request, where the two bytes
  after the content are the key's.
-/

namespace KvEngine.Mcbp

open ByteList
open KvEngine.Durability (Level Timeout)
open KvEngine.Rbac (Privilege PrivilegeMask Domain)

/-! ## The validator -/

/-- `cb::mcbp::Status`: what the frame checks return. -/
inductive Status where
  | success
  | einval
  | durabilityInvalidLevel
  | notSupported
  | eaccess
  | unknownFrameInfo
  deriving DecidableEq, Repr

/-- A byte string as the `std::string` of its bytes. -/
def bytesString (data : List UInt8) : String := String.ofList (data.map fun b => Char.ofNat b.toNat)

/-- `cb::rbac::UserIdent`. -/
structure UserIdent where
  name : List UInt8
  domain : Domain
  deriving DecidableEq, Repr

/-- The fields of the `Cookie` the validator writes. -/
structure FrameCookie where
  barrier : Bool
  preserveTtl : Bool
  euid : Option UserIdent
  euidExtraPrivileges : PrivilegeMask
  impersonateWithTokenAuthDataId : Option UInt16
  errorContext : String

/-- What the validator asks of the connection and of the cookie's privileges. -/
structure FrameEnv where
  /-- `is_durability_supported(opcode)`. -/
  durabilitySupported : Bool
  /-- `is_preserve_ttl_supported(opcode)`. -/
  preserveTtlSupported : Bool
  /-- `cookie.testPrivilege(Impersonate).success()` on the cookie as the loop
  has left it. -/
  testImpersonate : FrameCookie → Bool
  /-- The user `setImpersonateWithTokenAuthDataId(id)` takes from
  `connection.getTokenAuthDataById(id)`, or the `what()` of the
  `cb::engine_error` it throws. -/
  tokenAuthData : UInt16 → Except String UserIdent

namespace FrameCookie

/-- `Cookie::setErrorContext`. -/
def setErrorContext (c : FrameCookie) (message : String) : FrameCookie := { c with errorContext := message }

/-- `Cookie::setEffectiveUser`. -/
def setEffectiveUser (c : FrameCookie) (e : UserIdent) : FrameCookie × Status :=
  if e.name.isEmpty then (c.setErrorContext "Username must be at least one character", .einval)
  else ({ c with euid := some e }, .success)

/-- `Cookie::setImpersonateWithTokenAuthDataId`: the id is stored before the
lookup that may throw; the error carries the cookie as the throw leaves it. -/
def setImpersonateWithTokenAuthDataId (env : FrameEnv) (c : FrameCookie) (id : UInt16) :
    Except (FrameCookie × String) FrameCookie :=
  let c := { c with impersonateWithTokenAuthDataId := some id }
  match env.tokenAuthData id with
  | .ok user => .ok { c with euid := some user }
  | .error what => .error (c, what)

end FrameCookie

/-- The `what()` of what `Requirements(buffer)` throws. -/
def RequirementsError.what : RequirementsError → String
  | .invalidSize size => "Requirements(): Invalid sized buffer provided: " ++ toString size
  | .bucketDefaultTimeout => "Timeout(): Cannot specify bucket default timeout"
  | .infiniteTimeout => "Timeout(): Cannot specify an infinite timeout"
  | .invalidRequirement => "Requirements(): Content represents an invalid requirement specification"

/-- The validator's error context for a refused durability frame: the
exception's message with the prefix `Requirements(): ` trimmed off. -/
def trimRequirementsPrefix (msg : String) : String :=
  let pre := "Requirements(): "
  if pre.toList.isPrefixOf msg.toList then String.ofList (msg.toList.drop pre.length) else msg

/-- `'^'`, the first byte of an external user's name. -/
def externalMark : UInt8 := 0x5e

section Validate

open FrameInfoId

/-- The callback of the validator's `parseFrameExtras`: the cookie and the
status, and whether to go on. Each branch is one case of the source's switch;
an id no case names sets `UnknownFrameInfo`. -/
def validateFrame (env : FrameEnv) (st : FrameCookie × Status) (id : Nat) (data : List UInt8) :
    (FrameCookie × Status) × Bool :=
  let c := st.1
  if id = barrier then
    if !data.isEmpty then ((c.setErrorContext "Barrier should not contain value", .einval), false)
    else (({ c with barrier := true }, st.2), true)
  else if id = durabilityRequirement then
    match requirementsOfBuffer data with
    | .ok _ =>
      if !env.durabilitySupported then
        ((c.setErrorContext "The requested command does not support durability requirements", .einval), false)
      else (st, true)
    | .error e =>
      -- a size of 1 or 3 is a level the server does not know
      ((c.setErrorContext (trimRequirementsPrefix e.what),
        if data.length = 1 ∨ data.length = 3 then .durabilityInvalidLevel else .einval), false)
  else if id = dcpStreamId then
    if data.length ≠ 2 then
      ((c.setErrorContext ("DcpStreamId invalid size:" ++ toString data.length), .einval), false)
    else (st, true)
  else if id = impersonate then
    if data.isEmpty then ((c.setErrorContext "Impersonated user must be set", .einval), false)
    else
      let r := if data.head? = some externalMark then c.setEffectiveUser ⟨data.drop 1, .external⟩
        else c.setEffectiveUser ⟨data, .local⟩
      (r, r.2 == .success)
  else if id = preserveTtl then
    let r : FrameCookie × Status :=
      if data.isEmpty then
        if env.preserveTtlSupported then ({ c with preserveTtl := true }, st.2)
        else (c.setErrorContext "This command does not support PreserveTtl", .notSupported)
      else (c.setErrorContext "PreserveTtl should not contain value", .einval)
    (r, r.2 == .success)
  else if id = impersonateExtraPrivilege then
    if data.isEmpty then ((c.setErrorContext "Privilege name must be set", .einval), false)
    else
      match Rbac.toPrivilege (bytesString data) with
      | .ok p => (({ c with euidExtraPrivileges := c.euidExtraPrivileges.set p true }, st.2), true)
      | .error _ => ((c.setErrorContext "Failed to look up the privilege", .einval), false)
  else if id = impersonateWithTokenAuthDataId then
    if data.length ≠ 2 then
      ((c.setErrorContext ("ImpersonateWithTokenAuthDataId invalid size:" ++ toString data.length), .einval),
        false)
    else if !env.testImpersonate c then
      ((c.setErrorContext "ImpersonateWithTokenAuthDataId requires Impersonate privilege", .eaccess), false)
    else
      match c.setImpersonateWithTokenAuthDataId env (readBe16 data 0) with
      | .ok c' => ((c', st.2), true)
      | .error (c', what) => ((c'.setErrorContext what, .einval), false)
  else ((c, .unknownFrameInfo), false)

end Validate

/-- The validator's `parseFrameExtras(cookie, request)`: the status the
callback leaves; an encoding that runs past the frame extras is `Einval`. A
packet with no frame extras is left alone, as `verify_header` skips the call. -/
def validateFrameExtras (env : FrameEnv) (p : List UInt8) (c : FrameCookie) :
    Except HeaderError (FrameCookie × Status) :=
  match Request.parseFrameExtras p (validateFrame env) (c, .success) with
  | .ok ((c', status), _) => .ok (c', status)
  | .error (.frame _) => .ok (c.setErrorContext "Invalid encoding in FrameExtras", .einval)
  | .error (.header e) => .error e

/-! ## What each frame is -/

/-- A decoded frame info. -/
inductive FrameField where
  | barrier
  | durability (level : Level) (timeout : Timeout)
  | dcpStreamId (id : Nat)
  | euid (user : UserIdent)
  | preserveTtl
  | privilege (name : List UInt8)
  | euidTokenId (id : Nat)
  deriving DecidableEq, Repr

/-- The user an `Impersonate` frame names: `'^'` marks an external one. -/
def impersonatedUser (data : List UInt8) : UserIdent :=
  if data.head? = some externalMark then ⟨data.drop 1, .external⟩ else ⟨data, .local⟩

section Decode

open FrameInfoId

/-- The value the validator takes from a frame's content: the requirements it
builds, the stream id's 16 bits, the user, the privilege's name, the id it
hands `setImpersonateWithTokenAuthDataId`. -/
def decodeContent (id : Nat) (data : List UInt8) : Option FrameField :=
  if id = barrier then some .barrier
  else if id = durabilityRequirement then
    match requirementsOfBuffer data with
    | .ok (level, timeout) => some (.durability level timeout)
    | .error _ => none
  else if id = dcpStreamId then some (.dcpStreamId (readBe16 data 0).toNat)
  else if id = impersonate then some (.euid (impersonatedUser data))
  else if id = preserveTtl then some .preserveTtl
  else if id = impersonateExtraPrivilege then some (.privilege data)
  else if id = impersonateWithTokenAuthDataId then some (.euidTokenId (readBe16 data 0).toNat)
  else none

end Decode

/-- What recording a decoded frame does to the cookie: the flags, the user,
the extra privilege, the token's id and its user. -/
def FrameCookie.record (env : FrameEnv) (c : FrameCookie) : FrameField → FrameCookie
  | .barrier => { c with barrier := true }
  | .durability _ _ | .dcpStreamId _ => c
  | .euid user => { c with euid := some user }
  | .preserveTtl => { c with preserveTtl := true }
  | .privilege name =>
    match Rbac.toPrivilege (bytesString name) with
    | .ok p => { c with euidExtraPrivileges := c.euidExtraPrivileges.set p true }
    | .error _ => c
  | .euidTokenId id =>
    match env.tokenAuthData (UInt16.ofNat id) with
    | .ok user => { c with impersonateWithTokenAuthDataId := some (UInt16.ofNat id), euid := some user }
    | .error _ => c

/-! ## The two readers -/

section Readers

open FrameInfoId

/-- The frame's content as the callback gets it: the packet's bytes from the
end of the header plus the content's offset into the frame extras. -/
def contentAddr (f : Frame) : Nat := 24 + f.content.start

/-- The buffer the readers' callbacks get, as bytes of the packet. -/
def frameContent (p : List UInt8) (f : Frame) : List UInt8 := Slice.bytes p ⟨contentAddr f, f.content.len⟩

/-- The callback of `Request::to_json(true)`: what it writes under `frameid`
for the frame; `none` for an id no case names. `Requirements(buffer)` may
throw. -/
def toJsonFrame (p : List UInt8) (f : Frame) : Except RequirementsError (Option FrameField) :=
  let buffer := frameContent p f
  if f.id = barrier then .ok (some .barrier)
  else if f.id = durabilityRequirement then do
    let (level, timeout) ← requirementsOfBuffer buffer
    pure (some (.durability level timeout))
  -- `ntohs(*reinterpret_cast<const uint16_t*>(buffer.data()))`
  else if f.id = dcpStreamId then .ok (some (.dcpStreamId (readBe16 p (contentAddr f)).toNat))
  else if f.id = impersonate then
    if p.getD (contentAddr f) 0 = externalMark then .ok (some (.euid ⟨buffer.drop 1, .external⟩))
    else .ok (some (.euid ⟨buffer, .local⟩))
  else if f.id = preserveTtl then .ok (some .preserveTtl)
  else if f.id = impersonateExtraPrivilege then .ok (some (.privilege buffer))
  -- `ntohl(*reinterpret_cast<const uint32_t*>(buffer.data()))`
  else if f.id = impersonateWithTokenAuthDataId then .ok (some (.euidTokenId (readBe32 p (contentAddr f)).toNat))
  else .ok none

/-- `format_as(FrameInfoId)`, which throws for an id that is none of them. -/
def frameInfoIdName (id : Nat) : Except String String :=
  if id = barrier then .ok "Barrier"
  else if id = durabilityRequirement then .ok "DurabilityRequirement"
  else if id = dcpStreamId then .ok "DcpStreamId"
  else if id = impersonate then .ok "Impersonate"
  else if id = preserveTtl then .ok "PreserveTtl"
  else if id = impersonateExtraPrivilege then .ok "ImpersonateExtraPrivilege"
  else if id = impersonateWithTokenAuthDataId then .ok "ImpersonateWithTokenAuthDataId"
  else .error ("format_as(): Invalid frame id: " ++ toString id)

/-- The level as the dump prints it. -/
def levelName : Level → String
  | .none => "None"
  | .majority => "Majority"
  | .majorityAndPersistOnMaster => "MajorityAndPersistOnMaster"
  | .persistToMajority => "PersistToMajority"

/-- `to_string(Timeout)`. -/
def timeoutString (t : Timeout) : String :=
  if t.isDefault then "default" else if t.isInfinite then "infinite" else toString t.value.toNat

/-- The callback of the dump printer: the line it writes for the frame, or
the message of what it throws. -/
def dumpFrame (p : List UInt8) (f : Frame) : Except String String := do
  let payload := frameContent p f
  let name ← frameInfoIdName f.id
  if f.id = durabilityRequirement then
    match requirementsOfBuffer payload with
    | .ok (level, timeout) => pure (name ++ " Level=" ++ levelName level ++ ", Timeout=" ++ timeoutString timeout)
    | .error e => throw e.what
  else if f.id = dcpStreamId then pure (name ++ " DcpStreamId=" ++ toString (readBe16 p (contentAddr f)).toNat)
  else if f.id = impersonate then pure (name ++ " euid=" ++ bytesString payload)
  else if f.id = impersonateExtraPrivilege then pure (name ++ " privilege=" ++ bytesString payload)
  else if f.id = impersonateWithTokenAuthDataId then
    pure (name ++ " euid-token-id=" ++ toString (readBe32 p (contentAddr f)).toNat)
  else pure name

end Readers

/-- The line the dump writes for a decoded frame. An external user's name is
printed with its `'^'`. -/
def dumpField : FrameField → String
  | .barrier => "Barrier"
  | .durability level timeout =>
    "DurabilityRequirement" ++ " Level=" ++ levelName level ++ ", Timeout=" ++ timeoutString timeout
  | .dcpStreamId id => "DcpStreamId" ++ " DcpStreamId=" ++ toString id
  | .euid user =>
    "Impersonate" ++ " euid=" ++
      bytesString (if user.domain = .external then externalMark :: user.name else user.name)
  | .preserveTtl => "PreserveTtl"
  | .privilege name => "ImpersonateExtraPrivilege" ++ " privilege=" ++ bytesString name
  | .euidTokenId id => "ImpersonateWithTokenAuthDataId" ++ " euid-token-id=" ++ toString id

/-! ## Runs that go on at every frame -/

section Continue

variable {σ τ : Type} {fe : List UInt8} {callback : σ → Nat → List UInt8 → σ × Bool} (P : σ → Prop)

/-- A run of the loop whose callback keeps `P` when it goes on, and leaves a
state out of `P` when it stops, ended in `P` only if it went on at every frame:
each frame was handed to the callback at a state in `P`, and a callback that
never stops is called on the same frames. The recursion is the loop's. -/
theorem parseLoop_of_continue (hpres : ∀ s id b, P s → (callback s id b).2 = true → P (callback s id b).1)
    (hstop : ∀ s id b, P s → (callback s id b).2 = false → ¬P (callback s id b).1)
    (other : τ → Nat → List UInt8 → τ × Bool) (hother : ∀ t id b, (other t id b).2 = true)
    {s s' : σ} {offset : Nat} {frames : List Frame} (h : parseLoop fe callback s offset = .ok (s', frames))
    (hs : P s) (hs' : P s') (t : τ) :
    (∀ f ∈ frames, f.content.endOffset ≤ fe.length ∧ ∃ u, P u ∧ (callback u f.id (f.content.bytes fe)).2 = true) ∧
      ∃ t', parseLoop fe other t offset = .ok (t', frames) := by
  by_cases hlt : offset < fe.length
  · obtain ⟨idbits, offset₁, size, offset₂, hid, hsize, hin⟩ := parseLoop_inv hlt h
    have h₁ := le_of_readEscape hid
    have h₂ := le_of_readEscape hsize
    rw [parseLoop_of_header hlt hid hsize hin] at h
    have hturn := @parseLoop_of_header τ fe other t offset idbits offset₁ size offset₂ hlt hid hsize hin
    rcases hot : other t idbits (Slice.bytes fe ⟨offset₂, size⟩) with ⟨t₁, more'⟩
    have hmore' : more' = true := by
      have := hother t idbits (Slice.bytes fe ⟨offset₂, size⟩)
      rwa [hot] at this
    subst hmore'
    rw [hot] at hturn
    rcases hcb : callback s idbits (Slice.bytes fe ⟨offset₂, size⟩) with ⟨s₁, more⟩
    rw [hcb] at h
    cases more with
    | true =>
      obtain ⟨rest, hrest, rfl⟩ := bind_cons_eq_ok h
      have hs₁ : P s₁ := by
        have := hpres s idbits (Slice.bytes fe ⟨offset₂, size⟩) hs (by rw [hcb])
        rwa [hcb] at this
      obtain ⟨hall, t', ht'⟩ := parseLoop_of_continue hpres hstop other hother hrest hs₁ hs' t₁
      refine ⟨fun f hf => ?_, t', ?_⟩
      · rcases List.mem_cons.mp hf with rfl | hf
        · exact ⟨hin, s, hs, by rw [Slice.bytes] at hcb ⊢; rw [hcb]⟩
        · exact hall f hf
      · rw [hturn]
        dsimp only
        rw [ht']
        rfl
    | false =>
      -- the callback stopped the loop, in a state out of `P`
      injection h with h
      injection h with hs₁ _
      have hout := hstop s idbits (Slice.bytes fe ⟨offset₂, size⟩) hs (by rw [hcb])
      rw [hcb] at hout
      exact absurd (hs₁ ▸ hs') hout
  · rw [parseLoop_of_not_lt hlt] at h
    injection h with h
    injection h with _ hframes
    subst hframes
    exact ⟨fun f hf => (nomatch hf), t, parseLoop_of_not_lt hlt⟩
termination_by fe.length - offset

end Continue

/-! ## What the validator records -/

section Outcome

open FrameInfoId

theorem frameInfoId_cases (id : Nat) :
    id = barrier ∨ id = durabilityRequirement ∨ id = dcpStreamId ∨ id = impersonate ∨ id = preserveTtl ∨
      id = impersonateExtraPrivilege ∨ id = impersonateWithTokenAuthDataId ∨
      (id ≠ barrier ∧ id ≠ durabilityRequirement ∧ id ≠ dcpStreamId ∧ id ≠ impersonate ∧ id ≠ preserveTtl ∧
        id ≠ impersonateExtraPrivilege ∧ id ≠ impersonateWithTokenAuthDataId) := by
  unfold barrier durabilityRequirement dcpStreamId impersonate preserveTtl impersonateExtraPrivilege
    impersonateWithTokenAuthDataId
  omega

variable {env : FrameEnv} {c c' : FrameCookie} {data : List UInt8} {status : Status} {more : Bool}

/-- One turn of the validator from a successful state goes on exactly when
the status stays `Success`, and then records the value `decodeContent` takes
from the content. -/
theorem validateFrame_outcome {id : Nat} (h : validateFrame env (c, .success) id data = ((c', status), more)) :
    (more = true ↔ status = .success) ∧
      (more = true → ∃ v, decodeContent id data = some v ∧ c' = c.record env v) := by
  rcases frameInfoId_cases id with rfl | rfl | rfl | rfl | rfl | rfl | rfl | ⟨h₀, h₁, h₂, h₄, h₅, h₆, h₇⟩
  · -- Barrier
    simp +decide only [validateFrame, decodeContent, ↓reduceIte] at h ⊢
    split_ifs at h <;> simp only [Prod.mk.injEq] at h <;> obtain ⟨⟨rfl, rfl⟩, rfl⟩ := h <;>
      simp [FrameCookie.record]
  · -- DurabilityRequirement: the requirements are built before the opcode is asked
    simp +decide only [validateFrame, decodeContent, ↓reduceIte] at h ⊢
    split at h
    · rename_i r hr
      rw [hr]
      split_ifs at h <;> simp only [Prod.mk.injEq] at h <;> obtain ⟨⟨rfl, rfl⟩, rfl⟩ := h <;>
        simp [FrameCookie.record]
    · simp only [Prod.mk.injEq] at h
      obtain ⟨⟨rfl, rfl⟩, rfl⟩ := h
      split_ifs <;> simp
  · -- DcpStreamId
    simp +decide only [validateFrame, decodeContent, ↓reduceIte] at h ⊢
    split_ifs at h <;> simp only [Prod.mk.injEq] at h <;> obtain ⟨⟨rfl, rfl⟩, rfl⟩ := h <;>
      simp [FrameCookie.record]
  · -- Impersonate: the status is the one `setEffectiveUser` returns
    simp +decide only [validateFrame, decodeContent, FrameCookie.setEffectiveUser, impersonatedUser,
      ↓reduceIte] at h ⊢
    split_ifs at h <;> simp only [Prod.mk.injEq] at h <;> obtain ⟨⟨rfl, rfl⟩, rfl⟩ := h <;>
      simp_all [FrameCookie.record, FrameCookie.setErrorContext]
  · -- PreserveTtl
    simp +decide only [validateFrame, decodeContent, ↓reduceIte] at h ⊢
    split_ifs at h <;> simp only [Prod.mk.injEq] at h <;> obtain ⟨⟨rfl, rfl⟩, rfl⟩ := h <;>
      simp [FrameCookie.record]
  · -- ImpersonateExtraPrivilege
    simp +decide only [validateFrame, decodeContent, ↓reduceIte] at h ⊢
    split_ifs at h
    · simp only [Prod.mk.injEq] at h
      obtain ⟨⟨rfl, rfl⟩, rfl⟩ := h
      simp
    · split at h <;> rename_i hp <;> simp only [Prod.mk.injEq] at h <;> obtain ⟨⟨rfl, rfl⟩, rfl⟩ := h <;>
        simp [FrameCookie.record, hp]
  · -- ImpersonateWithTokenAuthDataId: the id is stored, then the lookup may throw
    simp +decide only [validateFrame, decodeContent, FrameCookie.setImpersonateWithTokenAuthDataId,
      ↓reduceIte] at h ⊢
    split_ifs at h
    · simp only [Prod.mk.injEq] at h
      obtain ⟨⟨rfl, rfl⟩, rfl⟩ := h
      simp
    · simp only [Prod.mk.injEq] at h
      obtain ⟨⟨rfl, rfl⟩, rfl⟩ := h
      simp
    · cases hu : env.tokenAuthData (readBe16 data 0) <;> simp only [hu, Prod.mk.injEq] at h <;>
        obtain ⟨⟨rfl, rfl⟩, rfl⟩ := h <;> simp [FrameCookie.record, hu]
  · -- an id no case names
    simp only [validateFrame, h₀, h₁, h₂, h₄, h₅, h₆, h₇, ↓reduceIte, Prod.mk.injEq] at h
    obtain ⟨⟨rfl, rfl⟩, rfl⟩ := h
    simp

/-- What a frame that the validator let through has: a content of two bytes
for a stream id or a token id, a user's name for an impersonation. -/
theorem validateFrame_content {id : Nat} (h : (validateFrame env (c, .success) id data).2 = true) :
    (id = dcpStreamId → data.length = 2) ∧ (id = impersonate → data ≠ []) ∧
      (id = impersonateWithTokenAuthDataId → data.length = 2) := by
  refine ⟨fun hid => ?_, fun hid => ?_, fun hid => ?_⟩ <;> subst hid <;>
    simp +decide only [validateFrame, ↓reduceIte] at h <;> by_contra hne
  · simp [hne] at h
  · simp [hne] at h
  · simp [hne] at h

/-- The validator goes on exactly while the status stays `Success`. -/
theorem validateFrame_continue_iff {id : Nat} :
    (validateFrame env (c, .success) id data).2 = true ↔ (validateFrame env (c, .success) id data).1.2 = .success :=
  (validateFrame_outcome rfl).1

end Outcome

/-! ## Reading through the buffer -/

/-- A buffer into the frame extras is the packet's bytes at the frame extras'
offset plus its own. -/
theorem bytes_bytes (p : List UInt8) {a n s m : Nat} (h : s + m ≤ n) :
    Slice.bytes (Slice.bytes p ⟨a, n⟩) ⟨s, m⟩ = Slice.bytes p ⟨a + s, m⟩ := by
  simp only [Slice.bytes, List.drop_take, List.drop_drop, List.take_take]
  rw [Nat.min_eq_left (by omega), Nat.add_comm]

/-- A 16-bit word read through a buffer of two bytes or more is the packet's
word at the buffer's start. -/
theorem readBe16_bytes (p : List UInt8) {off n : Nat} (h : 2 ≤ n) :
    readBe16 (Slice.bytes p ⟨off, n⟩) 0 = readBe16 p off := by
  simp only [readBe16, Slice.bytes, List.getElem?_take, List.getElem?_drop]
  rw [if_pos (by omega), if_pos (by omega), Nat.add_zero]

theorem head?_bytes {p : List UInt8} {sl : Slice} (h : Slice.bytes p sl ≠ []) :
    (Slice.bytes p sl).head? = some (p.getD sl.start 0) := by
  obtain ⟨x, xs, hx⟩ := List.exists_cons_of_ne_nil h
  have h0 := congrArg (·[0]?) hx
  simp only [Slice.bytes, List.getElem?_take, List.getElem?_drop] at h0
  rw [hx, List.head?_cons]
  simp only [List.getElem?_cons_zero] at h0
  split_ifs at h0
  rw [Nat.add_zero] at h0
  rw [List.getD_eq_getElem?_getD, h0, Option.getD_some]

/-- `ntohl` at `off` is `ntohs` at `off` followed by `ntohs` two bytes on. -/
theorem toNat_readBe32 (l : List UInt8) (off : Nat) :
    (readBe32 l off).toNat = (readBe16 l off).toNat * 2 ^ 16 + (readBe16 l (off + 2)).toNat := by
  have h₀ := (l[off]?.getD 0).toNat_lt
  have h₁ := (l[off + 1]?.getD 0).toNat_lt
  have h₂ := (l[off + 2]?.getD 0).toNat_lt
  have h₃ := (l[off + 3]?.getD 0).toNat_lt
  simp only [readBe32, readBe16, UInt32.toNat_ofNat', UInt16.toNat_ofNat']
  rw [show off + 2 + 1 = off + 3 from rfl]
  omega

/-! ## The readers against the validator -/

section Agree

open FrameInfoId

/-- What the two readers make of a frame the validator let through, against
the value the validator took from it: that value for every frame but a token
id's, whose 32-bit word runs two bytes past the content. -/
theorem readers_of_validateFrame {env : FrameEnv} {u : FrameCookie} {p : List UInt8} {f : Frame} {v : FrameField}
    (hgo : (validateFrame env (u, .success) f.id (frameContent p f)).2 = true)
    (hv : decodeContent f.id (frameContent p f) = some v) :
    (f.id ≠ impersonateWithTokenAuthDataId → toJsonFrame p f = .ok (some v) ∧ dumpFrame p f = .ok (dumpField v)) ∧
      (f.id = impersonateWithTokenAuthDataId → ∃ id, v = .euidTokenId id ∧
        toJsonFrame p f = .ok (some (.euidTokenId (id * 2 ^ 16 + (readBe16 p (contentAddr f + 2)).toNat))) ∧
        dumpFrame p f = .ok (dumpField (.euidTokenId (id * 2 ^ 16 + (readBe16 p (contentAddr f + 2)).toNat)))) := by
  obtain ⟨hdcp, himp, htok⟩ := validateFrame_content hgo
  -- a two-byte content is read the same through the packet
  have hword : (frameContent p f).length = 2 → readBe16 (frameContent p f) 0 = readBe16 p (contentAddr f) := by
    intro h2
    have hle : (frameContent p f).length ≤ f.content.len := List.length_take_le _ _
    exact readBe16_bytes p (by omega)
  rcases frameInfoId_cases f.id with h | h | h | h | h | h | h | ⟨h₀, h₁, h₂, h₄, h₅, h₆, h₇⟩
  · -- Barrier
    simp +decide only [decodeContent, h, ↓reduceIte, Option.some.injEq] at hv
    subst hv
    refine ⟨fun _ => ?_, fun h' => absurd (h.symm.trans h') (by decide)⟩
    simp +decide only [toJsonFrame, dumpFrame, frameInfoIdName, h, ↓reduceIte]
  · -- DurabilityRequirement: both readers build the requirements from the content
    rw [h] at hv
    unfold decodeContent at hv
    rw [if_neg (by decide), if_pos rfl] at hv
    split at hv
    · rename_i level timeout hr
      cases hv
      refine ⟨fun _ => ?_, fun h' => absurd (h.symm.trans h') (by decide)⟩
      simp +decide only [toJsonFrame, dumpFrame, frameInfoIdName, h, hr, ↓reduceIte]
      exact ⟨rfl, rfl⟩
    · cases hv
  · -- DcpStreamId: the 16 bits of a two-byte content
    simp +decide only [decodeContent, h, ↓reduceIte, Option.some.injEq] at hv
    subst hv
    refine ⟨fun _ => ?_, fun h' => absurd (h.symm.trans h') (by decide)⟩
    simp +decide only [toJsonFrame, dumpFrame, frameInfoIdName, h, ↓reduceIte, hword (hdcp h)]
    exact ⟨trivial, rfl⟩
  · -- Impersonate: the first byte of the content says whose the name is
    simp +decide only [decodeContent, h, ↓reduceIte, Option.some.injEq] at hv
    subst hv
    refine ⟨fun _ => ?_, fun h' => absurd (h.symm.trans h') (by decide)⟩
    obtain ⟨x, xs, hx⟩ := List.exists_cons_of_ne_nil (himp h)
    have hfirst : p.getD (contentAddr f) 0 = x := by
      have hhead : (frameContent p f).head? = some (p.getD (contentAddr f) 0) := head?_bytes (himp h)
      rw [hx] at hhead
      exact (Option.some.inj hhead).symm
    simp +decide only [toJsonFrame, dumpFrame, frameInfoIdName, h, ↓reduceIte, hfirst]
    rw [hx]
    by_cases hm : x = externalMark
    · simp only [hm, impersonatedUser, List.head?_cons, ↓reduceIte]
      exact ⟨trivial, rfl⟩
    · simp only [hm, impersonatedUser, List.head?_cons, Option.some.injEq, ↓reduceIte]
      exact ⟨trivial, rfl⟩
  · -- PreserveTtl
    simp +decide only [decodeContent, h, ↓reduceIte, Option.some.injEq] at hv
    subst hv
    refine ⟨fun _ => ?_, fun h' => absurd (h.symm.trans h') (by decide)⟩
    simp +decide only [toJsonFrame, dumpFrame, frameInfoIdName, h, ↓reduceIte]
  · -- ImpersonateExtraPrivilege: the name as it is
    simp +decide only [decodeContent, h, ↓reduceIte, Option.some.injEq] at hv
    subst hv
    refine ⟨fun _ => ?_, fun h' => absurd (h.symm.trans h') (by decide)⟩
    simp +decide only [toJsonFrame, dumpFrame, frameInfoIdName, h, ↓reduceIte]
    exact ⟨trivial, rfl⟩
  · -- ImpersonateWithTokenAuthDataId: a 32-bit word from a two-byte content
    simp +decide only [decodeContent, h, ↓reduceIte, Option.some.injEq] at hv
    subst hv
    refine ⟨fun h' => absurd h h', fun _ => ⟨_, rfl, ?_⟩⟩
    simp +decide only [toJsonFrame, dumpFrame, frameInfoIdName, h, ↓reduceIte, hword (htok h), toNat_readBe32]
    exact ⟨trivial, rfl⟩
  · -- an id no case names decodes to nothing
    simp only [decodeContent, h₀, h₁, h₂, h₄, h₅, h₆, h₇, ↓reduceIte, reduceCtorEq] at hv

theorem Request.parseFrameExtras_eq_ok {σ : Type} {p : List UInt8} {callback : σ → Nat → List UInt8 → σ × Bool}
    {s : σ} {r : σ × List Frame} (h : Request.parseFrameExtras p callback s = .ok r) :
    ∃ fe, getFramingExtras p = .ok fe ∧ parseLoop (fe.bytes p) callback s 0 = .ok r := by
  unfold Request.parseFrameExtras at h
  split at h
  · cases h
  · rename_i fe hfe
    rw [parseFrameExtras_eq_parseLoop] at h
    split at h
    · cases h
    · rename_i r' hr'
      cases h
      exact ⟨fe, hfe, hr'⟩

theorem getFramingExtras_start {p : List UInt8} {fe : Slice} (h : getFramingExtras p = .ok fe) : fe.start = 24 := by
  unfold getFramingExtras at h
  obtain ⟨alt, -, h⟩ := Except.bind_eq_ok.mp h
  cases Except.pure_eq_ok.mp h
  rfl

/-- A request the validator accepts: its run went on at every frame and any
reader is called on the same frames; the validator took each frame's value
from the content and recorded it, and both readers report that value, read
from the content alone, except a token id's, which they read as the
validator's id followed by the next two bytes of the packet. -/
theorem frameExtras_agree {env : FrameEnv} {p : List UInt8} {c c' : FrameCookie}
    (h : validateFrameExtras env p c = .ok (c', .success)) :
    ∃ frames, Request.parseFrameExtras p (validateFrame env) (c, .success) = .ok ((c', .success), frames) ∧
      (∀ (τ : Type) (reader : τ → Nat → List UInt8 → τ × Bool) (t : τ), (∀ t id b, (reader t id b).2 = true) →
        ∃ t', Request.parseFrameExtras p reader t = .ok (t', frames)) ∧
      ∀ f ∈ frames, ∃ u v, decodeContent f.id (frameContent p f) = some v ∧
        validateFrame env (u, .success) f.id (frameContent p f) = ((u.record env v, .success), true) ∧
        (f.id ≠ impersonateWithTokenAuthDataId →
          toJsonFrame p f = .ok (some v) ∧ dumpFrame p f = .ok (dumpField v)) ∧
        (f.id = impersonateWithTokenAuthDataId → ∃ id, v = .euidTokenId id ∧
          toJsonFrame p f = .ok (some (.euidTokenId (id * 2 ^ 16 + (readBe16 p (contentAddr f + 2)).toNat))) ∧
          dumpFrame p f = .ok (dumpField (.euidTokenId (id * 2 ^ 16 + (readBe16 p (contentAddr f + 2)).toNat)))) := by
  obtain ⟨frames, hrun⟩ : ∃ frames,
      Request.parseFrameExtras p (validateFrame env) (c, .success) = .ok ((c', .success), frames) := by
    unfold validateFrameExtras at h
    split at h
    · rename_i c'' status frames hrun
      cases h
      exact ⟨frames, hrun⟩
    · cases h
    · cases h
  obtain ⟨⟨start, len⟩, hfe, hloop⟩ := Request.parseFrameExtras_eq_ok hrun
  obtain rfl : start = 24 := getFramingExtras_start hfe
  -- the run stays at `Success`, so the validator went on at every frame
  have hpres : ∀ (s : FrameCookie × Status) id b, s.2 = .success → (validateFrame env s id b).2 = true →
      (validateFrame env s id b).1.2 = .success := by
    rintro ⟨s, status⟩ id b rfl hgo
    exact validateFrame_continue_iff.mp hgo
  have hstop : ∀ (s : FrameCookie × Status) id b, s.2 = .success → (validateFrame env s id b).2 = false →
      ¬(validateFrame env s id b).1.2 = .success := by
    rintro ⟨s, status⟩ id b rfl hstop hok
    rw [← validateFrame_continue_iff, hstop] at hok
    cases hok
  have hcont := fun τ (reader : τ → Nat → List UInt8 → τ × Bool) hreader t =>
    parseLoop_of_continue (fun s : FrameCookie × Status => s.2 = .success) hpres hstop reader hreader hloop rfl
      rfl t
  refine ⟨frames, hrun, fun τ reader t hreader => ?_, fun f hf => ?_⟩
  · obtain ⟨-, t', ht'⟩ := hcont τ reader hreader t
    refine ⟨t', ?_⟩
    rw [Request.parseFrameExtras, hfe]
    dsimp only
    rw [parseFrameExtras_eq_parseLoop, ht']
  · obtain ⟨hend, ⟨u, status⟩, hu, hgo⟩ := (hcont Unit (fun t _ _ => (t, true)) (fun _ _ _ => rfl) ()).1 f hf
    dsimp only at hu
    subst hu
    -- the content the callback got is the packet's bytes at the content's offset
    have hcontent : f.content.bytes (Slice.bytes p ⟨24, len⟩) = frameContent p f := by
      have hle : (Slice.bytes p ⟨24, len⟩).length ≤ len := List.length_take_le _ _
      unfold Slice.endOffset at hend
      exact bytes_bytes p (s := f.content.start) (m := f.content.len) (by omega)
    rw [hcontent] at hgo
    rcases hres : validateFrame env (u, .success) f.id (frameContent p f) with ⟨⟨c₁, status₁⟩, more⟩
    rw [hres] at hgo
    dsimp only at hgo
    subst hgo
    obtain ⟨hiff, hrec⟩ := validateFrame_outcome hres
    obtain ⟨v, hv, rfl⟩ := hrec rfl
    obtain rfl := hiff.mp rfl
    have hgo : (validateFrame env (u, .success) f.id (frameContent p f)).2 = true := by rw [hres]
    exact ⟨u, v, hv, hres, readers_of_validateFrame hgo hv⟩

end Agree

/-! ## A token id read past its content -/

/-- A cookie before the frame checks. -/
def FrameCookie.empty : FrameCookie := ⟨false, false, none, .empty, none, ""⟩

/-- An `AltClientRequest` whose framing extras are one
`ImpersonateWithTokenAuthDataId` frame, `0x72 0x12 0x34` (id 7, two bytes of
content, the id `0x1234`), followed by the key `ab`. -/
def tokenRequest : List UInt8 :=
  [0x08, 0x00, 0x03, 0x02, 0x00, 0x00, 0x00, 0x00, 0x00, 0x00, 0x00, 0x05, 0, 0, 0, 0, 0, 0, 0, 0, 0, 0, 0, 0,
    0x72, 0x12, 0x34, 0x61, 0x62]

/-- A connection whose user may impersonate and which knows the token `0x1234`. -/
def tokenEnv : FrameEnv := ⟨true, true, fun _ => true, fun _ => .ok ⟨[0x75], .local⟩⟩

/-- Any callback is called once on `tokenRequest`, on the token frame. -/
theorem tokenRequest_parse {σ : Type} (cb : σ → Nat → List UInt8 → σ × Bool) (s : σ) :
    Request.parseFrameExtras tokenRequest cb s =
      .ok ((cb s 7 [0x12, 0x34]).1, [⟨7, ⟨1, 2⟩⟩]) := by
  unfold Request.parseFrameExtras
  rw [show getFramingExtras tokenRequest = .ok ⟨24, 3⟩ from rfl]
  dsimp only
  rw [parseFrameExtras_eq_parseLoop,
    @parseLoop_of_header σ (Slice.bytes tokenRequest ⟨24, 3⟩) cb s 0 7 1 2 1 (by decide) rfl rfl (by decide)]
  have hcontent : Slice.bytes (Slice.bytes tokenRequest ⟨24, 3⟩) ⟨1, 2⟩ = [0x12, 0x34] := rfl
  rw [hcontent]
  rcases cb s 7 [0x12, 0x34] with ⟨s₁, more⟩
  cases more
  · rfl
  · dsimp only
    rw [parseLoop_of_not_lt (by decide)]
    rfl

/-- The validator accepts `tokenRequest` and records the id `0x1234` from the
frame's two bytes; `to_json` and the dump read four bytes from there and report
`0x12346162`, the id followed by the key. -/
theorem toJson_reads_token_id_past_content :
    (∃ c', validateFrameExtras tokenEnv tokenRequest FrameCookie.empty = .ok (c', .success) ∧
      c'.impersonateWithTokenAuthDataId = some 0x1234) ∧
    frameContent tokenRequest ⟨7, ⟨1, 2⟩⟩ = [0x12, 0x34] ∧
    toJsonFrame tokenRequest ⟨7, ⟨1, 2⟩⟩ = .ok (some (.euidTokenId 0x12346162)) ∧
    dumpFrame tokenRequest ⟨7, ⟨1, 2⟩⟩ = .ok "ImpersonateWithTokenAuthDataId euid-token-id=305422690" := by
  refine ⟨⟨{ FrameCookie.empty with euid := some ⟨[0x75], .local⟩, impersonateWithTokenAuthDataId := some 0x1234 },
    ?_, rfl⟩, rfl, rfl, by decide⟩
  unfold validateFrameExtras
  rw [tokenRequest_parse]
  rfl
end KvEngine.Mcbp
