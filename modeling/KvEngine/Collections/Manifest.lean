import Mathlib

/-!
# The bucket manifest

`Collections::Manifest` is the bucket's set of scopes, each with its
collections, under a manifest uid; `set_collections` pushes a new one and
every vbucket's manifest is updated towards it.

- `CollectionMetaData`, `Scope`, `Manifest`: the manifest as its JSON
  constructor builds it. The two `unordered_map`s of the C++ are lists here,
  in one iteration order; `Manifest.collections` is the id-to-collection map
  the constructor builds from the scopes.
- `Manifest.Valid`: what the JSON constructor checks and the vbucket update
  relies on: distinct scope and collection ids, each collection inside its
  own scope, a `maxTTL` within `int32_t` and a `flush_uid` no later than the
  manifest.
-/

namespace KvEngine.Collections

/-- `ScopeID`. -/
abbrev ScopeID := Nat

/-- `CollectionID`. -/
abbrev CollectionID := Nat

/-- `ScopeID::Default`. -/
def ScopeID.Default : ScopeID := 0

/-- `CollectionID::Default`. -/
def CollectionID.Default : CollectionID := 0

/-- `CanDeduplicate`. -/
inductive CanDeduplicate where
  | no
  | yes
  deriving DecidableEq, Repr

/-- `Collections::Metered`. -/
inductive Metered where
  | no
  | yes
  deriving DecidableEq, Repr

/-- `getHistoryFromCanDeduplicate`: `history:true` is `CanDeduplicate::No`. -/
def getHistoryFromCanDeduplicate (value : CanDeduplicate) : Bool := value == .no

/-- `getCanDeduplicateFromHistory`. -/
def getCanDeduplicateFromHistory (value : Bool) : CanDeduplicate := if value then .no else .yes

/-- `getMeteredFromEnum`. -/
def getMeteredFromEnum (metered : Metered) : Bool := metered == .yes

/-- `getMetered`. -/
def getMetered (metered : Bool) : Metered := if metered then .yes else .no

@[simp] theorem getCanDeduplicateFromHistory_getHistoryFromCanDeduplicate (value : CanDeduplicate) :
    getCanDeduplicateFromHistory (getHistoryFromCanDeduplicate value) = value := by
  cases value <;> rfl

@[simp] theorem getMetered_getMeteredFromEnum (metered : Metered) :
    getMetered (getMeteredFromEnum metered) = metered := by
  cases metered <;> rfl

/-- `isSystemCollection(name, cid)`: a `_` name, other than the default
collection's. -/
def isSystemCollection (name : String) (cid : CollectionID) : Bool :=
  cid != CollectionID.Default && !name.isEmpty && name.front == '_'

/-- `isSystemScope(name, sid)`. -/
def isSystemScope (name : String) (sid : ScopeID) : Bool :=
  sid != ScopeID.Default && !name.isEmpty && name.front == '_'

/-- `CollectionMetaData`: a collection as the bucket manifest describes it. -/
structure CollectionMetaData where
  sid : ScopeID
  cid : CollectionID
  name : String
  maxTtl : Option Nat
  canDeduplicate : CanDeduplicate
  metered : Metered
  flushUid : Nat
  deriving DecidableEq, Repr

/-- `Collections::Scope`. -/
structure Scope where
  name : String
  collections : List CollectionMetaData
  deriving DecidableEq, Repr

/-- `Collections::Manifest`: its uid and its scopes. -/
structure Manifest where
  uid : Nat
  scopes : List (ScopeID × Scope)
  deriving DecidableEq, Repr

namespace Manifest

/-- The collection map the constructor builds from the scopes
(`buildCollectionIdToEntryMap`). -/
def collections (m : Manifest) : List CollectionMetaData := m.scopes.flatMap fun s => s.2.collections

/-- `findCollection(cid)`. -/
def findCollection (m : Manifest) (cid : CollectionID) : Option CollectionMetaData :=
  m.collections.find? fun c => c.cid == cid

/-- `findScope(sid)`. -/
def findScope (m : Manifest) (sid : ScopeID) : Option Scope := m.scopes.lookup sid

/-- What the JSON constructor guarantees of a manifest it builds. -/
structure Valid (m : Manifest) : Prop where
  scopes_nodup : (m.scopes.map Prod.fst).Nodup
  collections_nodup : (m.collections.map CollectionMetaData.cid).Nodup
  sid_eq : ∀ s ∈ m.scopes, ∀ c ∈ s.2.collections, c.sid = s.1
  maxTtl_lt : ∀ c ∈ m.collections, ∀ t ∈ c.maxTtl, t < 2 ^ 31
  flushUid_le : ∀ c ∈ m.collections, c.flushUid ≤ m.uid

end Manifest

end KvEngine.Collections
