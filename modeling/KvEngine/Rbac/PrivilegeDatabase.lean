import KvEngine.Rbac.Privileges
import KvEngine.Lib.AssocList
import KvEngine.Lib.Except

/-!
# The privilege database (`rbac/privilege_database.cc`)

A user's entry in the RBAC database grants privileges at four levels: the
user's own privileges, and in an entry per bucket (or the wildcard `*`) the
privileges at bucket level, per scope and per collection. The database is
built from a JSON document; a `PrivilegeContext` is the view of one user and
one bucket that every command checks its privilege against.

- `parsePrivileges`, `Collection.ofJson`, `Scope.ofJson`, `Bucket.ofJson`,
  `UserEntry.ofJson`, `PrivilegeDatabase.ofJson`: the constructors from JSON,
  with their exceptions. The scope and collection ids are the keys read by
  `std::stoul(key, &pos, 16)` (`stoul16`) and cast to `uint32_t`.
- `Collection`, `Scope`, `Bucket`, `UserEntry` carry as fields what their
  constructors guarantee: the masks under a bucket hold bucket privileges only,
  a user's own mask none of them, and the maps have distinct keys.
- `PrivilegeDatabase.createContext`, `PrivilegeContext.dropPrivilege`,
  `PrivilegeContext.check`, `PrivilegeContext.checkForPrivilegeAtLeastInOneCollection`
  and the `check` of each level; `Cookie.testPrivilege` and
  `Cookie.checkForPrivilegeAtLeastInOneCollection` for impersonated requests.

The results:

- `check_eq_ok_iff`: `PrivilegeContext::check` succeeds exactly when the
  privilege is not dropped and `Granted` holds: the user has it, or the bucket
  entry grants it at bucket level (a bucket privilege), or at the scope or the
  collection asked about (a collection privilege).
- `check_of_check_none`, `check_of_check_scope`: a check that succeeds without
  a scope succeeds for every scope and collection, one that succeeds for a
  scope succeeds for every collection in it.
- `checkForPrivilegeAtLeastInOneCollection_of_check` and
  `check_of_checkForPrivilegeAtLeastInOneCollection`: the check "in at least
  one collection" succeeds when some check does, and the converse holds for
  every privilege but the bucket privileges that are not collection
  privileges: those are found in a scope's or a collection's mask although no
  `check` consults them there (`checkForPrivilegeAtLeastInOneCollection_finds_scoped_dcpProducer`).
-/

namespace KvEngine

namespace Rbac

open AssocList

/-! ## Privilege lists -/

/-- Masks holding privileges of one kind only: the bucket privileges when
`buckets` is true, the others when it is false. -/
def KindMask (buckets : Bool) : Type :=
  {m : PrivilegeMask // ∀ p, m.test p = true → isBucketPrivilege p = buckets}

/-- The default-constructed mask, of either kind. -/
def KindMask.empty (buckets : Bool) : KindMask buckets :=
  ⟨PrivilegeMask.empty, fun _ h => absurd h (by simp)⟩

/-- One element of a privilege list: `"all"` sets every bit, a name its
privilege's bit. -/
def addPrivilege (ret : PrivilegeMask) (priv : Json) : Except String PrivilegeMask := do
  let str ← priv.getString
  if str = "all" then
    pure PrivilegeMask.setAll
  else
    let p ← toPrivilege str
    pure (ret.set p true)

/-- The second loop of `parsePrivileges`: the bits of the other kind are
cleared. -/
def maskPrivileges (buckets : Bool) (ret : PrivilegeMask) : PrivilegeMask :=
  Privilege.all.foldl (fun ret p => if buckets == !isBucketPrivilege p then ret.set p false else ret) ret

/-- A loop that clears the bits of the privileges of `l` that pass `cond`. -/
theorem test_foldl_clear (cond : Privilege → Bool) (p : Privilege) :
    ∀ (l : List Privilege) (ret : PrivilegeMask),
      (l.foldl (fun ret q => if cond q then ret.set q false else ret) ret).test p =
        (ret.test p && !(decide (p ∈ l) && cond p))
  | [], ret => by simp
  | q :: l, ret => by
    rw [List.foldl_cons, test_foldl_clear cond p l]
    by_cases hq : cond q = true
    · by_cases hpq : p = q
      · subst hpq
        simp [hq]
      · simp [hq, hpq]
    · by_cases hpq : p = q
      · subst hpq
        simp [hq]
      · simp [hq, hpq]

theorem test_maskPrivileges (buckets : Bool) (ret : PrivilegeMask) (p : Privilege) :
    (maskPrivileges buckets ret).test p = (ret.test p && isBucketPrivilege p == buckets) := by
  rw [maskPrivileges, test_foldl_clear _ p, decide_eq_true (Privilege.mem_all p)]
  cases buckets <;> cases isBucketPrivilege p <;> simp

theorem kind_maskPrivileges (buckets : Bool) (ret : PrivilegeMask) (p : Privilege)
    (h : (maskPrivileges buckets ret).test p = true) : isBucketPrivilege p = buckets := by
  rw [test_maskPrivileges, Bool.and_eq_true, beq_iff_eq] at h
  exact h.2

/-- `parsePrivileges(privs, buckets)`: the privileges the list names, with those
of the other kind masked out. -/
def parsePrivileges (privs : Json) (buckets : Bool) : Except String (KindMask buckets) := do
  let ret ← privs.elements.foldlM addPrivilege PrivilegeMask.empty
  pure ⟨maskPrivileges buckets ret, kind_maskPrivileges buckets ret⟩

/-- The privilege list under `key`, the default mask when there is none. -/
def parsePrivilegesAt (json : Json) (key : String) (buckets : Bool) : Except String (KindMask buckets) :=
  match json.findKey key with
  | some privs => parsePrivileges privs buckets
  | none => pure (KindMask.empty buckets)

/-! ## Scope and collection ids -/

/-- `std::isspace` in the "C" locale. -/
def isSpace (c : Char) : Bool :=
  c == ' ' || c == '\t' || c == '\n' || c == '\x0b' || c == '\x0c' || c == '\r'

/-- The value of a hexadecimal digit. -/
def hexDigit? (c : Char) : Option Nat :=
  if '0' ≤ c ∧ c ≤ '9' then some (c.toNat - '0'.toNat)
  else if 'a' ≤ c ∧ c ≤ 'f' then some (c.toNat - 'a'.toNat + 10)
  else if 'A' ≤ c ∧ c ≤ 'F' then some (c.toNat - 'A'.toNat + 10)
  else none

/-- The hexadecimal digits at the front of `cs`: the value they spell after
`acc`, and how many there are. -/
def hexDigits : List Char → Nat → Nat × Nat
  | [], acc => (acc, 0)
  | c :: cs, acc =>
    match hexDigit? c with
    | some d =>
      let r := hexDigits cs (acc * 16 + d)
      (r.1, r.2 + 1)
    | none => (acc, 0)

/-- `std::stoul(str, &pos, 16)` with a 64-bit `unsigned long`, as `strtoul`
reads: white space, a sign, a `0x` prefix when a digit follows it, then the
digits; the value and `pos`. No digit throws `std::invalid_argument`, a value
past `ULONG_MAX` `std::out_of_range`; a minus sign negates in `unsigned long`. -/
def stoul16 (str : String) : Except String (Nat × Nat) :=
  let cs := str.toList
  let spaces := (cs.takeWhile isSpace).length
  let afterSpaces := cs.drop spaces
  let sign : Bool × Nat :=
    match afterSpaces with
    | '-' :: _ => (true, 1)
    | '+' :: _ => (false, 1)
    | _ => (false, 0)
  let afterSign := afterSpaces.drop sign.2
  let prefixLength :=
    match afterSign with
    | '0' :: x :: d :: _ => if (x == 'x' || x == 'X') && (hexDigit? d).isSome then 2 else 0
    | _ => 0
  let digits := hexDigits (afterSign.drop prefixLength) 0
  if digits.2 = 0 then .error "stoul"
  else if 2 ^ 64 ≤ digits.1 then .error "stoul"
  else .ok (if sign.1 then (2 ^ 64 - digits.1) % 2 ^ 64 else digits.1,
    spaces + sign.2 + prefixLength + digits.2)

/-- A scope's or a collection's id from its key: `std::stoul(key, &pos, 16)`
cast to `uint32_t`, and the whole key must have been read. -/
def parseId (extraCharacters : String) (key : String) : Except String UInt32 := do
  let r ← stoul16 key
  if key.length ≠ r.2 then throw extraCharacters
  pure (UInt32.ofNat r.1)

/-- The loop that fills an `unordered_map` from an object's members: each key
read by `parseKey`, each value by `parseValue`, then `emplace`d, so that a key
read twice keeps its first value. -/
def parseMembers {κ β : Type} [DecidableEq κ] (parseKey : String → Except String κ)
    (parseValue : String → Json → Except String β) (members : List (String × Json)) :
    Except String {l : List (κ × β) // (l.map Prod.fst).Nodup} :=
  members.foldlM
    (fun acc kv => do
      let k ← parseKey kv.1
      let v ← parseValue kv.1 kv.2
      pure ⟨emplace acc.1 k v, nodup_keys_emplace k v acc.2⟩)
    ⟨[], List.nodup_nil⟩

/-! ## The levels of an entry -/

/-- `cb::rbac::Collection`. -/
structure Collection where
  privilegeMask : PrivilegeMask
  /-- Parsed as a bucket's list: bucket privileges only. -/
  privilegeMask_bucket : ∀ p, privilegeMask.test p = true → isBucketPrivilege p = true

/-- `Collection::Collection(json)`. -/
def Collection.ofJson (json : Json) : Except String Collection :=
  match json.findKey "privileges" with
  | some privs => do
    let mask ← parsePrivileges privs true
    if mask.1.none then
      throw "rbac::Collection(json) \"collections\" with empty \"privileges\" is invalid"
    pure ⟨mask.1, mask.2⟩
  | none => throw "rbac::Collection(json) \"collections\" with no \"privileges\" key is invalid"

/-- `Collection::check`. -/
def Collection.check (c : Collection) (privilege : Privilege) : PrivilegeAccess :=
  if c.privilegeMask.test privilege then .ok else .fail

/-- `cb::rbac::Scope`. -/
structure Scope where
  privilegeMask : PrivilegeMask
  collections : List (UInt32 × Collection)
  privilegeMask_bucket : ∀ p, privilegeMask.test p = true → isBucketPrivilege p = true
  collections_nodup : (collections.map Prod.fst).Nodup

/-- `Scope::Scope(json)`. -/
def Scope.ofJson (json : Json) : Except String Scope := do
  let mask ← parsePrivilegesAt json "privileges" true
  let collections ←
    match json.findKey "collections" with
    | some cs => do
      let members ← cs.items
      parseMembers (parseId "Scope::Scope(): Extra characters present for CID")
        (fun _ => Collection.ofJson) members
    | none => pure ⟨[], List.nodup_nil⟩
  -- scopes can only have no/empty privileges if there are collections
  if collections.1.isEmpty && mask.1.none then
    throw "rbac::Scope(json) \"scopes\" with no \"privileges\" and no \"collections\" is invalid"
  pure ⟨mask.1, collections.1, mask.2, collections.2⟩

/-- `Scope::check`. -/
def Scope.check (s : Scope) (privilege : Privilege) (collection : Option UInt32)
    (parentHasCollectionPrivileges : Bool) : PrivilegeAccess :=
  if s.privilegeMask.test privilege then .ok
  else
    match collection with
    | none => .fail
    | some cid =>
      match s.collections.lookup cid with
      | some c => c.check privilege
      | none => if s.privilegeMask.any || parentHasCollectionPrivileges then .fail else .failNoPrivileges

/-- `Scope::checkForPrivilegeAtLeastInOneCollection`. -/
def Scope.checkForPrivilegeAtLeastInOneCollection (s : Scope) (privilege : Privilege) :
    PrivilegeAccess :=
  if s.privilegeMask.test privilege then .ok
  else if s.collections.any (fun e => e.2.check privilege == .ok) then .ok
  else .fail

/-- `cb::rbac::Bucket`. -/
structure Bucket where
  privilegeMask : PrivilegeMask
  scopes : List (UInt32 × Scope)
  privilegeMask_bucket : ∀ p, privilegeMask.test p = true → isBucketPrivilege p = true
  scopes_nodup : (scopes.map Prod.fst).Nodup

/-- `collectionPrivilegeExists`, which the constructor sets from the bucket's
own mask. -/
def Bucket.collectionPrivilegeExists (b : Bucket) : Bool :=
  Privilege.all.any fun p => isCollectionPrivilege p && b.privilegeMask.test p

/-- `Bucket::Bucket(json)`: an array is the old format, a plain privilege
list. -/
def Bucket.ofJson (json : Json) : Except String Bucket :=
  match json with
  | .arr _ => do
    let mask ← parsePrivileges json true
    pure ⟨mask.1, [], mask.2, List.nodup_nil⟩
  | _ => do
    let mask ← parsePrivilegesAt json "privileges" true
    let scopes ←
      match json.findKey "scopes" with
      | some ss => do
        let members ← ss.items
        parseMembers (parseId "Bucket::Bucket(): Extra characters present for SID")
          (fun _ => Scope.ofJson) members
      | none => pure ⟨[], List.nodup_nil⟩
    pure ⟨mask.1, scopes.1, mask.2, scopes.2⟩

/-- `Bucket::check`: the scopes are consulted for collection privileges only. -/
def Bucket.check (b : Bucket) (privilege : Privilege) (scope collection : Option UInt32) :
    PrivilegeAccess :=
  if b.privilegeMask.test privilege then .ok
  else
    match scope with
    | some sid =>
      if isCollectionPrivilege privilege then
        match b.scopes.lookup sid with
        | some s => s.check privilege collection b.collectionPrivilegeExists
        | none => if b.collectionPrivilegeExists then .fail else .failNoPrivileges
      else .fail
    | none => .fail

/-- `Bucket::checkForPrivilegeAtLeastInOneCollection`: every scope is
searched, whatever the privilege. -/
def Bucket.checkForPrivilegeAtLeastInOneCollection (b : Bucket) (privilege : Privilege) :
    PrivilegeAccess :=
  if b.privilegeMask.test privilege then .ok
  else if b.scopes.any (fun e => e.2.checkForPrivilegeAtLeastInOneCollection privilege == .ok) then .ok
  else .fail

/-! ## Users and the database -/

/-- `cb::sasl::Domain`. -/
inductive Domain where
  | «local»
  | external
  | unknown
  deriving DecidableEq, Repr

/-- `cb::sasl::to_domain`. -/
def toDomain (domain : String) : Except String Domain :=
  if domain = "local" ∨ domain = "builtin" ∨ domain = "couchbase" then .ok .local
  else if domain = "external" then .ok .external
  else if domain = "unknown" then .ok .unknown
  else .error ("cb::sasl::to_domain: invalid domain: " ++ domain)

/-- `UserIdent::is_internal(name)`. -/
def isInternal (name : String) : Bool :=
  !name.isEmpty && name.front == '@'

/-- `cb::rbac::UserEntry`. -/
structure UserEntry where
  privilegeMask : PrivilegeMask
  buckets : List (String × Bucket)
  /-- Parsed as a user's list: no bucket privilege. -/
  privilegeMask_notBucket : ∀ p, privilegeMask.test p = true → isBucketPrivilege p = false
  buckets_nodup : (buckets.map Prod.fst).Nodup

/-- `UserEntry::UserEntry(username, json, expectedDomain)`. -/
def UserEntry.ofJson (username : String) (json : Json) (expectedDomain : Domain) :
    Except String UserEntry := do
  let domain ← toDomain (← json.value "domain" "local")
  if domain ≠ expectedDomain then
    throw "UserEntry::UserEntry: Invalid domain in this context"
  if isInternal username ∧ domain ≠ .local then
    throw "UserEntry::UserEntry: Internal users should be local"
  let mask ← parsePrivilegesAt json "privileges" false
  let buckets ←
    match json.findKey "buckets" with
    | some (.obj members) => parseMembers (fun key => pure key) (fun _ => Bucket.ofJson) members
    | some _ => throw "UserEntry::UserEntry: \"buckets\" should be an object"
    | none => pure ⟨[], List.nodup_nil⟩
  pure ⟨mask.1, buckets.1, mask.2, buckets.2⟩

/-- `cb::rbac::PrivilegeDatabase`: the users' entries. -/
structure PrivilegeDatabase where
  userdb : List (String × UserEntry)
  userdb_nodup : (userdb.map Prod.fst).Nodup

/-- `to_index(domain)`, which the database's constructor calls first. -/
def toIndex : Domain → Except String Nat
  | .local => .ok 0
  | .external => .ok 1
  | .unknown => .error "to_index(): Using Unkown domain don't make sense"

/-- The entry the database gives `@internal` in the local domain. -/
def internalUserJson : Json :=
  .obj [("buckets", .obj []), ("domain", .str "local"), ("privileges", .arr [])]

/-- `PrivilegeDatabase::PrivilegeDatabase(json, domain)`: an `@internal` entry
of the document is dropped, and in the local domain replaced by one with no
privilege. -/
def PrivilegeDatabase.ofJson (json : Json) (domain : Domain) : Except String PrivilegeDatabase := do
  let _ ← toIndex domain
  let members ← json.items
  let users ← parseMembers (fun key => pure key) (fun username value => UserEntry.ofJson username value domain)
    members
  let kept := users.1.filter fun e => e.1 != "@internal"
  if domain = .local then
    let internal ← UserEntry.ofJson "@internal" internalUserJson .local
    pure ⟨emplace kept "@internal" internal, nodup_keys_emplace _ _ (nodup_keys_filter _ users.2)⟩
  else
    pure ⟨kept, nodup_keys_filter _ users.2⟩

/-- `PrivilegeContext`: the user's own privileges, the bucket entry the
context was made for, and the privileges dropped over the connection. -/
structure PrivilegeContext where
  mask : PrivilegeMask
  bucket : Option Bucket
  droppedPrivileges : PrivilegeMask

/-- `PrivilegeDatabase::lookup`: `NoSuchUserException(user)`. -/
def PrivilegeDatabase.lookup (db : PrivilegeDatabase) (user : String) : Except String UserEntry :=
  match db.userdb.lookup user with
  | some ue => .ok ue
  | none => .error user

/-- `PrivilegeDatabase::createContext(user, domain, bucket)`: the bucket's entry,
or the wildcard's; `NoSuchBucketException(bucket)` when there is neither. -/
def PrivilegeDatabase.createContext (db : PrivilegeDatabase) (user bucket : String) :
    Except String PrivilegeContext := do
  let ue ← db.lookup user
  if bucket.isEmpty then
    pure ⟨ue.privilegeMask, none, PrivilegeMask.empty⟩
  else
    match ue.buckets.lookup bucket with
    | some b => pure ⟨ue.privilegeMask, some b, PrivilegeMask.empty⟩
    | none =>
      match ue.buckets.lookup "*" with
      | some b => pure ⟨ue.privilegeMask, some b, PrivilegeMask.empty⟩
      | none => throw bucket

/-- `PrivilegeContext::dropPrivilege`. -/
def PrivilegeContext.dropPrivilege (ctx : PrivilegeContext) (privilege : Privilege) :
    PrivilegeContext :=
  { ctx with droppedPrivileges := ctx.droppedPrivileges.set privilege true }

/-- `PrivilegeContext::check(privilege, sid, cid)`. -/
def PrivilegeContext.check (ctx : PrivilegeContext) (privilege : Privilege)
    (sid cid : Option UInt32) : Except String PrivilegeAccess :=
  match sid, cid with
  | none, some _ => .error "PrivilegeContext::check: can't provide cid and no sid"
  | _, _ =>
    if ctx.droppedPrivileges.test privilege then .ok .fail
    else if ctx.mask.test privilege then .ok .ok
    else
      match ctx.bucket with
      | some b => if isBucketPrivilege privilege then .ok (b.check privilege sid cid) else .ok .fail
      | none => .ok .fail

/-- `PrivilegeContext::checkForPrivilegeAtLeastInOneCollection`. -/
def PrivilegeContext.checkForPrivilegeAtLeastInOneCollection (ctx : PrivilegeContext)
    (privilege : Privilege) : PrivilegeAccess :=
  if ctx.droppedPrivileges.test privilege then .fail
  else if ctx.mask.test privilege then .ok
  else
    match ctx.bucket with
    | some b => b.checkForPrivilegeAtLeastInOneCollection privilege
    | none => .fail

/-- The privilege part of a `Cookie`: the authenticated user's context, the
effective user's for an impersonated request, and the privileges the caller
granted the effective user explicitly. -/
structure Cookie where
  privilegeContext : PrivilegeContext
  euidPrivilegeContext : Option PrivilegeContext
  euidExtraPrivileges : PrivilegeMask

/-- `Cookie::testPrivilege`. -/
def Cookie.testPrivilege (cookie : Cookie) (privilege : Privilege) (sid cid : Option UInt32) :
    Except String PrivilegeAccess := do
  let ret ← cookie.privilegeContext.check privilege sid cid
  if !ret.success then return ret
  match cookie.euidPrivilegeContext with
  | some euid =>
    -- the caller explicitly granted the privilege
    if cookie.euidExtraPrivileges.test privilege then pure .ok
    else euid.check privilege sid cid
  | none => pure ret

/-- `Cookie::checkForPrivilegeAtLeastInOneCollection`. -/
def Cookie.checkForPrivilegeAtLeastInOneCollection (cookie : Cookie) (privilege : Privilege) :
    PrivilegeAccess :=
  let ret := cookie.privilegeContext.checkForPrivilegeAtLeastInOneCollection privilege
  match ret.success, cookie.euidPrivilegeContext with
  | true, some euid =>
    if cookie.euidExtraPrivileges.test privilege then .ok
    else euid.checkForPrivilegeAtLeastInOneCollection privilege
  | _, _ => ret

/-! ## What a check finds -/

/-- What a bucket entry grants for a check at `sid` and `cid`: its own mask,
or for a collection privilege the mask of the scope `sid` or of its
collection `cid`. -/
inductive Bucket.Grants (b : Bucket) (p : Privilege) : Option UInt32 → Option UInt32 → Prop
  | bucketLevel {sid cid} : b.privilegeMask.test p = true → b.Grants p sid cid
  | scopeLevel {s sc cid} : isCollectionPrivilege p = true → b.scopes.lookup s = some sc →
      sc.privilegeMask.test p = true → b.Grants p (some s) cid
  | collectionLevel {s sc c col} : isCollectionPrivilege p = true → b.scopes.lookup s = some sc →
      sc.collections.lookup c = some col → col.privilegeMask.test p = true → b.Grants p (some s) (some c)

/-- What a context made from `mask` and the bucket entry `entry` grants: the
user's own privileges, and the bucket privileges the entry grants. -/
def Granted (mask : PrivilegeMask) (entry : Option Bucket) (p : Privilege) (sid cid : Option UInt32) :
    Prop :=
  mask.test p = true ∨ ∃ b, entry = some b ∧ isBucketPrivilege p = true ∧ b.Grants p sid cid

theorem Collection.check_eq_ok_iff (c : Collection) (p : Privilege) :
    c.check p = .ok ↔ c.privilegeMask.test p = true := by
  unfold Collection.check
  by_cases hm : c.privilegeMask.test p = true
  · simp [hm]
  · simp [hm]

/-- A scope or a bucket without the id asked about answers with a failure of
one kind or the other. -/
theorem fail_or_failNoPrivileges_ne_ok (c : Bool) :
    (if c = true then PrivilegeAccess.fail else .failNoPrivileges) ≠ .ok := by
  cases c <;> simp

theorem Scope.check_eq_ok_iff (s : Scope) (p : Privilege) (collection : Option UInt32)
    (parentHasCollectionPrivileges : Bool) :
    s.check p collection parentHasCollectionPrivileges = .ok ↔
      s.privilegeMask.test p = true ∨
        ∃ c col, collection = some c ∧ s.collections.lookup c = some col ∧ col.privilegeMask.test p = true := by
  unfold Scope.check
  by_cases hm : s.privilegeMask.test p = true
  · simp [hm]
  · rw [if_neg hm, Bool.eq_false_iff.mpr hm]
    simp only [Bool.false_eq_true, false_or]
    cases collection with
    | none => simp
    | some c =>
      dsimp only
      cases hc : s.collections.lookup c with
      | none =>
        constructor
        · intro h
          exact absurd h (fail_or_failNoPrivileges_ne_ok _)
        · rintro ⟨_, _, hcid, hcol, _⟩
          cases hcid
          rw [hc] at hcol
          cases hcol
      | some col =>
        dsimp only
        rw [Collection.check_eq_ok_iff]
        constructor
        · intro h
          exact ⟨c, col, rfl, hc, h⟩
        · rintro ⟨_, _, hcid, hcol, h⟩
          cases hcid
          rw [hc] at hcol
          cases hcol
          exact h

theorem Bucket.check_eq_ok_iff (b : Bucket) (p : Privilege) (scope collection : Option UInt32) :
    b.check p scope collection = .ok ↔ b.Grants p scope collection := by
  unfold Bucket.check
  by_cases hm : b.privilegeMask.test p = true
  · rw [if_pos hm]
    exact ⟨fun _ => .bucketLevel hm, fun _ => rfl⟩
  rw [if_neg hm]
  constructor
  · intro h
    cases scope with
    | none => cases h
    | some s =>
      by_cases hc : isCollectionPrivilege p = true
      · simp only [hc, if_true] at h
        cases hs : b.scopes.lookup s with
        | none =>
          rw [hs] at h
          exact absurd h (fail_or_failNoPrivileges_ne_ok _)
        | some sc =>
          rw [hs, Scope.check_eq_ok_iff] at h
          rcases h with hsc | ⟨c, col, rfl, hcol, htest⟩
          · exact .scopeLevel hc hs hsc
          · exact .collectionLevel hc hs hcol htest
      · simp only [hc, Bool.false_eq_true, if_false] at h
        cases h
  · intro h
    -- the bucket's own mask does not have it: the grant is in the scope asked about
    cases h with
    | bucketLevel hm' => exact absurd hm' hm
    | scopeLevel hc hs hsc =>
      dsimp only
      rw [if_pos hc, hs, Scope.check_eq_ok_iff]
      exact .inl hsc
    | collectionLevel hc hs hcol htest =>
      dsimp only
      rw [if_pos hc, hs, Scope.check_eq_ok_iff]
      exact .inr ⟨_, _, rfl, hcol, htest⟩

/-- The checks a context makes, with the exception set aside. -/
theorem PrivilegeContext.check_eq (ctx : PrivilegeContext) (p : Privilege) (sid cid : Option UInt32)
    (hquery : sid = none → cid = none) :
    ctx.check p sid cid =
      if ctx.droppedPrivileges.test p then .ok .fail
      else if ctx.mask.test p then .ok .ok
      else
        match ctx.bucket with
        | some b => if isBucketPrivilege p then .ok (b.check p sid cid) else .ok .fail
        | none => .ok .fail := by
  cases sid with
  | none => rw [hquery rfl]; rfl
  | some s => rfl

/-- `PrivilegeContext::check` succeeds exactly for the privileges not dropped
that the context grants. -/
theorem PrivilegeContext.check_eq_ok_iff (ctx : PrivilegeContext) (p : Privilege) (sid cid : Option UInt32)
    (hquery : sid = none → cid = none) :
    ctx.check p sid cid = .ok .ok ↔
      ctx.droppedPrivileges.test p = false ∧ Granted ctx.mask ctx.bucket p sid cid := by
  rw [ctx.check_eq p sid cid hquery, Granted]
  by_cases hd : ctx.droppedPrivileges.test p = true
  · simp [hd]
  · rw [if_neg hd, Bool.eq_false_iff.mpr hd]
    by_cases hm : ctx.mask.test p = true
    · simp [hm]
    · rw [if_neg hm]
      cases hb : ctx.bucket with
      | none => simp [hm]
      | some b =>
        by_cases hbp : isBucketPrivilege p = true
        · simp [hm, hbp, Bucket.check_eq_ok_iff]
        · simp [hm, hbp]

/-! ## Scopes and collections asked about -/

/-- A bucket entry that grants without a scope grants for every scope and
collection. -/
theorem Bucket.Grants.of_none {b : Bucket} {p : Privilege} (h : b.Grants p none none)
    (sid cid : Option UInt32) : b.Grants p sid cid := by
  cases h with
  | bucketLevel hm => exact .bucketLevel hm

/-- A bucket entry that grants for a scope grants for every collection of it. -/
theorem Bucket.Grants.of_scope {b : Bucket} {p : Privilege} {s : UInt32} (h : b.Grants p (some s) none)
    (c : UInt32) : b.Grants p (some s) (some c) := by
  cases h with
  | bucketLevel hm => exact .bucketLevel hm
  | scopeLevel hc hs hsc => exact .scopeLevel hc hs hsc

theorem PrivilegeContext.check_of_check_none {ctx : PrivilegeContext} {p : Privilege}
    (h : ctx.check p none none = .ok .ok) (s : UInt32) (cid : Option UInt32) :
    ctx.check p (some s) cid = .ok .ok := by
  obtain ⟨hd, hm | ⟨b, hb, hbp, hg⟩⟩ := (ctx.check_eq_ok_iff p none none fun _ => rfl).mp h
  · exact (ctx.check_eq_ok_iff p (some s) cid fun h => nomatch h).mpr ⟨hd, .inl hm⟩
  · exact (ctx.check_eq_ok_iff p (some s) cid fun h => nomatch h).mpr ⟨hd, .inr ⟨b, hb, hbp, hg.of_none _ _⟩⟩

theorem PrivilegeContext.check_of_check_scope {ctx : PrivilegeContext} {p : Privilege} {s : UInt32}
    (h : ctx.check p (some s) none = .ok .ok) (c : UInt32) :
    ctx.check p (some s) (some c) = .ok .ok := by
  obtain ⟨hd, hm | ⟨b, hb, hbp, hg⟩⟩ := (ctx.check_eq_ok_iff p (some s) none fun h => nomatch h).mp h
  · exact (ctx.check_eq_ok_iff p (some s) (some c) fun h => nomatch h).mpr ⟨hd, .inl hm⟩
  · exact (ctx.check_eq_ok_iff p (some s) (some c) fun h => nomatch h).mpr ⟨hd, .inr ⟨b, hb, hbp, hg.of_scope c⟩⟩

/-! ## A privilege in at least one collection -/

theorem Scope.checkForPrivilegeAtLeastInOneCollection_eq_ok_iff (s : Scope) (p : Privilege) :
    s.checkForPrivilegeAtLeastInOneCollection p = .ok ↔
      s.privilegeMask.test p = true ∨
        ∃ c col, s.collections.lookup c = some col ∧ col.privilegeMask.test p = true := by
  have hany := any_eq_true_iff_lookup (fun _ col => col.check p == .ok) s.collections_nodup
  simp only [beq_iff_eq, Collection.check_eq_ok_iff] at hany
  unfold Scope.checkForPrivilegeAtLeastInOneCollection
  rw [← hany]
  by_cases hm : s.privilegeMask.test p = true
  · simp [hm]
  · cases s.collections.any (fun e => e.2.check p == .ok) <;> simp [hm]

theorem Bucket.checkForPrivilegeAtLeastInOneCollection_eq_ok_iff (b : Bucket) (p : Privilege) :
    b.checkForPrivilegeAtLeastInOneCollection p = .ok ↔
      b.privilegeMask.test p = true ∨
        ∃ s sc, b.scopes.lookup s = some sc ∧ sc.checkForPrivilegeAtLeastInOneCollection p = .ok := by
  have hany := any_eq_true_iff_lookup
    (fun _ sc => sc.checkForPrivilegeAtLeastInOneCollection p == .ok) b.scopes_nodup
  simp only [beq_iff_eq] at hany
  unfold Bucket.checkForPrivilegeAtLeastInOneCollection
  rw [← hany]
  by_cases hm : b.privilegeMask.test p = true
  · simp [hm]
  · cases b.scopes.any (fun e => e.2.checkForPrivilegeAtLeastInOneCollection p == .ok) <;> simp [hm]

theorem PrivilegeContext.checkForPrivilegeAtLeastInOneCollection_eq_ok_iff (ctx : PrivilegeContext)
    (p : Privilege) :
    ctx.checkForPrivilegeAtLeastInOneCollection p = .ok ↔
      ctx.droppedPrivileges.test p = false ∧
        (ctx.mask.test p = true ∨ ∃ b, ctx.bucket = some b ∧ b.checkForPrivilegeAtLeastInOneCollection p = .ok) := by
  unfold PrivilegeContext.checkForPrivilegeAtLeastInOneCollection
  by_cases hd : ctx.droppedPrivileges.test p = true
  · simp [hd]
  · rw [if_neg hd, Bool.eq_false_iff.mpr hd]
    by_cases hm : ctx.mask.test p = true
    · simp [hm]
    · rw [if_neg hm]
      cases ctx.bucket with
      | none => simp [hm]
      | some b => simp [hm]

/-- What a bucket entry grants at any level is found by the search over its
scopes and collections. -/
theorem Bucket.Grants.checkForPrivilegeAtLeastInOneCollection {b : Bucket} {p : Privilege}
    {sid cid : Option UInt32} (h : b.Grants p sid cid) :
    b.checkForPrivilegeAtLeastInOneCollection p = .ok := by
  rw [Bucket.checkForPrivilegeAtLeastInOneCollection_eq_ok_iff]
  cases h with
  | bucketLevel hm => exact .inl hm
  | scopeLevel _ hs hsc =>
    exact .inr ⟨_, _, hs, (Scope.checkForPrivilegeAtLeastInOneCollection_eq_ok_iff _ p).mpr (.inl hsc)⟩
  | collectionLevel _ hs hcol htest =>
    exact .inr ⟨_, _, hs,
      (Scope.checkForPrivilegeAtLeastInOneCollection_eq_ok_iff _ p).mpr (.inr ⟨_, _, hcol, htest⟩)⟩

theorem PrivilegeContext.checkForPrivilegeAtLeastInOneCollection_of_check {ctx : PrivilegeContext}
    {p : Privilege}
    (h : ctx.check p none none = .ok .ok ∨ ∃ s c, ctx.check p (some s) (some c) = .ok .ok) :
    ctx.checkForPrivilegeAtLeastInOneCollection p = .ok := by
  have hgranted : ∃ sid cid, ctx.droppedPrivileges.test p = false ∧ Granted ctx.mask ctx.bucket p sid cid := by
    rcases h with h | ⟨s, c, h⟩
    · exact ⟨none, none, (ctx.check_eq_ok_iff p none none fun _ => rfl).mp h⟩
    · exact ⟨some s, some c, (ctx.check_eq_ok_iff p (some s) (some c) fun h => nomatch h).mp h⟩
  obtain ⟨sid, cid, hd, hm | ⟨b, hb, _, hg⟩⟩ := hgranted
  · exact (ctx.checkForPrivilegeAtLeastInOneCollection_eq_ok_iff p).mpr ⟨hd, .inl hm⟩
  · exact (ctx.checkForPrivilegeAtLeastInOneCollection_eq_ok_iff p).mpr
      ⟨hd, .inr ⟨b, hb, hg.checkForPrivilegeAtLeastInOneCollection⟩⟩

/-- What the search finds in a scope or a collection is a check's grant when
the privilege is a collection privilege, the only kind `Bucket::check` looks
for below the bucket; a privilege of no bucket is in no mask of the entry. -/
theorem PrivilegeContext.check_of_checkForPrivilegeAtLeastInOneCollection {ctx : PrivilegeContext}
    {p : Privilege} (hp : isCollectionPrivilege p = true ∨ isBucketPrivilege p = false)
    (h : ctx.checkForPrivilegeAtLeastInOneCollection p = .ok) :
    ctx.check p none none = .ok .ok ∨ ∃ s c, ctx.check p (some s) (some c) = .ok .ok := by
  obtain ⟨hd, hm | ⟨b, hb, hat⟩⟩ := (ctx.checkForPrivilegeAtLeastInOneCollection_eq_ok_iff p).mp h
  · exact .inl ((ctx.check_eq_ok_iff p none none fun _ => rfl).mpr ⟨hd, .inl hm⟩)
  -- a mask under the bucket holds bucket privileges only, so `p` is one
  have hcollection : isBucketPrivilege p = true → isCollectionPrivilege p = true := fun hbp =>
    hp.resolve_right fun h => by rw [hbp] at h; cases h
  rcases (b.checkForPrivilegeAtLeastInOneCollection_eq_ok_iff p).mp hat with hbm | ⟨s, sc, hs, hsc⟩
  · exact .inl ((ctx.check_eq_ok_iff p none none fun _ => rfl).mpr
      ⟨hd, .inr ⟨b, hb, b.privilegeMask_bucket p hbm, .bucketLevel hbm⟩⟩)
  rcases (sc.checkForPrivilegeAtLeastInOneCollection_eq_ok_iff p).mp hsc with hscm | ⟨c, col, hcol, htest⟩
  · have hbp := sc.privilegeMask_bucket p hscm
    exact .inr ⟨s, 0, (ctx.check_eq_ok_iff p (some s) (some 0) fun h => nomatch h).mpr
      ⟨hd, .inr ⟨b, hb, hbp, .scopeLevel (hcollection hbp) hs hscm⟩⟩⟩
  · have hbp := col.privilegeMask_bucket p htest
    exact .inr ⟨s, c, (ctx.check_eq_ok_iff p (some s) (some c) fun h => nomatch h).mpr
      ⟨hd, .inr ⟨b, hb, hbp, .collectionLevel (hcollection hbp) hs hcol htest⟩⟩⟩

/-! ## Contexts made from the database -/

/-- The entry of `bucket` among the user's buckets, else the wildcard `*`'s;
none for the empty bucket name. -/
def UserEntry.bucketEntry (ue : UserEntry) (bucket : String) : Option Bucket :=
  if bucket.isEmpty then none else (ue.buckets.lookup bucket).or (ue.buckets.lookup "*")

/-- The context after `dropPrivilege` of each privilege of `dropped`. -/
def PrivilegeContext.dropPrivileges (ctx : PrivilegeContext) (dropped : List Privilege) :
    PrivilegeContext :=
  dropped.foldl PrivilegeContext.dropPrivilege ctx

theorem PrivilegeDatabase.createContext_eq_ok {db : PrivilegeDatabase} {user bucket : String}
    {ctx : PrivilegeContext} (h : db.createContext user bucket = .ok ctx) :
    ∃ ue, db.userdb.lookup user = some ue ∧ ctx.mask = ue.privilegeMask ∧
      ctx.bucket = ue.bucketEntry bucket ∧ ctx.droppedPrivileges = PrivilegeMask.empty := by
  unfold createContext lookup at h
  cases hu : db.userdb.lookup user with
  | none =>
    rw [hu] at h
    cases h
  | some ue =>
    rw [hu, Except.ok_bind] at h
    refine ⟨ue, rfl, ?_⟩
    unfold UserEntry.bucketEntry
    by_cases he : bucket.isEmpty = true
    · rw [if_pos he] at h ⊢
      obtain rfl := Except.pure_eq_ok.mp h
      exact ⟨rfl, rfl, rfl⟩
    · rw [if_neg he] at h ⊢
      cases hb : ue.buckets.lookup bucket with
      | some b =>
        rw [hb] at h
        obtain rfl := Except.pure_eq_ok.mp h
        exact ⟨rfl, rfl, rfl⟩
      | none =>
        -- no entry of its own: the wildcard's, or `NoSuchBucketException`
        rw [hb] at h
        cases hw : ue.buckets.lookup "*" with
        | some b =>
          rw [hw] at h
          obtain rfl := Except.pure_eq_ok.mp h
          exact ⟨rfl, rfl, rfl⟩
        | none =>
          rw [hw] at h
          exact absurd h Except.throw_ne_ok

/-- Dropping privileges changes only the dropped mask, which gets their bits. -/
theorem PrivilegeContext.dropPrivileges_spec (p : Privilege) :
    ∀ (dropped : List Privilege) (ctx : PrivilegeContext),
      (ctx.dropPrivileges dropped).mask = ctx.mask ∧ (ctx.dropPrivileges dropped).bucket = ctx.bucket ∧
        (ctx.dropPrivileges dropped).droppedPrivileges.test p =
          (ctx.droppedPrivileges.test p || decide (p ∈ dropped))
  | [], ctx => by simp [dropPrivileges]
  | q :: dropped, ctx => by
    obtain ⟨hm, hb, ht⟩ := dropPrivileges_spec p dropped (ctx.dropPrivilege q)
    refine ⟨hm, hb, ?_⟩
    change ((ctx.dropPrivilege q).dropPrivileges dropped).droppedPrivileges.test p = _
    rw [ht]
    by_cases hpq : p = q
    · simp [dropPrivilege, hpq]
    · simp [dropPrivilege, hpq]

/-- A check that returned a result was not asked about a collection without
its scope. -/
theorem PrivilegeContext.query_of_check_eq_ok {ctx : PrivilegeContext} {p : Privilege}
    {sid cid : Option UInt32} {r : PrivilegeAccess} (h : ctx.check p sid cid = .ok r) :
    sid = none → cid = none := by
  rintro rfl
  cases cid with
  | none => rfl
  | some c => cases h

/-! ## Impersonated requests -/

/-- `Cookie::testPrivilege` succeeds only when the authenticated user's check
does, and, for an impersonated request, the caller granted the privilege or the
effective user's check succeeds too. -/
theorem Cookie.testPrivilege_eq_ok {cookie : Cookie} {p : Privilege} {sid cid : Option UInt32}
    (h : cookie.testPrivilege p sid cid = .ok .ok) :
    cookie.privilegeContext.check p sid cid = .ok .ok ∧
      ∀ euid, cookie.euidPrivilegeContext = some euid →
        cookie.euidExtraPrivileges.test p = true ∨ euid.check p sid cid = .ok .ok := by
  unfold Cookie.testPrivilege at h
  obtain ⟨ret, hret, h⟩ := Except.bind_eq_ok.mp h
  cases ret with
  | fail => cases h
  | failNoPrivileges => cases h
  | ok =>
    refine ⟨hret, fun euid he => ?_⟩
    simp only [PrivilegeAccess.success, Bool.not_true, Bool.false_eq_true, if_false, he] at h
    by_cases hx : cookie.euidExtraPrivileges.test p = true
    · exact .inl hx
    · rw [if_neg hx] at h
      exact .inr h

/-- The same for `Cookie::checkForPrivilegeAtLeastInOneCollection`. -/
theorem Cookie.checkForPrivilegeAtLeastInOneCollection_eq_ok {cookie : Cookie} {p : Privilege}
    (h : cookie.checkForPrivilegeAtLeastInOneCollection p = .ok) :
    cookie.privilegeContext.checkForPrivilegeAtLeastInOneCollection p = .ok ∧
      ∀ euid, cookie.euidPrivilegeContext = some euid →
        cookie.euidExtraPrivileges.test p = true ∨ euid.checkForPrivilegeAtLeastInOneCollection p = .ok := by
  unfold Cookie.checkForPrivilegeAtLeastInOneCollection at h
  cases hret : cookie.privilegeContext.checkForPrivilegeAtLeastInOneCollection p with
  | fail =>
    rw [hret] at h
    cases h
  | failNoPrivileges =>
    rw [hret] at h
    cases h
  | ok =>
    refine ⟨rfl, fun euid he => ?_⟩
    simp only [hret, PrivilegeAccess.success, he] at h
    by_cases hx : cookie.euidExtraPrivileges.test p = true
    · exact .inl hx
    · rw [if_neg hx] at h
      exact .inr h

/-! ## The checks of a context made from the database -/

/-- What the checks of the context `ctx`, made for `user` and `bucket` from
`db` and with the privileges `dropped` dropped, answer. -/
structure ContextSound (db : PrivilegeDatabase) (user bucket : String) (dropped : List Privilege)
    (ctx : PrivilegeContext) : Prop where
  /-- A check succeeds only for a privilege not dropped that the user's entry grants. -/
  check_granted : ∀ p sid cid, ctx.check p sid cid = .ok .ok →
    p ∉ dropped ∧ ∃ ue, db.userdb.lookup user = some ue ∧
      Granted ue.privilegeMask (ue.bucketEntry bucket) p sid cid
  /-- A check that succeeds without a scope succeeds for every scope and collection. -/
  check_none : ∀ p, ctx.check p none none = .ok .ok → ∀ s cid, ctx.check p (some s) cid = .ok .ok
  /-- A check that succeeds for a scope succeeds for every collection of it. -/
  check_scope : ∀ p s, ctx.check p (some s) none = .ok .ok → ∀ c, ctx.check p (some s) (some c) = .ok .ok
  /-- The search over the collections finds what a check finds. -/
  atLeast_of_check : ∀ p, (ctx.check p none none = .ok .ok ∨ ∃ s c, ctx.check p (some s) (some c) = .ok .ok) →
    ctx.checkForPrivilegeAtLeastInOneCollection p = .ok
  /-- And, but for a bucket privilege that is not a collection privilege, a check finds what the
  search finds. -/
  check_of_atLeast : ∀ p, isCollectionPrivilege p = true ∨ isBucketPrivilege p = false →
    ctx.checkForPrivilegeAtLeastInOneCollection p = .ok →
      ctx.check p none none = .ok .ok ∨ ∃ s c, ctx.check p (some s) (some c) = .ok .ok

/-- What the checks of a cookie answer: an impersonated request needs the
privilege in both contexts, or granted by the caller in the effective
user's. -/
structure CookieSound (cookie : Cookie) : Prop where
  testPrivilege : ∀ p sid cid, cookie.testPrivilege p sid cid = .ok .ok →
    cookie.privilegeContext.check p sid cid = .ok .ok ∧
      ∀ euid, cookie.euidPrivilegeContext = some euid →
        cookie.euidExtraPrivileges.test p = true ∨ euid.check p sid cid = .ok .ok
  checkForPrivilegeAtLeastInOneCollection : ∀ p, cookie.checkForPrivilegeAtLeastInOneCollection p = .ok →
    cookie.privilegeContext.checkForPrivilegeAtLeastInOneCollection p = .ok ∧
      ∀ euid, cookie.euidPrivilegeContext = some euid →
        cookie.euidExtraPrivileges.test p = true ∨ euid.checkForPrivilegeAtLeastInOneCollection p = .ok

/-- A check of a context made from the database finds the grants of the user's
entry; the kinds of privilege each level may hold, which the parse guarantees,
are carried by the entry's structures. -/
theorem contextSound_of_createContext {db : PrivilegeDatabase} {user bucket : String} {ctx : PrivilegeContext}
    (hctx : db.createContext user bucket = .ok ctx) (dropped : List Privilege) :
    ContextSound db user bucket dropped (ctx.dropPrivileges dropped) := by
  obtain ⟨ue, hue, hmask, hbucket, hdropped⟩ := PrivilegeDatabase.createContext_eq_ok hctx
  refine ⟨fun p sid cid h => ?_, fun p h s cid => PrivilegeContext.check_of_check_none h s cid,
    fun p s h c => PrivilegeContext.check_of_check_scope h c,
    fun p h => PrivilegeContext.checkForPrivilegeAtLeastInOneCollection_of_check h,
    fun p hp h => PrivilegeContext.check_of_checkForPrivilegeAtLeastInOneCollection hp h⟩
  obtain ⟨hm, hb, ht⟩ := PrivilegeContext.dropPrivileges_spec p dropped ctx
  obtain ⟨hd, hgranted⟩ :=
    ((ctx.dropPrivileges dropped).check_eq_ok_iff p sid cid (PrivilegeContext.query_of_check_eq_ok h)).mp h
  rw [ht, hdropped, PrivilegeMask.test_empty, Bool.false_or, decide_eq_false_iff_not] at hd
  rw [hm, hb, hmask, hbucket] at hgranted
  exact ⟨hd, ue, hue, hgranted⟩

/-- For every database (each one `PrivilegeDatabase(json, domain)` builds is
one), every context made from it for a user and a bucket and every set of
privileges dropped from it: a check succeeds only for a privilege not dropped
that the user's entry grants at the level asked about; a check that succeeds
higher up succeeds for what is below; the search "in at least one collection"
succeeds when a check does, and only then for every privilege but the bucket
privileges that are not collection privileges. For every cookie, an
impersonated request's checks succeed only when the authenticated user's do. -/
theorem privilegeContext_check_sound (db : PrivilegeDatabase) (user bucket : String) (ctx : PrivilegeContext)
    (hctx : db.createContext user bucket = .ok ctx) (dropped : List Privilege) :
    ContextSound db user bucket dropped (ctx.dropPrivileges dropped) ∧ ∀ cookie : Cookie, CookieSound cookie :=
  ⟨contextSound_of_createContext hctx dropped, fun _ =>
    ⟨fun _ _ _ h => Cookie.testPrivilege_eq_ok h,
      fun _ h => Cookie.checkForPrivilegeAtLeastInOneCollection_eq_ok h⟩⟩

/-- A user with `Read` on bucket `b`. -/
def readOnBucket : Json :=
  .obj [("u", .obj [("buckets", .obj [("b", .obj [("privileges", .arr [.str "Read"])])])])]

theorem privilegeContext_check_sound_readOnBucket :
    ∃ db ctx, PrivilegeDatabase.ofJson readOnBucket .local = .ok db ∧ db.createContext "u" "b" = .ok ctx ∧
      ContextSound db "u" "b" [.upsert] (ctx.dropPrivileges [.upsert]) ∧ ∀ cookie : Cookie, CookieSound cookie :=
  ⟨_, _, rfl, rfl, privilegeContext_check_sound _ "u" "b" _ rfl [.upsert]⟩

/-- A user granted `DcpProducer` on scope 8 of bucket `b`. -/
def dcpProducerOnScope : Json :=
  .obj [("u", .obj [("buckets", .obj [("b", .obj [("scopes",
    .obj [("8", .obj [("privileges", .arr [.str "DcpProducer"])])])])])])]

/-- A check never consults a scope for a privilege that is not a collection
privilege: the bucket's own mask decides. -/
theorem PrivilegeContext.check_of_not_isCollectionPrivilege (ctx : PrivilegeContext) {p : Privilege}
    (hp : isCollectionPrivilege p = false) (s : UInt32) (cid : Option UInt32) :
    ctx.check p (some s) cid = ctx.check p none none := by
  have hbucket : ∀ b : Bucket, b.check p (some s) cid = b.check p none none := by
    intro b
    unfold Bucket.check
    simp [hp]
  rw [ctx.check_eq p (some s) cid (fun h => nomatch h), ctx.check_eq p none none (fun _ => rfl)]
  cases ctx.bucket with
  | none => rfl
  | some b => simp only [hbucket]

/-- `DcpProducer` granted on a scope is found by the search over the
collections, although every check of the context fails for it. -/
theorem checkForPrivilegeAtLeastInOneCollection_finds_scoped_dcpProducer :
    ∃ db ctx, PrivilegeDatabase.ofJson dcpProducerOnScope .local = .ok db ∧
      db.createContext "u" "b" = .ok ctx ∧
      ctx.checkForPrivilegeAtLeastInOneCollection .dcpProducer = .ok ∧
      ctx.check .dcpProducer none none = .ok .fail ∧
      ∀ s cid, ctx.check .dcpProducer (some s) cid = .ok .fail := by
  refine ⟨_, _, rfl, rfl, rfl, rfl, fun s cid => ?_⟩
  rw [PrivilegeContext.check_of_not_isCollectionPrivilege _ rfl s cid]
  rfl

end Rbac

end KvEngine
