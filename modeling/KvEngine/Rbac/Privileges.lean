import Mathlib
import KvEngine.Json

/-!
# RBAC privileges (`cb::rbac::Privilege`)

The privileges a connection may hold, and the bitsets the privilege database
keeps of them (`rbac/privileges.cc`, `include/memcached/rbac/privileges.h`).

- `Privilege`: the enumeration, in its declared order (the order of the
  bitsets' indices), with `Privilege.all` the list of every value.
- `isBucketPrivilege`, `isCollectionPrivilege`: `is_bucket_privilege` and
  `is_collection_privilege`. Every collection privilege is a bucket privilege
  (`isBucketPrivilege_of_isCollectionPrivilege`); three bucket privileges are
  not collection privileges: `DcpConsumer`, `DcpProducer` and `Settings`.
- `toPrivilege`: `to_privilege`, the lookup in `privilegemap`.
- `PrivilegeMask`: `std::bitset` with one bit per privilege, and the bitset
  operations the database uses (`set()`, `mask[p] = v`, `none()`, `any()`).
- `PrivilegeAccess`: the three results of a check.
-/

namespace KvEngine

namespace Rbac

/-- `cb::rbac::Privilege`. -/
inductive Privilege where
  | read
  | insert
  | delete
  | upsert
  | simpleStats
  | stats
  | nodeSupervisor
  | administrator
  | audit
  | dcpConsumer
  | dcpProducer
  | dcpStream
  | metaWrite
  | idleConnection
  | systemXattrRead
  | systemXattrWrite
  | bucketThrottleManagement
  | unthrottled
  | unmetered
  | impersonate
  | settings
  | systemSettings
  | systemCollectionLookup
  | systemCollectionMutation
  | rangeScan
  deriving DecidableEq, Repr

namespace Privilege

/-- Every privilege, in the order of the bitsets' indices: the loops
`for (ii = 0; ii < mask.size(); ++ii)` run over this list. -/
def all : List Privilege :=
  [read, insert, delete, upsert, simpleStats, stats, nodeSupervisor, administrator, audit,
    dcpConsumer, dcpProducer, dcpStream, metaWrite, idleConnection, systemXattrRead,
    systemXattrWrite, bucketThrottleManagement, unthrottled, unmetered, impersonate, settings,
    systemSettings, systemCollectionLookup, systemCollectionMutation, rangeScan]

theorem mem_all (p : Privilege) : p ∈ all := by
  cases p <;> decide

end Privilege

open Privilege

/-- `is_bucket_privilege`: the privileges a bucket entry may grant. -/
def isBucketPrivilege : Privilege → Bool
  | .read | .insert | .delete | .upsert | .dcpConsumer | .dcpProducer | .dcpStream | .metaWrite
  | .systemXattrRead | .systemXattrWrite | .settings | .simpleStats | .rangeScan
  | .systemCollectionLookup | .systemCollectionMutation => true
  | .nodeSupervisor | .administrator | .audit | .idleConnection | .impersonate | .systemSettings
  | .stats | .bucketThrottleManagement | .unthrottled | .unmetered => false

/-- `is_collection_privilege`: the privileges a scope or collection entry is
consulted for. -/
def isCollectionPrivilege : Privilege → Bool
  | .read | .insert | .delete | .upsert | .metaWrite | .systemXattrRead | .systemXattrWrite
  | .dcpStream | .simpleStats | .rangeScan | .systemCollectionLookup | .systemCollectionMutation => true
  | .dcpConsumer | .dcpProducer | .settings | .administrator | .nodeSupervisor | .audit
  | .idleConnection | .impersonate | .systemSettings | .stats | .bucketThrottleManagement
  | .unthrottled | .unmetered => false

theorem isBucketPrivilege_of_isCollectionPrivilege {p : Privilege}
    (h : isCollectionPrivilege p = true) : isBucketPrivilege p = true := by
  cases p <;> simp_all [isCollectionPrivilege, isBucketPrivilege]

/-- `privilegemap`: the names `to_privilege` accepts. -/
def privilegemap : List (String × Privilege) :=
  [("Read", read), ("Insert", insert), ("Delete", delete), ("Upsert", upsert),
    ("SimpleStats", simpleStats), ("Stats", stats), ("Audit", audit),
    ("DcpConsumer", dcpConsumer), ("DcpProducer", dcpProducer), ("DcpStream", dcpStream),
    ("MetaWrite", metaWrite), ("IdleConnection", idleConnection),
    ("SystemXattrRead", systemXattrRead), ("SystemXattrWrite", systemXattrWrite),
    ("BucketThrottleManagement", bucketThrottleManagement), ("Unthrottled", unthrottled),
    ("Unmetered", unmetered), ("Administrator", administrator),
    ("NodeSupervisor", nodeSupervisor), ("Impersonate", impersonate), ("Settings", settings),
    ("SystemSettings", systemSettings), ("SystemCollectionLookup", systemCollectionLookup),
    ("SystemCollectionMutation", systemCollectionMutation), ("RangeScan", rangeScan)]

/-- `to_privilege`. -/
def toPrivilege (str : String) : Except String Privilege :=
  match privilegemap.lookup str with
  | some p => .ok p
  | none => .error ("to_privilege: Unknown privilege: " ++ str)

/-- `PrivilegeMask`: a bitset with one bit per privilege. -/
structure PrivilegeMask where
  test : Privilege → Bool

namespace PrivilegeMask

/-- A default-constructed bitset: no bit set. -/
def empty : PrivilegeMask := ⟨fun _ => false⟩

/-- `mask.set()`: every bit. -/
def setAll : PrivilegeMask := ⟨fun _ => true⟩

/-- `mask[p] = v`. -/
def set (m : PrivilegeMask) (p : Privilege) (v : Bool) : PrivilegeMask :=
  ⟨fun q => if q = p then v else m.test q⟩

/-- `mask.none()`. -/
def none (m : PrivilegeMask) : Bool := Privilege.all.all fun p => !m.test p

/-- `mask.any()`. -/
def any (m : PrivilegeMask) : Bool := Privilege.all.any m.test

@[simp] theorem test_empty (p : Privilege) : empty.test p = false := rfl

@[simp] theorem test_setAll (p : Privilege) : setAll.test p = true := rfl

@[simp] theorem test_set (m : PrivilegeMask) (p q : Privilege) (v : Bool) :
    (m.set p v).test q = if q = p then v else m.test q := rfl

theorem none_eq_true_iff (m : PrivilegeMask) : m.none = true ↔ ∀ p, m.test p = false := by
  simp [none, Privilege.mem_all]

theorem any_eq_true_iff (m : PrivilegeMask) : m.any = true ↔ ∃ p, m.test p = true := by
  simp [any, Privilege.mem_all]

end PrivilegeMask

/-- `cb::rbac::PrivilegeAccess::Status`. -/
inductive PrivilegeAccess where
  | ok
  | fail
  | failNoPrivileges
  deriving DecidableEq, Repr

/-- `PrivilegeAccess::success()`. -/
def PrivilegeAccess.success : PrivilegeAccess → Bool
  | .ok => true
  | .fail | .failNoPrivileges => false

end Rbac

end KvEngine
