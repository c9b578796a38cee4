import KvEngine.Mcbp.UnsignedLeb128
import KvEngine.Mcbp.Request
import KvEngine.Mcbp.FrameInfo
import KvEngine.Json
import KvEngine.FailoverTable
import KvEngine.FailoverTable.Rollback
import KvEngine.Lib.Monotonic
import KvEngine.Lib.ListIter
import KvEngine.Lib.Except
import KvEngine.Lib.TransitionSystem
import KvEngine.Lib.Bytes
import KvEngine.Lib.AssocList
import KvEngine.Durability.Types
import KvEngine.Durability.ActiveSyncWrite
import KvEngine.Durability.ActiveDM
import KvEngine.Durability.ActiveDMRuns
import KvEngine.Durability.PassiveDM
import KvEngine.Durability.PassiveDMSpec
import KvEngine.Durability.PassiveDMOps
import KvEngine.Durability.ReplicaStream
import KvEngine.Durability.SeqnoAck
import KvEngine.Xattr.KeyValidator
import KvEngine.Xattr.Blob
import KvEngine.Xattr.Utils
import KvEngine.Xattr.BlobSpec
import KvEngine.Xattr.BlobMap
import KvEngine.Xattr.Validate
import KvEngine.Collections.Manifest
import KvEngine.Collections.VBManifest
import KvEngine.Collections.Changes
import KvEngine.Collections.ChangeSpec
import KvEngine.Collections.UpdateEvents
import KvEngine.Collections.Replica
import KvEngine.Collections.Flush
import KvEngine.HashTable.Visit
import KvEngine.Rbac.Privileges
import KvEngine.Rbac.PrivilegeDatabase
import KvEngine.Ephemeral.RangeLockManager
import KvEngine.Ephemeral.SeqList
import KvEngine.Ephemeral.SeqListOps
import KvEngine.Ephemeral.SeqListWf
import KvEngine.Ephemeral.SeqListStale
import KvEngine.Ephemeral.SeqListAccounting
import KvEngine.Ephemeral.SeqListPurge
import KvEngine.Ephemeral.RangeRead
import KvEngine.Ephemeral.RangeReadFrame
import KvEngine.Ephemeral.RangeReadSafety
import KvEngine.Ephemeral.RangeReadSnapshot
import KvEngine.Mcbp.FrameConsumers
import KvEngine.Mcbp.DocKey
import KvEngine.VBucket.StoredValue
import KvEngine.VBucket.FrontEnd
import KvEngine.VBucket.FrontEndSpec
import KvEngine.VBucket.CasLock
import KvEngine.VBucket.SyncWriteFrame
import KvEngine.Hlc
import KvEngine.Cbsasl.Username
import KvEngine.VBucket.ConflictResolution
import KvEngine.Eviction.MfuThreshold
import KvEngine.Dcp.BackfillBySeqnoDisk
