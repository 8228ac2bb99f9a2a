import VolumeDriver.MetaData.Crash
import VolumeDriver.MetaData.Used
import VolumeDriver.Restart.OnBackend
import VolumeDriver.Restart.NotOnBackend
import VolumeDriver.Scrub.Relocate
import VolumeDriver.Scrub.Cleanup
import VolumeDriver.Dtl.AddEntries
import VolumeDriver.Dtl.Transfer
import VolumeDriver.Dtl.AsyncBridge
import VolumeDriver.Volume.Locations
import VolumeDriver.Volume.Reconstruct
import VolumeDriver.Volume.ByteSemantics
import VolumeDriver.Pool.Barriers
import VolumeDriver.Volume.ConcurrentReads
import VolumeDriver.Volume.Fencing
import VolumeDriver.MetaData.ConcurrentRelocs
import VolumeDriver.DataStore.Disposable
import VolumeDriver.Dtl.Recoverable
import VolumeDriver.Filesystem.Hierarchy
import VolumeDriver.Filesystem.FamilyTree
import VolumeDriver.Filesystem.ClonedSnapshots
import VolumeDriver.SCOCache.Selection
import VolumeDriver.SCOCache.Visible
import VolumeDriver.CApi.AioRequest
import VolumeDriver.MetaDataServer.SharedMemory
import VolumeDriver.GlobalLock.HeartBeatLockCommunicator
import VolumeDriver.GlobalLock.HeartBeatLockService
import VolumeDriver.Filedriver.Moves
import VolumeDriver.Dtl.Strings
import VolumeDriver.Volume.Chunks
import VolumeDriver.Volume.Multiplier
import VolumeDriver.MetaData.PageSlots
import VolumeDriver.MetaData.WriteSequence
import VolumeDriver.Restart.CorkInterval
import VolumeDriver.Restart.Builder
import VolumeDriver.MetaDataServer.Garbage
import VolumeDriver.Youtils.LRUCacheToo
import VolumeDriver.Youtils.PeriodicActionPool
