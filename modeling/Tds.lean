import Tds.Generation.Proofs.CsvBinding
import Tds.Generation.Proofs.Damage
import Tds.Generation.Proofs.History
import Tds.Generation.Proofs.RowOracle
import Tds.Generation.Proofs.RowTable
import Tds.FileSystem.Proofs.CacheRun
import Tds.FileSystem.Proofs.Overwrite
import Tds.FileSystem.Proofs.Subdirectory
import Tds.FileSystem.Proofs.Concurrent
import Tds.FileSystem.Proofs.Locking
import Tds.Persistence.Proofs.Crash
import Tds.Persistence.Proofs.FileName
import Tds.Persistence.Proofs.Log
import Tds.Drivers.Proofs.Scan
import Tds.Stores.Proofs.Collect
import Tds.Drivers.Proofs.Trust
import Tds.Drivers.Proofs.Machine
import Tds.TraceRank.Proofs.Receipt
import Tds.Eaglegate.Proofs.Conformance
import Tds.Native.Checksums
import Tds.Admin.Auth
import Tds.Serialization.Containers
