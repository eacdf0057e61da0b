import WireTap.Lib.Split
import WireTap.Lib.Triple
import WireTap.Lib.Run
import WireTap.Lib.Log
import WireTap.Lib.Tasks
import WireTap.Cache.Sqlite
import WireTap.Cache.Equiv.Sqlite
import WireTap.Lib.Halting
import WireTap.Cache.Adopt
import WireTap.Cache.Equiv.Adopt
import WireTap.Cache.Equiv.InOrder
import WireTap.Lib.Links
import WireTap.Cache.Alias
import WireTap.Cache.Equiv.Alias
import WireTap.Cache.Equiv.Contents
import WireTap.Lib.Fallible
import WireTap.Cache.Equiv.RowCache
import WireTap.Archive.Batcher
import WireTap.Archive.Equiv.Worker
import WireTap.Archive.Equiv.Batcher
import WireTap.Lib.AtLeastOnce
import WireTap.Archive.Equiv.AtLeastOnce
import WireTap.Archive.Drain
import WireTap.Archive.Equiv.Drain
import WireTap.Archive.Equiv.Stop
import WireTap.Ingest.Session
import WireTap.Ingest.Equiv.Session
import WireTap.Forward.Catalogues
import WireTap.Forward.Sink
import WireTap.Forward.Equiv.Catalogues
import WireTap.Forward.Equiv.Keeps
import WireTap.Forward.Equiv.Sink
import WireTap.Forward.Equiv.Close
import WireTap.Forward.Equiv.Status
import WireTap.Forward.Equiv.Sessions
import WireTap.Forward.Restart
import WireTap.Forward.Equiv.Restart
import WireTap.Gateway.Hello
import WireTap.Gateway.Equiv.Hello
import WireTap.Gateway.Password
import WireTap.Gateway.Equiv.Password
import WireTap.Lib.Paging
import WireTap.Lib.Latest
import WireTap.Gateway.Keys
import WireTap.Gateway.Equiv.KeyTable
import WireTap.Gateway.Equiv.Keys
import WireTap.Gateway.Buffer
import WireTap.Gateway.Equiv.Buffer
import WireTap.Gateway.Import
import WireTap.Gateway.Equiv.Import
import WireTap.Gateway.Databases
import WireTap.Gateway.Equiv.Databases
import WireTap.Gateway.Drained
import WireTap.Gateway.Equiv.Drained
import WireTap.Gateway.Bootstrap
import WireTap.Gateway.Equiv.Bootstrap
import WireTap.Gateway.Reassign
import WireTap.Gateway.Equiv.Reassign
import WireTap.Lib.History
import WireTap.Gateway.Assign
import WireTap.Gateway.Equiv.Assign
import WireTap.Gateway.Registry
import WireTap.Gateway.Equiv.Registry
import WireTap.Gateway.Running
import WireTap.Gateway.Equiv.Running
import WireTap.Lib.Interference
import WireTap.Gateway.Gate
import WireTap.Gateway.Equiv.Gate
import WireTap.Wire.Sample
import WireTap.Wire.Reference
import WireTap.Cache.Rows
import WireTap.Cache.Equiv.Rows
import WireTap.Gateway.FrameRow
import WireTap.Wire.Relay
import WireTap.Wire.Equiv.Relay
import WireTap.Lib.Text
import WireTap.Lib.Group
import WireTap.Lib.Select
import WireTap.Gateway.Frames
import WireTap.Gateway.Equiv.Frames
import WireTap.Gateway.Inventory
import WireTap.Gateway.Equiv.Inventory
import WireTap.Gateway.Queries
import WireTap.Gateway.Equiv.Queries
import WireTap.Gateway.Equiv.Changes
import WireTap.Gateway.Equiv.Patterns
import WireTap.Gateway.Pending
import WireTap.Gateway.Equiv.Pending
import WireTap.Lib.CopyText
import WireTap.Gateway.CopyText
import WireTap.Gateway.Equiv.CopyText
import WireTap.Lib.Gzip
import WireTap.Gateway.WtarFormat
import WireTap.Gateway.WtarReader
import WireTap.Gateway.WtarWriter
import WireTap.Gateway.Equiv.WtarReader
import WireTap.Gateway.Equiv.WtarWriter
import WireTap.Gateway.Locks
import WireTap.Gateway.Equiv.Locks
import WireTap.Lib.Guarded
import WireTap.Gateway.Routes
import WireTap.Gateway.Equiv.Routes
import WireTap.Lib.Incremental
import WireTap.Gateway.CaptureImport
import WireTap.Gateway.Wtim
import WireTap.Gateway.Equiv.CaptureImport
import WireTap.Gateway.Equiv.ImportFaults
import WireTap.Daemon.Config
import WireTap.Gateway.Script
import WireTap.Gateway.Equiv.Script
import WireTap.Daemon.Settings
import WireTap.Daemon.Equiv.Settings
import WireTap.Lib.Bits
import WireTap.Daemon.Cidr
import WireTap.Daemon.Equiv.Cidr
import WireTap.Daemon.Transmit
import WireTap.Daemon.Equiv.Transmit
import WireTap.Lib.Broadcast
import WireTap.Daemon.Gvret
import WireTap.Daemon.Equiv.Gvret
import WireTap.Daemon.Start
import WireTap.Daemon.Equiv.Start
import WireTap.Daemon.Control
import WireTap.Daemon.Listing
import WireTap.Lib.Edit
import WireTap.Daemon.Form
import WireTap.Daemon.Equiv.Control
import WireTap.Daemon.Equiv.Layers
import WireTap.Daemon.Equiv.Listing
import WireTap.Daemon.Equiv.Form
import WireTap.Daemon.Equiv.Secrets
import WireTap.Daemon.Equiv.Databases
import WireTap.Daemon.Pipelines
import WireTap.Daemon.Equiv.Pipelines
import WireTap.Daemon.Equiv.Announce
import WireTap.Lib.Path
import WireTap.Daemon.CacheFiles
import WireTap.Daemon.Equiv.CacheFiles
import WireTap.Archive.Equiv.Provenance
import WireTap.Daemon.Runs
import WireTap.Daemon.Equiv.Sources
import WireTap.Daemon.Equiv.Runs
import WireTap.Daemon.Equiv.RawSerial
import WireTap.Lib.Outage
import WireTap.Daemon.Capture
import WireTap.Daemon.Equiv.Capture
import WireTap.Lib.Carve
import WireTap.Daemon.SerialTap
import WireTap.Daemon.Equiv.SerialTap
import WireTap.Gateway.IngestServer
import WireTap.Gateway.Equiv.IngestServer
import WireTap.Gateway.Equiv.IngestSessions
import WireTap.Delivery.Equiv.Conversation
import WireTap.Lib.Excerpts
import WireTap.Forward.Equiv.Pull
import WireTap.Delivery.Equiv.Catalogues
