import Mathlib
import WireTap.Lib.Keyed
import WireTap.Forward.Catalogues

/-!
# What the gateway knows of its daemons

The tables of `wiretap_meta` that say which devices each daemon last named, what each of them is
assigned and what it last said it frames with, and `daemons`, the list the gateway makes of them.

A call is one step: each writes in one transaction, and its `now` is that transaction's.  An
`assign` or `clear` is one that has passed its checks.  What a catalogue's text and its provenance
say is a parameter, and so is the collation that text is sorted by.

Left out: the history of assignments, which nothing reads, the calls of one daemon that overlap, and
texts that PostgreSQL cannot hold.
-/

namespace WireTap.Gateway

/-! ### The tables -/

/-- The daemon and the interface. -/
abbrev DeviceKey := String × String

/-- A row of `daemon_devices`. -/
structure DaemonDeviceRow where
  bus : UInt8
  database : String
  lastSeen : Int
  deriving DecidableEq

/-- A row of `catalog_assignments`. -/
structure CatalogAssignmentRow where
  blobSha : Sha
  assignedAt : Int
  assignedBy : Option String
  deriving DecidableEq

/-- A row of `daemon_active`. -/
structure DaemonActiveRow where
  source : String
  blobSha : Option Sha
  refusedSha : Option Sha
  refusal : Option String
  since : Int
  deriving DecidableEq

/-- A row of `catalog_blobs`. -/
structure CatalogBlobRow where
  content : String
  provenance : String
  deriving DecidableEq

structure Registry where
  devices : Lib.Keyed DeviceKey DaemonDeviceRow := ∅
  assignments : Lib.Keyed DeviceKey CatalogAssignmentRow := ∅
  active : Lib.Keyed DeviceKey DaemonActiveRow := ∅
  blobs : Lib.Keyed Sha CatalogBlobRow := ∅

/-! ### What a daemon reports -/

/-- `Refusal` of the protocol crate. -/
inductive ReportedRefusal where
  | hashMismatch
  | didNotParse
  | fetchFailed
  | other (reason : UInt8)
  deriving DecidableEq

/-- An entry of a `CATALOGUE_STATUS`, as the gateway parses it. -/
structure ReportedEntry where
  bus : UInt8
  active : ActiveCatalogue
  refused : Option (Sha × ReportedRefusal)
  deriving DecidableEq

/-- `ActiveRow`. -/
structure ActiveRow where
  interface : String
  source : String
  blobSha : Option Sha
  refused : Option (Sha × String)
  deriving DecidableEq

/-- The `source` and `blob_sha` of `active_rows`. -/
def activeSource : ActiveCatalogue → String × Option Sha
  | .none => ("none", none)
  | .local sha => ("local", some sha)
  | .assigned sha => ("assigned", some sha)

/-- The `why` of `active_rows`. -/
def refusalWhy : ReportedRefusal → String
  | .hashMismatch => "hash_mismatch"
  | .didNotParse => "did_not_parse"
  | .fetchFailed => "fetch_failed"
  | .other _ => "other"

/-- `active_rows`: a row for each reported bus the `HELLO` named. -/
def activeRows (devices : List Device) (status : List ReportedEntry) : List ActiveRow :=
  status.filterMap fun e =>
    (devices.find? fun d => d.bus = e.bus).map fun device =>
      let (source, blobSha) := activeSource e.active
      { interface := device.name, source, blobSha
        refused := e.refused.map fun r => (r.1, refusalWhy r.2) }

/-! ### The calls -/

namespace Registry

/-- `record_hello`: none where PostgreSQL refuses it. -/
def recordHello (s : Registry) (daemonId database : String) (devices : List Device) (now : Int) :
    Option Registry :=
  (Lib.upsert (fun _ d => ⟨d.bus, database, now⟩) s.devices
    (devices.map fun d => ((daemonId, d.name), d))).map fun devices => { s with devices }

/-- What `record_status` makes of a row of `daemon_active`: `since` moves only when the catalogue
itself changes. -/
def activeRow (now : Int) (old : Option DaemonActiveRow) (r : ActiveRow) : DaemonActiveRow where
  source := r.source
  blobSha := r.blobSha
  refusedSha := r.refused.map (·.1)
  refusal := r.refused.map (·.2)
  since :=
    match old with
    | none => now
    | some row => if (row.source, row.blobSha) = (r.source, r.blobSha) then row.since else now

/-- `record_status`: none where PostgreSQL refuses it. -/
def recordStatus (s : Registry) (daemonId : String) (devices : List Device)
    (status : List ReportedEntry) (now : Int) : Option Registry :=
  let rows := activeRows devices status
  let interfaces := rows.map ActiveRow.interface
  let gone := (devices.map Device.name).filter fun i => i ∉ interfaces
  (Lib.upsert (activeRow now) s.active (rows.map fun r => ((daemonId, r.interface), r))).map
    fun active => { s with active := Lib.deleteAll active (gone.map fun i => (daemonId, i)) }

/-- What `assign` commits. -/
def assign (s : Registry) (daemonId interface : String) (sha : Sha) (blob : CatalogBlobRow)
    (assignedBy : String) (now : Int) : Registry :=
  { s with
    blobs := if (s.blobs.lookup sha).isSome then s.blobs else s.blobs.insert sha blob
    assignments :=
      if (s.assignments.lookup (daemonId, interface)).map (·.blobSha) = some sha then s.assignments
      else s.assignments.insert (daemonId, interface) ⟨sha, now, some assignedBy⟩ }

/-- What `clear` commits. -/
def clear (s : Registry) (daemonId interface : String) : Registry :=
  { s with assignments := s.assignments.erase (daemonId, interface) }

end Registry

inductive RegistryCall where
  | recordHello (daemonId database : String) (devices : List Device) (now : Int)
  | recordStatus (daemonId : String) (devices : List Device) (status : List ReportedEntry)
    (now : Int)
  | assign (daemonId interface : String) (sha : Sha) (blob : CatalogBlobRow) (assignedBy : String)
    (now : Int)
  | clear (daemonId interface : String)
  deriving DecidableEq

namespace Registry

/-- A call that PostgreSQL refuses changes nothing. -/
def step (s : Registry) : RegistryCall → Registry
  | .recordHello daemonId database devices now =>
    (s.recordHello daemonId database devices now).getD s
  | .recordStatus daemonId devices status now => (s.recordStatus daemonId devices status now).getD s
  | .assign daemonId interface sha blob assignedBy now =>
    s.assign daemonId interface sha blob assignedBy now
  | .clear daemonId interface => s.clear daemonId interface

/-- The tables after these calls. -/
def after (calls : List RegistryCall) : Registry := calls.foldl step {}

end Registry

/-! ### The list -/

/-- `Assignment` of the API. -/
structure ListedAssignment (π : Type) where
  blobSha : String
  name : Option String
  assignedAtUs : Int
  assignedBy : Option String
  provenance : π

/-- `RefusedCatalogue`. -/
structure RefusedCatalogue where
  blobSha : String
  reason : String
  deriving DecidableEq

/-- `ActiveCatalogue` of the API. -/
structure ListedActive where
  source : String
  blobSha : Option String
  name : Option String
  sinceUs : Int
  refused : Option RefusedCatalogue
  deriving DecidableEq

structure DaemonDevice (π : Type) where
  interface : String
  bus : Option UInt8
  database : Option String
  lastSeenUs : Option Int
  assignment : Option (ListedAssignment π)
  active : Option ListedActive

/-- `Daemon` of the API. -/
structure ListedDaemon (π : Type) where
  daemonId : String
  devices : List (DaemonDevice π)

/-- `catalogue_name`, `provenance_of` and `Provenance`'s default. -/
structure BlobReader (π : Type) where
  catalogueName : String → Option String
  provenanceOf : String → π
  defaultProvenance : π

/-- How PostgreSQL compares text: by sort keys, which differ where the texts do. -/
structure Collation (κ : Type) where
  sortKey : String → κ
  injective : Function.Injective sortKey

/-- A row of the query of `daemons`. -/
structure NamedRow where
  daemonId : String
  interface : String
  device : Option DaemonDeviceRow
  assigned : Option CatalogAssignmentRow
  assignedBlob : Option CatalogBlobRow
  active : Option DaemonActiveRow
  activeBlob : Option CatalogBlobRow

variable {κ π : Type} [LinearOrder κ]

/-- `ORDER BY daemon_id, bus NULLS LAST, interface`. -/
def NamedRow.orderKey (coll : Collation κ) (r : NamedRow) : κ ×ₗ WithTop Nat ×ₗ κ :=
  toLex (coll.sortKey r.daemonId,
    toLex ((r.device.map fun d => WithTop.some d.bus.toNat).getD ⊤, coll.sortKey r.interface))

/-- `daemon_device`. -/
def daemonDevice (reader : BlobReader π) (r : NamedRow) : DaemonDevice π where
  interface := r.interface
  bus := r.device.map (·.bus)
  database := r.device.map (·.database)
  lastSeenUs := r.device.map (·.lastSeen)
  assignment := r.assigned.map fun a =>
    { blobSha := blobSha1Hex a.blobSha
      name := r.assignedBlob.bind fun b => reader.catalogueName b.content
      assignedAtUs := a.assignedAt
      assignedBy := a.assignedBy
      provenance :=
        (r.assignedBlob.map fun b => reader.provenanceOf b.provenance).getD
          reader.defaultProvenance }
  active := r.active.map fun x =>
    { source := x.source
      blobSha := x.blobSha.map blobSha1Hex
      name := r.activeBlob.bind fun b => reader.catalogueName b.content
      sinceUs := x.since
      refused := x.refusedSha.bind fun sha => x.refusal.map fun why => ⟨blobSha1Hex sha, why⟩ }

/-- The loop of `daemons`: a row joins the daemon before it, or is the first of its own. -/
def addRow (reader : BlobReader π) (daemons : List (ListedDaemon π)) (r : NamedRow) :
    List (ListedDaemon π) :=
  match daemons.getLast? with
  | some d =>
    if d.daemonId = r.daemonId then
      daemons.dropLast ++ [{ d with devices := d.devices ++ [daemonDevice reader r] }]
    else daemons ++ [⟨r.daemonId, [daemonDevice reader r]⟩]
  | none => daemons ++ [⟨r.daemonId, [daemonDevice reader r]⟩]

namespace Registry

/-- `named`: what a daemon has named or is assigned. -/
def named (s : Registry) : List DeviceKey := s.devices.keys ∪ s.assignments.keys

/-- The joins of the query. -/
def namedRow (s : Registry) (k : DeviceKey) : NamedRow where
  daemonId := k.1
  interface := k.2
  device := s.devices.lookup k
  assigned := s.assignments.lookup k
  assignedBlob := (s.assignments.lookup k).bind fun a => s.blobs.lookup a.blobSha
  active := s.active.lookup k
  activeBlob := (s.active.lookup k).bind fun x => x.blobSha.bind s.blobs.lookup

/-- The rows of the query. -/
def namedRows (s : Registry) (coll : Collation κ) : List NamedRow :=
  (s.named.map s.namedRow).mergeSort fun a b => a.orderKey coll ≤ b.orderKey coll

/-- `daemons`. -/
def daemons (s : Registry) (coll : Collation κ) (reader : BlobReader π) : List (ListedDaemon π) :=
  (s.namedRows coll).foldl (addRow reader) []

end Registry

end WireTap.Gateway
