import Mathlib.Algebra.Ring.Nat
import WireTap.Gateway.Frames
import WireTap.Lib.Group

/-!
# The inventory and the time bounds

`inventory` lists what an archive holds of one protocol, by id; `time_bounds` says from when to when
it goes.  Both read the hourly rollup where it serves, and the frames themselves where it does not.
The rollup `capture_frame_hourly` groups the frames by hour, protocol, id, extended and bus, and
leaves remote frames out.

A statement's result is what SQL says it is over the two relations (`rows`, `bounds`); NULL is
`none`, which `min`, `max` and `sum` pass over.
-/

namespace WireTap.Gateway

open Wire Lib

/-! ### The rollup -/

/-- `time_bucket(INTERVAL '1 hour', ts)`. -/
def timeBucket (ts : Int) : Int := ts - ts % 3600000000

/-- SQL's `min`. -/
def sqlMin (column : List (Option Int)) : Option Int := (column.filterMap id).min?

/-- SQL's `max`. -/
def sqlMax (column : List (Option Int)) : Option Int := (column.filterMap id).max?

/-- What `capture_frame_hourly` groups by. -/
structure HourlyKey where
  bucket : Int
  protocol : Wire.Protocol
  id : Int32
  extended : Bool
  bus : Int32
  deriving DecidableEq

/-- One row of `capture_frame_hourly`. -/
structure HourlyRow extends HourlyKey where
  frameCount : Nat
  firstTs : Option Int
  lastTs : Option Int
  maxDlc : Option Int
  deriving DecidableEq

def hourlyKey (row : CaptureFrame) : HourlyKey :=
  { bucket := timeBucket row.ts
    protocol := row.protocol
    id := row.id
    extended := row.flags &&& 8 ≠ 0
    bus := row.bus }

/-- The row of one group. -/
def hourlyRow (key : HourlyKey) (group : List CaptureFrame) : HourlyRow :=
  { key with
    frameCount := group.length
    firstTs := sqlMin (group.map fun row => some row.ts)
    lastTs := sqlMax (group.map fun row => some row.ts)
    maxDlc := sqlMax (group.map fun row => some row.dlc.toInt) }

/-- The query that defines `capture_frame_hourly`. -/
def captureFrameHourly (frames : List CaptureFrame) : List HourlyRow :=
  (groupBy hourlyKey (frames.filter fun row => row.flags &&& 1 = 0)).map fun g => hourlyRow g.1 g.2

/-! ### `inventory` -/

/-- A row either of `inventory`'s statements gives. -/
structure InventoryRow where
  id : Int32
  extended : Bool
  cnt : Nat
  firstUs : Option Int64
  lastUs : Option Int64
  maxDlc : Option Int
  deriving DecidableEq

structure InventoryEntry where
  frameId : UInt32
  isExtended : Bool
  count : Nat
  firstUs : Int64
  lastUs : Int64
  maxDlc : UInt16
  maxLen : Option UInt16
  deriving DecidableEq

/-- The two statements of `inventory`. -/
inductive InventoryStatement where
  | rollup (protocol : Wire.Protocol)
  | raw (protocol : Wire.Protocol) (startTime endTime : Option String)
  deriving DecidableEq

/-- `ORDER BY id, extended`. -/
def idExtendedLe (a b : Int32 × Bool) : Bool :=
  decide (a.1.toInt < b.1.toInt) || (a.1 == b.1 && (!a.2 || b.2))

/-- What a statement of `inventory` gives over the two relations. -/
def InventoryStatement.rows (conv : Conversions) (frames : List CaptureFrame)
    (hourly : List HourlyRow) : InventoryStatement → List InventoryRow
  | rollup protocol =>
    let rows := hourly.filter fun r => r.protocol == protocol
    let key := fun r : HourlyRow => (r.id, r.extended)
    (orderedKeys idExtendedLe (rows.map key)).map fun k =>
      { id := k.1
        extended := k.2
        cnt := ((group key rows k).map (·.frameCount)).sum
        firstUs := (sqlMin ((group key rows k).map (·.firstTs))).map conv.epochUs
        lastUs := (sqlMax ((group key rows k).map (·.lastTs))).map conv.epochUs
        maxDlc := sqlMax ((group key rows k).map (·.maxDlc)) }
  | raw protocol startTime endTime =>
    let rows := frames.filter fun r =>
      r.protocol == protocol && timeClause conv startTime endTime r.ts && r.notRemote
    let key := fun r : CaptureFrame => (r.id, r.extended)
    (orderedKeys idExtendedLe (rows.map key)).map fun k =>
      { id := k.1
        extended := k.2
        cnt := (group key rows k).length
        firstUs := (sqlMin ((group key rows k).map fun r => some r.ts)).map conv.epochUs
        lastUs := (sqlMax ((group key rows k).map fun r => some r.ts)).map conv.epochUs
        maxDlc := sqlMax ((group key rows k).map fun r => some r.dlc.toInt) }

/-- `payload_len`, over `wslib_can::dlc_to_len`. -/
def payloadLen (dlcToLen : UInt8 → Bool → Nat) (protocol : Wire.Protocol) (dlc : UInt16) :
    UInt16 :=
  match protocol with
  | .can => .ofNat (dlcToLen dlc.toUInt8 true)
  | .modbusRtu | .serial => dlc

/-- The closure `inventory` maps over its rows; `none` where `Row::get` panics on a NULL. -/
def InventoryRow.entry (dlcToLen : UInt8 → Bool → Nat) (protocol : Wire.Protocol)
    (row : InventoryRow) :
    Option InventoryEntry := do
  let maxDlc := UInt16.ofInt (← row.maxDlc)
  let firstUs ← row.firstUs
  let lastUs ← row.lastUs
  pure
    { frameId := row.id.toUInt32
      isExtended := row.extended
      count := row.cnt
      firstUs
      lastUs
      maxDlc
      maxLen := some (payloadLen dlcToLen protocol maxDlc) }

/-- `inventory`; `rollup` is what `rollup_available` says. -/
def inventory (dlcToLen : UInt8 → Bool → Nat) (rollup : Bool)
    (client : InventoryStatement → Except PgError (List InventoryRow))
    (startTime endTime : Option String) (protocol : Option Wire.Protocol) :
    Except QueryError (Option (List InventoryEntry)) := do
  let proto := protocol.getD defaultProtocol
  if startTime.isNone && endTime.isNone && rollup then
    let rows ← (client (.rollup proto)).mapError (failed "Inventory rollup query failed")
    return rows.mapM (InventoryRow.entry dlcToLen proto)
  let rows ← (client (.raw proto startTime endTime)).mapError (failed "Inventory query failed")
  return rows.mapM (InventoryRow.entry dlcToLen proto)

/-! ### `time_bounds` -/

structure TimeBounds where
  minTsUs : Option Int64
  maxTsUs : Option Int64
  deriving DecidableEq

/-- The statement of `time_bounds`: which relation it reads, and for which protocol. -/
structure BoundsStatement where
  rollup : Bool
  protocol : Wire.Protocol
  deriving DecidableEq

/-- What a statement of `time_bounds` gives over the two relations. -/
def BoundsStatement.bounds (conv : Conversions) (frames : List CaptureFrame)
    (hourly : List HourlyRow) (s : BoundsStatement) : Option Int64 × Option Int64 :=
  if s.rollup then
    let rows := hourly.filter fun r => r.protocol == s.protocol
    ((sqlMin (rows.map (·.firstTs))).map conv.epochUs,
      (sqlMax (rows.map (·.lastTs))).map conv.epochUs)
  else
    let rows := frames.filter fun r => r.protocol == s.protocol
    ((sqlMin (rows.map fun r => some r.ts)).map conv.epochUs,
      (sqlMax (rows.map fun r => some r.ts)).map conv.epochUs)

/-- `time_bounds`; `rollup` is what `rollup_available` says. -/
def timeBounds (rollup : Bool)
    (client : BoundsStatement → Except PgError (Option Int64 × Option Int64))
    (protocol : Option Wire.Protocol) : Except QueryError TimeBounds := do
  let row ← (client { rollup, protocol := protocol.getD defaultProtocol }).mapError
    (failed "Time bounds query failed")
  return { minTsUs := row.1, maxTsUs := row.2 }

end WireTap.Gateway
