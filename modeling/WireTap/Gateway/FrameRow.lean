import WireTap.Wire.Sample

/-!
# The row of a wire record

`FrameRow::new`, the gateway's reading of a record: the row of `capture_frame` it becomes.  A column
the row's protocol has no answer for is NULL.
-/

namespace WireTap.Gateway

open Wire

/-- One row of `capture_frame`. -/
structure FrameRow where
  tsUs : Int
  protocol : Wire.Protocol
  id : UInt32
  /-- `CanFlags` bits; a row off another wire has only `TX`. -/
  flags : UInt8
  dlc : UInt16
  data : Bytes
  bus : UInt8
  unit : Option Int
  func : Option Int
  crcValid : Option Bool
  deriving DecidableEq

variable {φ κ : Type} (can : CanLib φ) (protocol : ProtocolLib φ κ)

/-- The flags of a row off another wire than CAN. -/
def txFlags (transmitted : Bool) : UInt8 := if transmitted then can.txFlag else 0

/-- `FrameRow::new`; `none` where it panics. -/
def FrameRow.new (tsUs : Int) (r : Record) : Option FrameRow :=
  let fields := protocol.fromWire r.kind r.idFlags r.flags
  match fields with
  | .can _ transmitted =>
    (protocol.toCan fields r.bus r.payload).map fun frame =>
      { tsUs
        protocol := .can
        id := can.arbId frame
        flags := can.flagsOf frame transmitted
        dlc := (can.dlc frame).toUInt16
        data := can.bytes frame
        bus := r.bus
        unit := none
        func := none
        crcValid := none }
  | .modbus unit func crcValid transmitted =>
    some
      { tsUs
        protocol := .modbusRtu
        id := r.idFlags &&& protocol.idArbMask
        flags := txFlags can transmitted
        dlc := .ofNat r.payload.length
        data := r.payload
        bus := r.bus
        unit := some unit.toNat
        func := some func.toNat
        crcValid := some crcValid }
  -- Not the read sequence: an id per read would make every row its own segment.
  | .rawSerial _ transmitted =>
    some
      { tsUs
        protocol := .serial
        id := 0
        flags := txFlags can transmitted
        dlc := .ofNat r.payload.length
        data := r.payload
        bus := r.bus
        unit := none
        func := none
        crcValid := none }

end WireTap.Gateway
