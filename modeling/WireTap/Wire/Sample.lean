import Mathlib.Data.List.Basic

/-!
# Samples and the records they cross as

What a capture source produces (`wiretap_model::Sample`), and how a sample crosses the ingest
protocol in both directions (`wire`): `record` is the record a sample encodes as, and `decode` the
sample a record describes.

A CAN sample crosses as the `CanFrame` of `wslib_can`, and `wslib_wiretap_protocol` maps frames to a
record's fields and fields to the words of the wire.  The two libraries are not part of the
repository: what it uses of them is the parameter of everything here (`CanLib`, `ProtocolLib`), and
what it relies on is said once, in `CanLib.Lawful` and `ProtocolLib.Lawful`.
-/

namespace WireTap.Wire

abbrev Bytes := List UInt8

/-! ### Samples -/

inductive Direction where
  | rx
  | tx
  deriving DecidableEq

/-- The tag the archive stores. -/
def Direction.asStr : Direction → String
  | rx => "rx"
  | tx => "tx"

/-- `str::eq_ignore_ascii_case`. -/
def eqIgnoreAsciiCase (s t : String) : Bool := s.toList.map Char.toLower = t.toList.map Char.toLower

/-- Case-insensitive: the Python took any `--default-dir`. -/
def Direction.fromStr (s : String) : Option Direction :=
  if eqIgnoreAsciiCase s "rx" then some rx
  else if eqIgnoreAsciiCase s "tx" then some tx
  else none

/-- One CAN or CAN FD frame. -/
structure CanSample where
  tsUs : Int
  arbId : UInt32
  extended : Bool
  isFd : Bool
  /-- A remote frame's requested length code. -/
  rtr : Option UInt8
  brs : Bool
  esi : Bool
  data : Bytes
  bus : UInt8
  dir : Direction
  deriving DecidableEq

/-- One Modbus RTU message. -/
structure ModbusSample where
  tsUs : Int
  bus : UInt8
  unit : UInt8
  func : UInt8
  crcValid : Bool
  raw : Bytes
  deriving DecidableEq

/-- Bytes off a serial line as one read returned them. -/
structure SerialSample where
  tsUs : Int
  bus : UInt8
  seq : UInt32
  data : Bytes
  deriving DecidableEq

inductive Sample where
  | can (c : CanSample)
  | modbus (m : ModbusSample)
  | serial (r : SerialSample)
  deriving DecidableEq

/-- `wslib_wiretap_protocol::Protocol`. -/
inductive Protocol where
  | can
  | modbusRtu
  | serial
  deriving DecidableEq

namespace Sample

def tsUs : Sample → Int
  | can c => c.tsUs
  | modbus m => m.tsUs
  | serial r => r.tsUs

def bus : Sample → UInt8
  | can c => c.bus
  | modbus m => m.bus
  | serial r => r.bus

def protocol : Sample → Protocol
  | can _ => .can
  | modbus _ => .modbusRtu
  | serial _ => .serial

end Sample

/-! ### The libraries -/

/-- `RecordFields`; `κ` is what a CAN record's has beside `transmitted`. -/
inductive RecordFields (κ : Type) where
  | can (fields : κ) (transmitted : Bool)
  | modbus (unit func : UInt8) (crcValid transmitted : Bool)
  | rawSerial (seq : UInt32) (transmitted : Bool)
  deriving DecidableEq

inductive RecordKind where
  | can
  | modbus
  | rawSerial
  deriving DecidableEq

def RecordFields.kind {κ : Type} : RecordFields κ → RecordKind
  | can .. => .can
  | modbus .. => .modbus
  | rawSerial .. => .rawSerial

/-- A record to be encoded: `BatchRecord`. -/
structure BatchRecord (κ : Type) where
  tsUs : Nat
  fields : RecordFields κ
  bus : UInt8
  payload : Bytes
  deriving DecidableEq

/-- A record as it was parsed: `Record`. -/
structure Record where
  kind : RecordKind
  idFlags : UInt32
  flags : UInt8
  bus : UInt8
  payload : Bytes
  deriving DecidableEq

/-- What the repository uses of `wslib_can`; `φ` is `CanFrame`. -/
structure CanLib (φ : Type) where
  /-- `CanFrame::remote`. -/
  remote (bus : UInt8) (arbId : UInt32) (extended : Bool) (dlc : UInt8) : φ
  /-- `CanFrame::data`. -/
  data (bus : UInt8) (arbId : UInt32) (extended fd brs : Bool) (bytes : Bytes) : φ
  /-- `frame.esi = esi`. -/
  setEsi (frame : φ) (esi : Bool) : φ
  arbId (frame : φ) : UInt32
  extended (frame : φ) : Bool
  fd (frame : φ) : Bool
  rtr (frame : φ) : Bool
  brs (frame : φ) : Bool
  esi (frame : φ) : Bool
  /-- `frame.data`. -/
  bytes (frame : φ) : Bytes
  dlc (frame : φ) : UInt8
  /-- `CanFlags::of`. -/
  flagsOf (frame : φ) (transmitted : Bool) : UInt8
  /-- `contains(CanFlags::RTR)`. -/
  hasRtr (flags : UInt8) : Bool
  /-- `contains(CanFlags::BRS)`. -/
  hasBrs (flags : UInt8) : Bool
  /-- `contains(CanFlags::ESI)`. -/
  hasEsi (flags : UInt8) : Bool
  /-- `CanFlags::TX`. -/
  txFlag : UInt8

/-- `CanFrame` is a record with a field for each flag, which `CanFlags` packs.  A remote frame is
made with the code it requests and has no data; a data frame is made with its own, and may keep BRS
only with FD. -/
structure CanLib.Lawful {φ : Type} (can : CanLib φ) : Prop where
  arbId_remote b i x d : can.arbId (can.remote b i x d) = i
  extended_remote b i x d : can.extended (can.remote b i x d) = x
  rtr_remote b i x d : can.rtr (can.remote b i x d) = true
  bytes_remote b i x d : can.bytes (can.remote b i x d) = []
  remote_dlc b i x d : can.remote b i x (can.dlc (can.remote b i x d)) = can.remote b i x d
  arbId_data b i x fd brs bs : can.arbId (can.data b i x fd brs bs) = i
  extended_data b i x fd brs bs : can.extended (can.data b i x fd brs bs) = x
  fd_data b i x fd brs bs : can.fd (can.data b i x fd brs bs) = fd
  rtr_data b i x fd brs bs : can.rtr (can.data b i x fd brs bs) = false
  bytes_data b i x fd brs bs : can.bytes (can.data b i x fd brs bs) = bs
  data_brs b i x fd brs bs :
    can.data b i x fd (can.brs (can.data b i x fd brs bs)) bs = can.data b i x fd brs bs
  arbId_setEsi f e : can.arbId (can.setEsi f e) = can.arbId f
  extended_setEsi f e : can.extended (can.setEsi f e) = can.extended f
  fd_setEsi f e : can.fd (can.setEsi f e) = can.fd f
  rtr_setEsi f e : can.rtr (can.setEsi f e) = can.rtr f
  brs_setEsi f e : can.brs (can.setEsi f e) = can.brs f
  esi_setEsi f e : can.esi (can.setEsi f e) = e
  bytes_setEsi f e : can.bytes (can.setEsi f e) = can.bytes f
  dlc_setEsi f e : can.dlc (can.setEsi f e) = can.dlc f
  hasRtr_flagsOf f tx : can.hasRtr (can.flagsOf f tx) = can.rtr f
  hasBrs_flagsOf f tx : can.hasBrs (can.flagsOf f tx) = can.brs f
  hasEsi_flagsOf f tx : can.hasEsi (can.flagsOf f tx) = can.esi f
  hasRtr_zero : can.hasRtr 0 = false
  hasBrs_zero : can.hasBrs 0 = false
  hasEsi_zero : can.hasEsi 0 = false
  txFlag_ne_zero : can.txFlag ≠ 0

/-- What the repository uses of `wslib_wiretap_protocol`. -/
structure ProtocolLib (φ κ : Type) where
  /-- `RecordFields::from_can`. -/
  fromCan (frame : φ) (transmitted : Bool) : RecordFields κ
  /-- `RecordFields::to_can`. -/
  toCan (fields : RecordFields κ) (bus : UInt8) (payload : Bytes) : Option φ
  /-- `RecordFields::from_wire`. -/
  fromWire (kind : RecordKind) (idFlags : UInt32) (flags : UInt8) : RecordFields κ
  /-- `RecordFields::to_wire`: the id word and the flags byte. -/
  toWire (fields : RecordFields κ) : UInt32 × UInt8
  /-- `ID_ARB_MASK`. -/
  idArbMask : UInt32
  modbusId (unit func : UInt8) : UInt32
  modbusUnitFunc (id : UInt32) : UInt8 × UInt8
  /-- `Protocol::as_str`. -/
  asStr (p : Protocol) : String
  /-- `Protocol::from_str`. -/
  parse (s : String) : Option Protocol
  /-- `encode_batch_from`, and `take_frame`, `parse_batch` and `stamped` on the other side: a record
  with its time, as the other side has them. -/
  carry (b : BatchRecord κ) : Nat × Record
  /-- The longest payload the parser accepts in a record. -/
  maxPayload (kind : RecordKind) : Nat

/-- A frame made by `CanFrame::remote` or `CanFrame::data`, and its ESI. -/
inductive CanLib.Made {φ : Type} (can : CanLib φ) (bus : UInt8) : φ → Prop where
  | remote i x d e : Made can bus (can.setEsi (can.remote bus i x d) e)
  | data i x fd brs bs e : Made can bus (can.setEsi (can.data bus i x fd brs bs) e)

/-- A record's fields and its words on the wire are two forms of one thing, and so are a frame and
the fields of its record; a frame out of a record is made by the constructors. -/
structure ProtocolLib.Lawful {φ κ : Type} (can : CanLib φ) (protocol : ProtocolLib φ κ) : Prop where
  unitFunc_modbusId u f : protocol.modbusUnitFunc (protocol.modbusId u f) = (u, f)
  asStr_can : protocol.asStr .can = "can"
  parse_asStr p : protocol.parse (protocol.asStr p) = some p
  kind_fromWire k i fl : (protocol.fromWire k i fl).kind = k
  toCan_isSome k tx bus bs : (protocol.toCan (.can k tx) bus bs).isSome = true
  made_of_toCan {fields bus bs f} : protocol.toCan fields bus bs = some f → can.Made bus f
  length_of_toCan {fields bus bs f} :
    protocol.toCan fields bus bs = some f → (can.bytes f).length ≤ bs.length
  fromCan_eq f tx : ∃ k, protocol.fromCan f tx = .can k tx
  toCan_fromCan {i fl bus bs f} (tx) :
    protocol.toCan (protocol.fromWire .can i fl) bus bs = some f →
      protocol.toCan (protocol.fromCan f tx) bus (can.bytes f) = some f
  fromWire_fromCan {i fl bus bs f} (tx) :
    protocol.toCan (protocol.fromWire .can i fl) bus bs = some f →
      protocol.fromWire .can (protocol.toWire (protocol.fromCan f tx)).1
        (protocol.toWire (protocol.fromCan f tx)).2 = protocol.fromCan f tx
  fromWire_modbus u f crc tx :
    protocol.fromWire .modbus (protocol.toWire (.modbus u f crc tx)).1
      (protocol.toWire (.modbus u f crc tx)).2 = .modbus u f crc tx
  toWire_modbus u f crc tx :
    (protocol.toWire (.modbus u f crc tx)).1 &&& protocol.idArbMask = protocol.modbusId u f
  fromWire_rawSerial {i fl seq tx} (tx') : protocol.fromWire .rawSerial i fl = .rawSerial seq tx →
    protocol.fromWire .rawSerial (protocol.toWire (.rawSerial seq tx')).1
      (protocol.toWire (.rawSerial seq tx')).2 = .rawSerial seq tx'
  carry_eq (b : BatchRecord κ) : b.payload.length ≤ protocol.maxPayload b.fields.kind →
    protocol.carry b = (b.tsUs, ⟨b.fields.kind, (protocol.toWire b.fields).1,
      (protocol.toWire b.fields).2, b.bus, b.payload⟩)

/-! ### Across the protocol -/

variable {φ κ : Type} (can : CanLib φ) (protocol : ProtocolLib φ κ)

/-- The sample `frame` is. -/
def canSample (frame : φ) (tsUs : Int) (bus : UInt8) (dir : Direction) : CanSample where
  tsUs
  arbId := can.arbId frame
  extended := can.extended frame
  isFd := can.fd frame
  rtr := if can.rtr frame then some (can.dlc frame) else none
  brs := can.brs frame
  esi := can.esi frame
  data := can.bytes frame
  bus
  dir

/-- The frame `c` holds. -/
def canFrame (c : CanSample) : φ :=
  let frame :=
    match c.rtr with
    | some dlc => can.remote c.bus c.arbId c.extended dlc
    | none => can.data c.bus c.arbId c.extended c.isFd c.brs c.data
  can.setEsi frame c.esi

/-- The record a sample encodes as, and its payload. -/
def parts : Sample → RecordFields κ × Bytes
  | .can c => (protocol.fromCan (canFrame can c) (c.dir = .tx), c.data)
  | .modbus m => (.modbus m.unit m.func m.crcValid false, m.raw)
  | .serial r => (.rawSerial r.seq false, r.data)

/-- `s` as one record of a `BATCH`. -/
def record (s : Sample) : BatchRecord κ where
  tsUs := s.tsUs.toNat
  fields := (parts can protocol s).1
  bus := s.bus
  payload := (parts can protocol s).2

/-- The sample a record describes, stamped at `tsUs`; `none` where `decode` panics. -/
def decode (tsUs : Int) (r : Record) : Option Sample :=
  let fields := protocol.fromWire r.kind r.idFlags r.flags
  match fields with
  | .can _ transmitted =>
    (protocol.toCan fields r.bus r.payload).map fun frame =>
      .can (canSample can frame tsUs r.bus (if transmitted then .tx else .rx))
  | .modbus unit func crcValid _ =>
    some (.modbus ⟨tsUs, r.bus, unit, func, crcValid, r.payload⟩)
  | .rawSerial seq _ => some (.serial ⟨tsUs, r.bus, seq, r.payload⟩)

end WireTap.Wire
