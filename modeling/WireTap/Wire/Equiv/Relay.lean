import WireTap.Wire.Relay
import WireTap.Wire.Reference
import WireTap.Cache.Equiv.Rows

/-!
# What a relay keeps

`relayedRow_eq_iff`: the row of a relayed record is the row of the same record pushed straight to
the gateway exactly if the daemon's sample has room for the record.  A CAN record always has: the
frame read out of it is the frame read out of the record it is forwarded as
(`canFrame_canSample`).  A Modbus message and a raw chunk come off a line nobody transmits on, so
`transmitted` is dropped, and a Modbus id is made of the unit and the function code alone.  In the
disk cache a time is a `REAL`.
-/

namespace WireTap.Wire

open Gateway (FrameRow txFlags)

variable {φ κ ρ : Type} {can : CanLib φ} {protocol : ProtocolLib φ κ} {secs : Secs ρ}

/-- The time a relayed record ends up with. -/
def relayedTs (secs : Secs ρ) (cached : Bool) (tsUs : Int) : Nat :=
  if cached then (secs.fromSecs (secs.toSecs tsUs)).toNat else tsUs.toNat

/-- The sample of the record holds all the gateway makes a row of. -/
def Survives (protocol : ProtocolLib φ κ) (secs : Secs ρ) (cached : Bool) (tsUs : Int)
    (r : Record) : Prop :=
  (relayedTs secs cached tsUs : Int) = tsUs ∧
    match protocol.fromWire r.kind r.idFlags r.flags with
    | .can .. => True
    | .modbus unit func _ transmitted =>
      transmitted = false ∧ r.idFlags &&& protocol.idArbMask = protocol.modbusId unit func
    | .rawSerial _ transmitted => transmitted = false

/-- The frame of a sample made of a frame is that frame. -/
theorem canFrame_canSample (hcan : can.Lawful) {bus : UInt8} {f : φ} (hf : can.Made bus f)
    (tsUs : Int) (dir : Direction) : canFrame can (canSample can f tsUs bus dir) = f := by
  cases hf with
  | remote i x d e =>
    simp [canFrame, canSample, hcan.rtr_setEsi, hcan.rtr_remote, hcan.arbId_setEsi,
      hcan.arbId_remote, hcan.extended_setEsi, hcan.extended_remote, hcan.dlc_setEsi,
      hcan.remote_dlc, hcan.esi_setEsi]
  | data i x fd brs bs e =>
    simp [canFrame, canSample, hcan.rtr_setEsi, hcan.rtr_data, hcan.arbId_setEsi,
      hcan.arbId_data, hcan.extended_setEsi, hcan.extended_data, hcan.fd_setEsi, hcan.fd_data,
      hcan.brs_setEsi, hcan.bytes_setEsi, hcan.bytes_data, hcan.data_brs, hcan.esi_setEsi]

/-- A sample comes out of the cache with its record, but for the time. -/
theorem cache_spec (hcan : can.Lawful) (hprotocol : protocol.Lawful can) (secs : Secs ρ)
    (cached : Bool) (s : Sample) :
    ∃ s', cache can protocol secs cached s = some s' ∧
      record can protocol s' =
        { record can protocol s with tsUs := relayedTs secs cached s.tsUs } := by
  cases cached with
  | false => exact ⟨s, rfl, rfl⟩
  | true =>
    refine ⟨stored can secs s, ?_, record_stored hcan s⟩
    simp only [cache, if_true, readRow_rowOf hcan hprotocol]
    rfl

/-- The row of a relayed record is the row of the words its sample's record is written in. -/
theorem relayedRow_eq (hcan : can.Lawful) (hprotocol : protocol.Lawful can) {cached : Bool}
    {tsUs : Int} {r : Record} {s : Sample} (hdecode : decode can protocol tsUs r = some s)
    (htsUs : s.tsUs = tsUs)
    (hfits : (record can protocol s).payload.length ≤
      protocol.maxPayload (record can protocol s).fields.kind) :
    relayedRow can protocol secs cached tsUs r =
      FrameRow.new can protocol (relayedTs secs cached tsUs)
        ⟨(record can protocol s).fields.kind, (protocol.toWire (record can protocol s).fields).1,
          (protocol.toWire (record can protocol s).fields).2, s.bus,
          (record can protocol s).payload⟩ := by
  obtain ⟨s', hcache, hrecord⟩ := cache_spec hcan hprotocol secs cached s
  have hcarry := hprotocol.carry_eq (record can protocol s') (by rw [hrecord]; exact hfits)
  unfold relayedRow
  rw [hdecode, Option.bind_eq_bind, Option.bind_some, hcache, Option.bind_some]
  unfold forwardedRow
  rw [hcarry, hrecord, htsUs]
  rfl

theorem txFlags_eq_zero_iff (hcan : can.Lawful) {transmitted : Bool} :
    txFlags can transmitted = 0 ↔ transmitted = false := by
  cases transmitted with
  | false => simp [txFlags]
  | true => simp [txFlags, hcan.txFlag_ne_zero]

/-! ### The three kinds -/

section Kinds

variable {cached : Bool} {tsUs : Int} {r : Record}

/-- A record with the fields of a kind is of that kind. -/
theorem kind_of_fields (hprotocol : protocol.Lawful can) {fields : RecordFields κ}
    (hfields : protocol.fromWire r.kind r.idFlags r.flags = fields) : fields.kind = r.kind := by
  rw [← hfields, hprotocol.kind_fromWire]

/-- Two records read as one frame have one row. -/
theorem new_congr_can {r' : Record} {k k' : κ} {transmitted : Bool} {f : φ}
    (hfields : protocol.fromWire r.kind r.idFlags r.flags = .can k transmitted)
    (hfields' : protocol.fromWire r'.kind r'.idFlags r'.flags = .can k' transmitted)
    (hf : protocol.toCan (.can k transmitted) r.bus r.payload = some f)
    (hf' : protocol.toCan (.can k' transmitted) r'.bus r'.payload = some f)
    (hbus : r.bus = r'.bus) :
    FrameRow.new can protocol tsUs r = FrameRow.new can protocol tsUs r' := by
  simp only [FrameRow.new, hfields, hfields', hf, hf']
  rw [hbus]

/-- A CAN record's row, relayed, is its own but for the time. -/
theorem relayedRow_can (hcan : can.Lawful) (hprotocol : protocol.Lawful can) {k : κ}
    {transmitted : Bool} (hfields : protocol.fromWire r.kind r.idFlags r.flags = .can k transmitted)
    (hfits : r.payload.length ≤ protocol.maxPayload r.kind) :
    relayedRow can protocol secs cached tsUs r =
      FrameRow.new can protocol (relayedTs secs cached tsUs) r := by
  have hkind : r.kind = .can := (kind_of_fields hprotocol hfields).symm
  obtain ⟨f, hf⟩ := Option.isSome_iff_exists.mp
    (hprotocol.toCan_isSome k transmitted r.bus r.payload)
  have hread : protocol.toCan (protocol.fromWire .can r.idFlags r.flags) r.bus r.payload =
      some f := by
    rw [← hkind, hfields, hf]
  let s : CanSample := canSample can f tsUs r.bus (if transmitted then .tx else .rx)
  have hdecode : decode can protocol tsUs r = some (.can s) := by
    simp only [decode, hfields, hf, Option.map_some]
    rfl
  -- The relay makes the record anew from the frame: its key need not be the one that came.
  obtain ⟨k', hk'⟩ := hprotocol.fromCan_eq f transmitted
  have hparts : parts can protocol (.can s) = (.can k' transmitted, can.bytes f) := by
    have hdir : decide (s.dir = .tx) = transmitted := by cases transmitted <;> rfl
    have hframe : canFrame can s = f :=
      canFrame_canSample hcan (hprotocol.made_of_toCan hf) tsUs _
    simp only [parts, hframe, hdir, hk']
    rfl
  have hlength : (can.bytes f).length ≤ protocol.maxPayload .can := by
    have hle := hprotocol.length_of_toCan hf
    rw [hkind] at hfits
    omega
  have hwords := hprotocol.fromWire_fromCan transmitted hread
  have hagain := hprotocol.toCan_fromCan transmitted hread
  rw [hk'] at hwords hagain
  -- Both keys read back as the same frame, and the row is made of that.
  rw [relayedRow_eq hcan hprotocol hdecode rfl (by simp only [record, hparts]; exact hlength)]
  simp only [record, hparts]
  exact new_congr_can hwords hfields hagain hf rfl

/-- A Modbus record's row, relayed: nothing is transmitted, and the id is the unit and the function
code. -/
theorem relayedRow_modbus (hcan : can.Lawful) (hprotocol : protocol.Lawful can) {unit func : UInt8}
    {crcValid transmitted : Bool}
    (hfields : protocol.fromWire r.kind r.idFlags r.flags =
      .modbus unit func crcValid transmitted)
    (hfits : r.payload.length ≤ protocol.maxPayload r.kind) :
    relayedRow can protocol secs cached tsUs r =
      some
        { tsUs := relayedTs secs cached tsUs
          protocol := .modbusRtu
          id := protocol.modbusId unit func
          flags := 0
          dlc := .ofNat r.payload.length
          data := r.payload
          bus := r.bus
          unit := some unit.toNat
          func := some func.toNat
          crcValid := some crcValid } := by
  rw [← kind_of_fields hprotocol hfields] at hfits
  have hdecode : decode can protocol tsUs r =
      some (.modbus ⟨tsUs, r.bus, unit, func, crcValid, r.payload⟩) := by
    simp only [decode, hfields]
  have hwords := hprotocol.fromWire_modbus unit func crcValid false
  have hid := hprotocol.toWire_modbus unit func crcValid false
  rw [relayedRow_eq hcan hprotocol hdecode rfl hfits]
  simp only [record, parts, RecordFields.kind, FrameRow.new, hwords, hid]
  rfl

/-- A raw chunk's row, relayed: nothing is transmitted. -/
theorem relayedRow_rawSerial (hcan : can.Lawful) (hprotocol : protocol.Lawful can) {seq : UInt32}
    {transmitted : Bool}
    (hfields : protocol.fromWire r.kind r.idFlags r.flags = .rawSerial seq transmitted)
    (hfits : r.payload.length ≤ protocol.maxPayload r.kind) :
    relayedRow can protocol secs cached tsUs r =
      some
        { tsUs := relayedTs secs cached tsUs
          protocol := .serial
          id := 0
          flags := 0
          dlc := .ofNat r.payload.length
          data := r.payload
          bus := r.bus
          unit := none
          func := none
          crcValid := none } := by
  have hkind : r.kind = .rawSerial := (kind_of_fields hprotocol hfields).symm
  have hdecode : decode can protocol tsUs r = some (.serial ⟨tsUs, r.bus, seq, r.payload⟩) := by
    simp only [decode, hfields]
  rw [hkind] at hfields hfits
  have hwords := hprotocol.fromWire_rawSerial false hfields
  rw [relayedRow_eq hcan hprotocol hdecode rfl hfits]
  simp only [record, parts, RecordFields.kind, FrameRow.new, hwords]
  rfl

end Kinds

/-- The row of a relayed record is the row of the record pushed straight to the gateway exactly if
its sample holds all of it. -/
theorem relayedRow_eq_iff (hcan : can.Lawful) (hprotocol : protocol.Lawful can) (cached : Bool)
    (tsUs : Nat) (r : Record) (hfits : r.payload.length ≤ protocol.maxPayload r.kind) :
    relayedRow can protocol secs cached tsUs r = FrameRow.new can protocol tsUs r ↔
      Survives protocol secs cached tsUs r := by
  unfold Survives
  cases hfields : protocol.fromWire r.kind r.idFlags r.flags with
  | can k transmitted =>
    obtain ⟨f, hf⟩ := Option.isSome_iff_exists.mp
      (hprotocol.toCan_isSome k transmitted r.bus r.payload)
    -- A CAN sample has its direction, so only the timestamp can differ.
    rw [relayedRow_can hcan hprotocol hfields hfits]
    simp [FrameRow.new, hfields, hf]
  | modbus unit func crcValid transmitted =>
    -- A Modbus or raw sample has no direction: it goes out as received.
    rw [relayedRow_modbus hcan hprotocol hfields hfits]
    simp only [FrameRow.new, hfields, Option.some.injEq, FrameRow.mk.injEq, true_and, and_true]
    rw [eq_comm (a := (0 : UInt8)), txFlags_eq_zero_iff hcan]
    tauto
  | rawSerial seq transmitted =>
    rw [relayedRow_rawSerial hcan hprotocol hfields hfits]
    simp only [FrameRow.new, hfields, Option.some.injEq, FrameRow.mk.injEq, true_and, and_true]
    rw [eq_comm (a := (0 : UInt8)), txFlags_eq_zero_iff hcan]

/-! ### Records -/

open Reference (canLib protocolLib canLib_lawful protocolLib_lawful)

/-- A Modbus message marked as transmitted. -/
def transmittedModbus : Record := ⟨.modbus, 0x80000103, 1, 0, [0x01, 0x03, 0x84, 0x0A]⟩

/-- Relayed, it is received. -/
theorem relayedRow_transmitted :
    (FrameRow.new canLib protocolLib 1700000000000001 transmittedModbus).map (·.flags) = some 32 ∧
      (relayedRow canLib protocolLib Waiting.exactSecs false 1700000000000001
        transmittedModbus).map (·.flags) = some 0 ∧
      relayedRow canLib protocolLib Waiting.exactSecs false 1700000000000001 transmittedModbus ≠
        FrameRow.new canLib protocolLib 1700000000000001 transmittedModbus := by
  decide +kernel

/-- A remote frame with FD, BRS, ESI and TX. -/
def remoteRecord : Record := ⟨.can, 0xC00007DF, 71, 1, [1, 2]⟩

def modbusRecord : Record := ⟨.modbus, 0x103, 1, 0, [0x01, 0x03, 0x84, 0x0A]⟩

theorem relayedRow_eq_records :
    relayedRow canLib protocolLib Waiting.exactSecs true 1700000000000001 remoteRecord =
        FrameRow.new canLib protocolLib 1700000000000001 remoteRecord ∧
      relayedRow canLib protocolLib Waiting.exactSecs true 1700000000000001 modbusRecord =
        FrameRow.new canLib protocolLib 1700000000000001 modbusRecord :=
  ⟨(relayedRow_eq_iff canLib_lawful protocolLib_lawful true 1700000000000001 remoteRecord
      (by decide)).mpr ⟨by decide +kernel, trivial⟩,
    (relayedRow_eq_iff canLib_lawful protocolLib_lawful true 1700000000000001 modbusRecord
      (by decide)).mpr ⟨by decide +kernel, And.intro rfl rfl⟩⟩

end WireTap.Wire
