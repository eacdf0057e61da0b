import Mathlib.Tactic.IntervalCases
import WireTap.Wire.Sample

/-!
# The libraries, spelled out

An instance of the laws in `WireTap.Wire.Sample`: frames as plain records, and the words of the wire
as the repository's Python client and the tests of its writer spell them out.  An id word is an
arbitration id of 29 bits and then extended, FD and transmitted; a flags byte is RTR, BRS and ESI
and then a remote frame's length code.  A Modbus id is `unit << 8 | func`, and a raw chunk's is its
read sequence.
-/

namespace WireTap.Wire.Reference

/-- A bit of a word. -/
def bit (b : Bool) (i : Nat) : Nat := if b then 2 ^ i else 0

def testBit (n i : Nat) : Bool := n / 2 ^ i % 2 = 1

theorem bit_false (i : Nat) : bit false i = 0 := rfl

theorem bit_true (i : Nat) : bit true i = 2 ^ i := rfl

theorem bit_le (b : Bool) (i : Nat) : bit b i ≤ 2 ^ i := by
  cases b with
  | false => exact Nat.zero_le _
  | true => exact Nat.le_refl _

/-! ### `wslib_can` -/

structure CanFrame where
  bus : UInt8
  arbId : UInt32
  extended : Bool
  fd : Bool
  rtr : Bool
  brs : Bool
  esi : Bool
  bytes : Bytes
  /-- The length code a remote frame requests. -/
  requested : UInt8
  deriving DecidableEq

/-- `payload_dlc`: the length code of a payload. -/
def payloadDlc (length : Nat) : UInt8 :=
  if length ≤ 8 then .ofNat length
  else if length ≤ 24 then .ofNat (6 + (length + 3) / 4)
  else if length ≤ 32 then 13
  else if length ≤ 48 then 14
  else 15

/-- The bits of `CanFlags`, least first: RTR, BRS, ESI, EXT, FD, TX. -/
def flagsOf (f : CanFrame) (transmitted : Bool) : Nat :=
  bit f.rtr 0 + bit f.brs 1 + bit f.esi 2 + bit f.extended 3 + bit f.fd 4 + bit transmitted 5

def canLib : CanLib CanFrame where
  remote bus arbId extended dlc := ⟨bus, arbId, extended, false, true, false, false, [], dlc⟩
  data bus arbId extended fd brs bytes := ⟨bus, arbId, extended, fd, false, brs, false, bytes, 0⟩
  setEsi frame esi := { frame with esi }
  arbId := CanFrame.arbId
  extended := CanFrame.extended
  fd := CanFrame.fd
  rtr := CanFrame.rtr
  brs := CanFrame.brs
  esi := CanFrame.esi
  bytes := CanFrame.bytes
  dlc f := if f.rtr then f.requested else payloadDlc f.bytes.length
  flagsOf f transmitted := .ofNat (flagsOf f transmitted)
  hasRtr flags := testBit flags.toNat 0
  hasBrs flags := testBit flags.toNat 1
  hasEsi flags := testBit flags.toNat 2
  txFlag := 32

theorem testBit_flags (rtr brs esi extended fd tx : Bool) :
    let flags := (UInt8.ofNat
      (bit rtr 0 + bit brs 1 + bit esi 2 + bit extended 3 + bit fd 4 + bit tx 5)).toNat
    testBit flags 0 = rtr ∧ testBit flags 1 = brs ∧ testBit flags 2 = esi := by
  revert rtr brs esi extended fd tx
  decide

theorem canLib_lawful : canLib.Lawful where
  arbId_remote _ _ _ _ := rfl
  extended_remote _ _ _ _ := rfl
  rtr_remote _ _ _ _ := rfl
  bytes_remote _ _ _ _ := rfl
  remote_dlc _ _ _ _ := rfl
  arbId_data _ _ _ _ _ _ := rfl
  extended_data _ _ _ _ _ _ := rfl
  fd_data _ _ _ _ _ _ := rfl
  rtr_data _ _ _ _ _ _ := rfl
  bytes_data _ _ _ _ _ _ := rfl
  data_brs _ _ _ _ _ _ := rfl
  arbId_setEsi _ _ := rfl
  extended_setEsi _ _ := rfl
  fd_setEsi _ _ := rfl
  rtr_setEsi _ _ := rfl
  brs_setEsi _ _ := rfl
  esi_setEsi _ _ := rfl
  bytes_setEsi _ _ := rfl
  dlc_setEsi _ _ := rfl
  hasRtr_flagsOf f tx := (testBit_flags f.rtr f.brs f.esi f.extended f.fd tx).1
  hasBrs_flagsOf f tx := (testBit_flags f.rtr f.brs f.esi f.extended f.fd tx).2.1
  hasEsi_flagsOf f tx := (testBit_flags f.rtr f.brs f.esi f.extended f.fd tx).2.2
  hasRtr_zero := rfl
  hasBrs_zero := rfl
  hasEsi_zero := rfl
  txFlag_ne_zero := by decide

/-! ### `wslib_wiretap_protocol` -/

/-- A CAN record's fields, less `transmitted`. -/
structure CanFields where
  arbId : UInt32
  extended : Bool
  fd : Bool
  rtr : Option UInt8
  brs : Bool
  esi : Bool
  deriving DecidableEq

def fromCan (f : CanFrame) (transmitted : Bool) : RecordFields CanFields :=
  .can ⟨f.arbId, f.extended, f.fd, if f.rtr then some f.requested else none, f.brs, f.esi⟩
    transmitted

def toCan (fields : RecordFields CanFields) (bus : UInt8) (payload : Bytes) : Option CanFrame :=
  match fields with
  | .can k _ =>
    some (canLib.setEsi
      (match k.rtr with
      | some dlc => canLib.remote bus k.arbId k.extended dlc
      | none => canLib.data bus k.arbId k.extended k.fd k.brs payload) k.esi)
  | _ => none

def modbusId (unit func : UInt8) : Nat := unit.toNat * 2 ^ 8 + func.toNat

def fromWire (kind : RecordKind) (idFlags : UInt32) (flags : UInt8) : RecordFields CanFields :=
  let i := idFlags.toNat
  let fl := flags.toNat
  match kind with
  | .can =>
    .can ⟨.ofNat (i % 2 ^ 29), testBit i 29, testBit i 30,
      if testBit fl 0 then some (.ofNat (fl / 2 ^ 3)) else none, testBit fl 1, testBit fl 2⟩
      (testBit i 31)
  | .modbus => .modbus (.ofNat (i / 2 ^ 8)) (.ofNat i) (testBit fl 0) (testBit i 31)
  | .rawSerial => .rawSerial (.ofNat (i % 2 ^ 31)) (testBit i 31)

def toWire : RecordFields CanFields → UInt32 × UInt8
  | .can k tx =>
    (.ofNat (k.arbId.toNat % 2 ^ 29 + bit k.extended 29 + bit k.fd 30 + bit tx 31),
      .ofNat (bit k.rtr.isSome 0 + bit k.brs 1 + bit k.esi 2 + (k.rtr.getD 0).toNat * 2 ^ 3))
  | .modbus unit func crcValid tx =>
    (.ofNat (modbusId unit func + bit tx 31), .ofNat (bit crcValid 0))
  | .rawSerial seq tx => (.ofNat (seq.toNat % 2 ^ 31 + bit tx 31), 0)

def protocolLib : ProtocolLib CanFrame CanFields where
  fromCan
  toCan
  fromWire
  toWire
  idArbMask := 0x1FFFFFFF
  modbusId unit func := .ofNat (modbusId unit func)
  modbusUnitFunc id := (.ofNat (id.toNat / 2 ^ 8), .ofNat id.toNat)
  asStr
    | .can => "can"
    | .modbusRtu => "modbus_rtu"
    | .serial => "serial"
  parse s :=
    if s = "can" then some .can
    else if s = "modbus_rtu" ∨ s = "modbus" then some .modbusRtu
    else if s = "serial" then some .serial
    else none
  carry b := (b.tsUs, ⟨b.fields.kind, (toWire b.fields).1, (toWire b.fields).2, b.bus, b.payload⟩)
  maxPayload
    | .can => 64
    | .modbus => 256
    | .rawSerial => 256

/-! ### The words of the wire -/

/-- A CAN record's id word. -/
theorem idWord {a : Nat} (ha : a < 2 ^ 29) (extended fd tx : Bool) :
    let i := (UInt32.ofNat (a + bit extended 29 + bit fd 30 + bit tx 31)).toNat
    i % 2 ^ 29 = a ∧ testBit i 29 = extended ∧ testBit i 30 = fd ∧ testBit i 31 = tx := by
  intro i
  have hi : i = a + bit extended 29 + bit fd 30 + bit tx 31 := by
    refine UInt32.toNat_ofNat_of_lt' ?_
    have hextended := bit_le extended 29
    have hfd := bit_le fd 30
    have htx := bit_le tx 31
    show _ < 2 ^ 32
    omega
  rw [hi]
  cases extended <;> cases fd <;> cases tx <;> simp [bit, testBit] <;> omega

/-- A CAN record's flags byte. -/
theorem flagsByte {d : Nat} (hd : d < 2 ^ 5) (rtr brs esi : Bool) :
    let fl := (UInt8.ofNat (bit rtr 0 + bit brs 1 + bit esi 2 + d * 2 ^ 3)).toNat
    testBit fl 0 = rtr ∧ testBit fl 1 = brs ∧ testBit fl 2 = esi ∧ fl / 2 ^ 3 = d := by
  intro fl
  have hfl : fl = bit rtr 0 + bit brs 1 + bit esi 2 + d * 2 ^ 3 := by
    refine UInt8.toNat_ofNat_of_lt' ?_
    have hrtr := bit_le rtr 0
    have hbrs := bit_le brs 1
    have hesi := bit_le esi 2
    show _ < 2 ^ 8
    omega
  rw [hfl]
  cases rtr <;> cases brs <;> cases esi <;> simp [bit, testBit] <;> omega

/-- An id word without flags, but for transmitted. -/
theorem plainWord {a : Nat} (ha : a < 2 ^ 31) (tx : Bool) :
    (UInt32.ofNat (a + bit tx 31)).toNat = a + bit tx 31 ∧ testBit (a + bit tx 31) 31 = tx := by
  constructor
  · refine UInt32.toNat_ofNat_of_lt' ?_
    have htx := bit_le tx 31
    show _ < 2 ^ 32
    omega
  · cases tx <;> simp [bit, testBit] <;> omega

theorem modbusId_lt (unit func : UInt8) : modbusId unit func < 2 ^ 16 := by
  have hunit := unit.toNat_lt
  have hfunc := func.toNat_lt
  unfold modbusId
  omega

/-- A Modbus id, and whatever is above its 16 bits. -/
theorem unitFunc (unit func : UInt8) (m : Nat) :
    UInt8.ofNat ((modbusId unit func + m * 2 ^ 16) / 2 ^ 8) = unit ∧
      UInt8.ofNat (modbusId unit func + m * 2 ^ 16) = func := by
  have hunit := unit.toNat_lt
  have hfunc := func.toNat_lt
  unfold modbusId
  constructor
  · apply UInt8.toNat_inj.mp
    rw [UInt8.toNat_ofNat']
    omega
  · apply UInt8.toNat_inj.mp
    rw [UInt8.toNat_ofNat']
    omega

theorem fromWire_toWire_can {k : CanFields} (ha : k.arbId.toNat < 2 ^ 29)
    (hd : (k.rtr.getD 0).toNat < 2 ^ 5) (tx : Bool) :
    fromWire .can (toWire (.can k tx)).1 (toWire (.can k tx)).2 = .can k tx := by
  obtain ⟨a, x, fd, rtr, brs, esi⟩ := k
  obtain ⟨harb, hextended, hfd, htx⟩ := idWord ha x fd tx
  obtain ⟨hrtr, hbrs, hesi, hdlc⟩ := flagsByte hd rtr.isSome brs esi
  have hmod : a.toNat % 2 ^ 29 = a.toNat := Nat.mod_eq_of_lt ha
  simp only [fromWire, toWire, hmod, harb, hextended, hfd, htx, hrtr, hbrs, hesi, hdlc]
  cases rtr with
  | none => simp
  | some d => simp

/-- What a frame read off the wire is. -/
theorem toCan_fromWire {i : UInt32} {fl bus : UInt8} {bs : Bytes} {f : CanFrame}
    (h : toCan (fromWire .can i fl) bus bs = some f) :
    ∃ a x e, (UInt32.toNat a) < 2 ^ 29 ∧
      ((∃ d : UInt8, d.toNat < 2 ^ 5 ∧ f = canLib.setEsi (canLib.remote bus a x d) e) ∨
        ∃ fd brs, f = canLib.setEsi (canLib.data bus a x fd brs bs) e) := by
  have ha : (UInt32.ofNat (i.toNat % 2 ^ 29)).toNat < 2 ^ 29 := by
    rw [UInt32.toNat_ofNat']
    omega
  have hd : (UInt8.ofNat (fl.toNat / 2 ^ 3)).toNat < 2 ^ 5 := by
    have hfl := fl.toNat_lt
    rw [UInt8.toNat_ofNat']
    omega
  obtain rfl := Option.some.inj h
  refine ⟨_, testBit i.toNat 29, testBit fl.toNat 2, ha, ?_⟩
  dsimp only [fromWire]
  split_ifs
  · exact .inl ⟨_, hd, rfl⟩
  · exact .inr ⟨_, _, rfl⟩

theorem protocolLib_lawful : protocolLib.Lawful canLib where
  unitFunc_modbusId u f := by
    have hlt := modbusId_lt u f
    have hword : (UInt32.ofNat (modbusId u f)).toNat = modbusId u f := by
      refine UInt32.toNat_ofNat_of_lt' ?_
      show _ < 2 ^ 32
      omega
    obtain ⟨hunit, hfunc⟩ := unitFunc u f 0
    rw [Nat.zero_mul, Nat.add_zero] at hunit hfunc
    simp only [protocolLib, hword, hunit, hfunc]
  asStr_can := rfl
  parse_asStr p := by cases p <;> decide
  kind_fromWire k i fl := by cases k <;> rfl
  toCan_isSome _ _ _ _ := rfl
  made_of_toCan := by
    intro fields bus bs f h
    cases fields with
    | can k tx =>
      obtain rfl := Option.some.inj h
      cases k.rtr with
      | none => exact .data ..
      | some d => exact .remote ..
    | modbus => cases h
    | rawSerial => cases h
  length_of_toCan := by
    intro fields bus bs f h
    cases fields with
    | can k tx =>
      obtain rfl := Option.some.inj h
      cases k.rtr with
      | none => exact Nat.le_refl _
      | some d => exact Nat.zero_le _
    | modbus => cases h
    | rawSerial => cases h
  fromCan_eq _ _ := ⟨_, rfl⟩
  toCan_fromCan := by
    intro i fl bus bs f tx h
    obtain ⟨a, x, e, -, ⟨d, -, rfl⟩ | ⟨fd, brs, rfl⟩⟩ := toCan_fromWire h
    · rfl
    · rfl
  fromWire_fromCan := by
    intro i fl bus bs f tx h
    obtain ⟨a, x, e, ha, ⟨d, hd, rfl⟩ | ⟨fd, brs, rfl⟩⟩ := toCan_fromWire h
    · exact fromWire_toWire_can (k := ⟨a, x, false, some d, false, e⟩) ha hd tx
    · exact fromWire_toWire_can (k := ⟨a, x, fd, none, brs, e⟩) ha (Nat.two_pow_pos 5) tx
  fromWire_modbus u f crc tx := by
    have hlt := modbusId_lt u f
    obtain ⟨hword, htx⟩ := plainWord (by omega : modbusId u f < 2 ^ 31) tx
    -- The transmitted bit is above the two bytes of the id.
    have hbit : bit tx 31 = bit tx 15 * 2 ^ 16 := by cases tx <;> rfl
    obtain ⟨hunit, hfunc⟩ := unitFunc u f (bit tx 15)
    rw [← hbit] at hunit hfunc
    have hcrc : testBit (UInt8.ofNat (bit crc 0)).toNat 0 = crc := by cases crc <;> rfl
    simp only [protocolLib, fromWire, toWire, hword, htx, hunit, hfunc, hcrc]
  toWire_modbus u f crc tx := by
    have hlt := modbusId_lt u f
    obtain ⟨hword, -⟩ := plainWord (by omega : modbusId u f < 2 ^ 31) tx
    apply UInt32.toNat_inj.mp
    simp only [protocolLib, toWire]
    rw [UInt32.toNat_and, hword, UInt32.toNat_ofNat_of_lt' (by show _ < 2 ^ 32; omega)]
    show (modbusId u f + bit tx 31) &&& (2 ^ 29 - 1) = modbusId u f
    rw [Nat.and_two_pow_sub_one_eq_mod]
    cases tx <;> simp only [bit_false, bit_true] <;> omega
  fromWire_rawSerial := by
    intro i fl seq tx tx' h
    obtain ⟨rfl, -⟩ := RecordFields.rawSerial.inj h
    have hseq : (UInt32.ofNat (i.toNat % 2 ^ 31)).toNat = i.toNat % 2 ^ 31 := by
      refine UInt32.toNat_ofNat_of_lt' ?_
      show _ < 2 ^ 32
      omega
    obtain ⟨hword, htx⟩ := plainWord (by omega : i.toNat % 2 ^ 31 < 2 ^ 31) tx'
    have hmod : (i.toNat % 2 ^ 31 + bit tx' 31) % 2 ^ 31 = i.toNat % 2 ^ 31 := by
      cases tx' <;> simp only [bit_false, bit_true] <;> omega
    simp only [protocolLib, fromWire, toWire, hseq, Nat.mod_mod, hword, htx, hmod]
  carry_eq _ _ := rfl

end WireTap.Wire.Reference
