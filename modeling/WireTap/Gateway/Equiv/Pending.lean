import Mathlib.Data.List.Basic
import WireTap.Gateway.Pending
import WireTap.Wire.Reference

/-!
# A buffered batch can be drained

`buffered_rows_drain`: whatever record the ingest parser accepts, a row of it that the buffer's
columns took is one that `capture_frame` takes, so the drain's `INSERT` of a buffer of such rows
fails on none of them.  The two tables type their columns alike, so what is left is the `CHECK`s:
`protocolColumns_of_new` has a case for each protocol.

`accepted_iff`: the rows `capture_frame` takes are the `CaptureFrame`s of the read side.
-/

namespace WireTap.Gateway

open Wire

/-! ### What `capture_frame` takes -/

/-- `Protocol::as_str`. -/
def protocolText : Wire.Protocol → String
  | .can => "can"
  | .modbusRtu => "modbus_rtu"
  | .serial => "serial"

/-- A frame as a row, ingested at some time. -/
def CaptureFrame.row (f : CaptureFrame) (ingestTs : Int) : CaptureRow where
  ts := f.ts
  ingestTs := ingestTs
  protocol := protocolText f.protocol
  id := f.id
  dlc := f.dlc
  dataBytes := f.dataBytes
  bus := f.bus
  flags := f.flags
  unit := f.unit
  func := f.func
  crcValid := f.crcValid

theorem satisfies_dlcCheck {row : CaptureRow} {dlc : Int16} (h : row.dlc = some dlc) :
    satisfies row.dlcCheck = true ↔ 0 ≤ dlc ∧ dlc ≤ 256 := by
  by_cases h0 : 0 ≤ dlc <;> by_cases h1 : dlc ≤ 256 <;>
    simp [satisfies, CaptureRow.dlcCheck, sqlAnd, h, h0, h1]

/-- The constraint on the protocol's columns, on a row whose protocol is one of the three. -/
theorem satisfies_columnsCheck {row : CaptureRow} {p : Wire.Protocol}
    (hp : row.protocol = some (protocolText p)) :
    satisfies row.protocolColumnsCheck = true ↔ ∃ flags, row.flags = some flags ∧
      protocolColumnsCheck p flags row.unit row.func row.crcValid = true := by
  obtain ⟨ts, ingestTs, protocol, id, dlc, dataBytes, bus, flags, unit, func, crcValid⟩ := row
  obtain rfl : protocol = some (protocolText p) := hp
  cases flags with
  | none =>
    cases p <;> simp [satisfies, CaptureRow.protocolColumnsCheck, protocolText, sqlIsNotNull, sqlAnd]
  | some flags =>
    cases p <;> cases unit <;> cases func <;> cases crcValid <;>
      by_cases h0 : flags = 0 <;> by_cases h32 : flags = 32 <;>
        simp [satisfies, CaptureRow.protocolColumnsCheck, protocolText, sqlIsNotNull, sqlIsNull,
          sqlAnd, sqlIn, protocolColumnsCheck, h0, h32]

theorem protocol_of_check {row : CaptureRow} (hthere : row.protocol.isSome)
    (h : satisfies row.protocolCheck = true) : ∃ p, row.protocol = some (protocolText p) := by
  obtain ⟨text, htext⟩ := Option.isSome_iff_exists.mp hthere
  rw [htext]
  simp only [satisfies, CaptureRow.protocolCheck, sqlIn, htext, Option.map_some] at h
  simp only [ne_eq, Option.some.injEq, decide_eq_false_iff_not, not_not, decide_eq_true_eq,
    List.mem_cons, List.not_mem_nil, or_false] at h
  rcases h with rfl | rfl | rfl
  · exact ⟨.can, rfl⟩
  · exact ⟨.modbusRtu, rfl⟩
  · exact ⟨.serial, rfl⟩

theorem satisfies_protocolCheck {row : CaptureRow} {p : Wire.Protocol}
    (hp : row.protocol = some (protocolText p)) : satisfies row.protocolCheck = true := by
  cases p <;> simp [satisfies, CaptureRow.protocolCheck, sqlIn, hp, protocolText]

/-- The rows the table takes are the frames the read side knows. -/
theorem accepted_iff (row : CaptureRow) :
    row.accepted = true ↔ ∃ (f : CaptureFrame) (ingestTs : Int), row = f.row ingestTs := by
  constructor
  · intro h
    simp only [CaptureRow.accepted, CaptureRow.notNull, Bool.and_eq_true] at h
    obtain ⟨⟨⟨⟨⟨⟨⟨⟨⟨hts, hingest⟩, hprotocol⟩, hid⟩, hdlc⟩, hdata⟩, hbus⟩, hin⟩, hrange⟩, hcolumns⟩ := h
    obtain ⟨p, hp⟩ := protocol_of_check hprotocol hin
    obtain ⟨flags, hflags, hcheck⟩ := (satisfies_columnsCheck hp).mp hcolumns
    obtain ⟨ts, hts⟩ := Option.isSome_iff_exists.mp hts
    obtain ⟨ingestTs, hingest⟩ := Option.isSome_iff_exists.mp hingest
    obtain ⟨id, hid⟩ := Option.isSome_iff_exists.mp hid
    obtain ⟨dlc, hdlc⟩ := Option.isSome_iff_exists.mp hdlc
    obtain ⟨dataBytes, hdata⟩ := Option.isSome_iff_exists.mp hdata
    obtain ⟨bus, hbus⟩ := Option.isSome_iff_exists.mp hbus
    refine ⟨⟨ts, p, id, dlc, dataBytes, bus, flags, row.unit, row.func, row.crcValid,
      (satisfies_dlcCheck hdlc).mp hrange, hcheck⟩, ingestTs, ?_⟩
    exact CaptureRow.ext hts hingest hp hid hdlc hdata hbus hflags rfl rfl rfl
  · rintro ⟨f, ingestTs, rfl⟩
    have hprotocol : satisfies (f.row ingestTs).protocolCheck = true := satisfies_protocolCheck rfl
    have hdlc : satisfies (f.row ingestTs).dlcCheck = true :=
      (satisfies_dlcCheck rfl).mpr f.dlc_check
    have hcolumns : satisfies (f.row ingestTs).protocolColumnsCheck = true :=
      (satisfies_columnsCheck rfl).mpr ⟨f.flags, rfl, f.columns_check⟩
    have hthere : (f.row ingestTs).notNull = true := rfl
    simp only [CaptureRow.accepted, hthere, hprotocol, hdlc, hcolumns, Bool.and_self]

/-! ### What the libraries promise -/

/-- A CAN record has a frame, whose length code is at most 15; `CanFlags::TX` is 32; and the names of
the protocols are those the table knows. -/
structure Contracts {φ κ : Type} (can : CanLib φ) (protocol : ProtocolLib φ κ) : Prop where
  toCan_isSome k tx bus bs : (protocol.toCan (.can k tx) bus bs).isSome = true
  dlc_le {k tx bus bs f} : protocol.toCan (.can k tx) bus bs = some f → (can.dlc f).toNat ≤ 15
  txFlag_eq : can.txFlag = 32
  asStr_eq p : protocol.asStr p = protocolText p

/-- The longest payload the ingest parser accepts. -/
def payloadLimit : RecordKind → Nat
  | .can => 64
  | .modbus | .rawSerial => 256

variable {φ κ : Type} {can : CanLib φ} {protocol : ProtocolLib φ κ} {timestamptz : Int → Option Int}

theorem payloadLimit_le (kind : RecordKind) : payloadLimit kind ≤ 256 := by
  cases kind <;> decide

/-! ### The rows of a record -/

/-- What a row of `FrameRow::new` is, as far as the constraints go. -/
structure RowFits (row : FrameRow) : Prop where
  dlc_le : row.dlc.toNat ≤ 256
  columns : match row.protocol with
    | .can => row.unit = none ∧ row.func = none ∧ row.crcValid = none
    | .modbusRtu => (row.flags = 0 ∨ row.flags = 32) ∧ row.unit.isSome ∧ row.func.isSome ∧
        row.crcValid.isSome
    | .serial => (row.flags = 0 ∨ row.flags = 32) ∧ row.unit = none ∧ row.func = none ∧
        row.crcValid = none

theorem txFlags_cases (h : Contracts can protocol) (transmitted : Bool) :
    txFlags can transmitted = 0 ∨ txFlags can transmitted = 32 := by
  unfold txFlags
  rw [h.txFlag_eq]
  cases transmitted
  · exact .inl rfl
  · exact .inr rfl

theorem toNat_ofNat_le {n : Nat} (h : n ≤ 256) : (UInt16.ofNat n).toNat ≤ 256 := by
  rw [UInt16.toNat_ofNat_of_lt' (by show n < 2 ^ 16; omega)]
  exact h

/-- Every record has a row, and it fits. -/
theorem exists_new (h : Contracts can protocol) (tsUs : Int) {r : Record}
    (hpayload : r.payload.length ≤ payloadLimit r.kind) :
    ∃ row, FrameRow.new can protocol tsUs r = some row ∧ RowFits row := by
  have hlen : r.payload.length ≤ 256 := hpayload.trans (payloadLimit_le r.kind)
  unfold FrameRow.new
  cases protocol.fromWire r.kind r.idFlags r.flags with
  | can k transmitted =>
    obtain ⟨frame, hframe⟩ :=
      Option.isSome_iff_exists.mp (h.toCan_isSome k transmitted r.bus r.payload)
    simp only [hframe, Option.map_some]
    refine ⟨_, rfl, ?_, rfl, rfl, rfl⟩
    have hdlc := h.dlc_le hframe
    rw [UInt8.toNat_toUInt16]
    omega
  | modbus unit func crcValid transmitted =>
    exact ⟨_, rfl, toNat_ofNat_le hlen, txFlags_cases h transmitted, rfl, rfl, rfl⟩
  | rawSerial seq transmitted =>
    exact ⟨_, rfl, toNat_ofNat_le hlen, txFlags_cases h transmitted, rfl, rfl, rfl⟩

/-! ### The buffer and the drain -/

theorem int2_bounds {n : Int} {v : Int16} (h : int2 n = some v) (h0 : 0 ≤ n) (h1 : n ≤ 256) :
    0 ≤ v ∧ v ≤ 256 := by
  obtain ⟨-, h⟩ := Option.ite_none_right_eq_some.mp h
  obtain rfl := Option.some.inj h
  have hv : (Int16.ofInt n).toInt = n := Int16.toInt_ofInt_of_le (by omega) (by omega)
  rw [Int16.le_iff_toInt_le, Int16.le_iff_toInt_le, hv]
  exact ⟨h0, h1⟩

/-- The columns of a buffered row, and what they were read from. -/
structure Stored (row : FrameRow) (p : PendingRow) : Prop where
  protocol : p.protocol = protocolText row.protocol
  flags : int2 row.flags.toNat = some p.flags
  dlc : int2 row.dlc.toNat = some p.dlc
  unit : nullable int2 row.unit = some p.unit
  func : nullable int2 row.func = some p.func
  crcValid : p.crcValid = row.crcValid

theorem stored_of_pending (h : Contracts can protocol) {now : Int} {row : FrameRow} {p : PendingRow}
    (hp : row.pending protocol timestamptz now = some p) : Stored row p := by
  simp only [FrameRow.pending, Option.bind_eq_bind, Option.bind_eq_some_iff, Option.pure_def,
    Option.some.injEq] at hp
  obtain ⟨ts, -, id, -, flags, hflags, dlc, hdlc, bus, -, unit, hunit, func, hfunc, rfl⟩ := hp
  exact ⟨h.asStr_eq row.protocol, hflags, hdlc, hunit, hfunc, rfl⟩

theorem nullable_isSome {α β : Type} {input : α → Option β} {v : Option α} {w : Option β}
    (h : nullable input v = some w) : w.isSome = v.isSome := by
  cases v with
  | none =>
    obtain rfl := Option.some.inj h
    rfl
  | some v =>
    obtain ⟨x, -, rfl⟩ := Option.map_eq_some_iff.mp h
    rfl

/-- A buffered row meets the constraint on its protocol's columns. -/
theorem columns_of_stored {row : FrameRow} {p : PendingRow} (hfits : RowFits row)
    (hp : Stored row p) :
    protocolColumnsCheck row.protocol p.flags p.unit p.func p.crcValid = true := by
  have hunit := nullable_isSome hp.unit
  have hfunc := nullable_isSome hp.func
  have hcrc := hp.crcValid
  have hflags : row.flags = 0 ∨ row.flags = 32 → p.flags = 0 ∨ p.flags = 32 := by
    have hread := hp.flags
    rintro (h | h) <;> rw [h] at hread
    · exact .inl (Option.some.inj hread).symm
    · exact .inr (Option.some.inj hread).symm
  have hcolumns := hfits.columns
  cases hprotocol : row.protocol with
  | can =>
    simp only [hprotocol] at hcolumns
    simp_all [protocolColumnsCheck]
  | modbusRtu =>
    simp only [hprotocol] at hcolumns
    have hflags := hflags hcolumns.1
    simp_all [protocolColumnsCheck]
  | serial =>
    simp only [hprotocol] at hcolumns
    have hflags := hflags hcolumns.1
    simp_all [protocolColumnsCheck]

theorem accepted_of_stored {row : FrameRow} {p : PendingRow} (hfits : RowFits row)
    (hp : Stored row p) : p.captured.accepted = true := by
  have hprotocol : p.captured.protocol = some (protocolText row.protocol) :=
    congrArg some hp.protocol
  have hdlc := int2_bounds hp.dlc (by omega) (by exact_mod_cast hfits.dlc_le)
  have hcheck : satisfies p.captured.dlcCheck = true := (satisfies_dlcCheck rfl).mpr hdlc
  have hcolumns : satisfies p.captured.protocolColumnsCheck = true :=
    (satisfies_columnsCheck hprotocol).mpr ⟨p.flags, rfl, columns_of_stored hfits hp⟩
  have hthere : p.captured.notNull = true := rfl
  simp only [CaptureRow.accepted, hthere, satisfies_protocolCheck hprotocol, hcheck, hcolumns,
    Bool.and_self]

/-- The buffer took the row of a record the parser accepted. -/
def Buffered (can : CanLib φ) (protocol : ProtocolLib φ κ) (timestamptz : Int → Option Int)
    (p : PendingRow) : Prop :=
  ∃ tsUs r row now, r.payload.length ≤ payloadLimit r.kind ∧
    FrameRow.new can protocol tsUs r = some row ∧ row.pending protocol timestamptz now = some p

/-- Every record the parser accepts has a row; if the buffer takes it, `capture_frame` does; and a
drain inserts a buffer of such rows. -/
theorem buffered_rows_drain (h : Contracts can protocol) (timestamptz : Int → Option Int) :
    (∀ tsUs (r : Record), r.payload.length ≤ payloadLimit r.kind →
      ∃ row, FrameRow.new can protocol tsUs r = some row ∧
        ∀ now p, row.pending protocol timestamptz now = some p → p.captured.accepted = true) ∧
    ∀ buffer : List PendingRow, (∀ p ∈ buffer, Buffered can protocol timestamptz p) →
      drainInsert buffer = some (buffer.map PendingRow.captured) := by
  refine ⟨?_, ?_⟩
  · intro tsUs r hpayload
    obtain ⟨row, hrow, hfits⟩ := exists_new h tsUs hpayload
    exact ⟨row, hrow, fun now p hp => accepted_of_stored hfits (stored_of_pending h hp)⟩
  · intro buffer hbuffer
    refine if_pos (List.all_eq_true.mpr fun p hp => ?_)
    obtain ⟨tsUs, r, row, now, hpayload, hrow, hpending⟩ := hbuffer p hp
    obtain ⟨row', hrow', hfits⟩ := exists_new h tsUs hpayload
    obtain rfl : row' = row := Option.some.inj (hrow'.symm.trans hrow)
    exact accepted_of_stored hfits (stored_of_pending h hpending)

/-- The library of `Reference`, with a remote frame's length code capped as `wslib_can` caps it. -/
def cappedCan : CanLib Reference.CanFrame :=
  { Reference.canLib with
    dlc := fun f => if Reference.canLib.dlc f ≤ 15 then Reference.canLib.dlc f else 15 }

theorem cappedCan_contracts : Contracts cappedCan Reference.protocolLib where
  toCan_isSome _ _ _ _ := rfl
  dlc_le {_ _ _ _ f} _ := by
    show (if Reference.canLib.dlc f ≤ 15 then Reference.canLib.dlc f else 15).toNat ≤ 15
    split_ifs with h
    · exact UInt8.le_iff_toNat_le.mp h
    · decide
  txFlag_eq := rfl
  asStr_eq p := by cases p <;> rfl

theorem buffered_of_bind {tsUs now : Int} {r : Record} {p : PendingRow}
    (hpayload : r.payload.length ≤ payloadLimit r.kind)
    (h : (FrameRow.new can protocol tsUs r).bind (FrameRow.pending protocol timestamptz now) =
      some p) : Buffered can protocol timestamptz p := by
  obtain ⟨row, hrow, hp⟩ := Option.bind_eq_some_iff.mp h
  exact ⟨tsUs, r, row, now, hpayload, hrow, hp⟩

/-- A Modbus message that was sent. -/
def sentModbus : Record := ⟨.modbus, 0x80000103, 1, 4, [1, 3, 0, 0]⟩

/-- A remote frame that asks for eight bytes. -/
def remoteCan : Record := ⟨.can, 0x123, 0x41, 0, []⟩

theorem buffered_rows_drain_two :
    ∃ p q, (FrameRow.new cappedCan Reference.protocolLib 7 sentModbus).bind
        (FrameRow.pending Reference.protocolLib some 8) = some p ∧
      (FrameRow.new cappedCan Reference.protocolLib 9 remoteCan).bind
        (FrameRow.pending Reference.protocolLib some 9) = some q ∧
      p.flags = 32 ∧ q.dlc = 8 ∧ drainInsert [p, q] = some [p.captured, q.captured] := by
  have hp : (FrameRow.new cappedCan Reference.protocolLib 7 sentModbus).bind
      (FrameRow.pending Reference.protocolLib some 8) = some ⟨7, 8, "modbus_rtu", 0x103, 32, 4,
        [1, 3, 0, 0], 4, some 1, some 3, some true⟩ := by decide +kernel
  have hq : (FrameRow.new cappedCan Reference.protocolLib 9 remoteCan).bind
      (FrameRow.pending Reference.protocolLib some 9) =
        some ⟨9, 9, "can", 0x123, 1, 8, [], 0, none, none, none⟩ := by decide +kernel
  refine ⟨_, _, hp, hq, rfl, rfl, (buffered_rows_drain cappedCan_contracts some).2 _ ?_⟩
  intro row hrow
  simp only [List.mem_cons, List.not_mem_nil, or_false] at hrow
  rcases hrow with rfl | rfl
  · exact buffered_of_bind (by decide) hp
  · exact buffered_of_bind (by decide) hq

end WireTap.Gateway
