import Mathlib.Data.List.Basic
import WireTap.Gateway.CaptureImport

/-!
# An import format, spelled out

An instance of the laws in `WireTap.Gateway.CaptureImport`.  The header is the one the repository's
tests spell out, for version 2; a record is its time, its id word, its flags, its bus, and its payload
behind its length, which for CAN is at most 64.
-/

namespace WireTap.Gateway.Wtim

open Wire

def magic : Bytes := [0x57, 0x54, 0x49, 0x4D, 2]

def parseHeader (bytes : Bytes) : Except String (Option Nat) :=
  if magic.isPrefixOf bytes then .ok (some 5)
  else if bytes.isPrefixOf magic then .ok none
  else .error "bad magic or version"

def le (bytes : Bytes) : Nat := bytes.foldr (fun b n => b.toNat + 256 * n) 0

/-- The record at the head of bytes that hold it. -/
def recordOf (bytes : Bytes) (length : Nat) : ImportRecord where
  tsUs := le (bytes.take 8)
  idFlags := .ofNat (le ((bytes.drop 8).take 4))
  flags := bytes.getD 12 0
  bus := bytes.getD 13 0
  payload := (bytes.drop 15).take length

def parseRecord (bytes : Bytes) : Except String (Option (ImportRecord × Nat)) :=
  match bytes[14]? with
  | none => .ok none
  | some length =>
    if 64 < length.toNat then .error "a CAN payload is at most 64 bytes"
    else if bytes.length < 15 + length.toNat then .ok none
    else .ok (some (recordOf bytes length.toNat, 15 + length.toNat))

def lib : ImportLib := ⟨parseHeader, parseRecord, 5⟩

theorem recordOf_congr {bytes bytes' : Bytes} {length : Nat}
    (h : bytes.take (15 + length) = bytes'.take (15 + length)) :
    recordOf bytes length = recordOf bytes' length := by
  have hfirst (b : Bytes) (k : Nat) (hk : k ≤ 15) : (b.take (15 + length)).take k = b.take k := by
    rw [List.take_take, Nat.min_eq_left (by omega)]
  have hget (b : Bytes) (k : Nat) (hk : k < 15) : (b.take (15 + length)).getD k 0 = b.getD k 0 := by
    rw [List.getD_eq_getElem?_getD, List.getD_eq_getElem?_getD, List.getElem?_take_of_lt (by omega)]
  have hpayload (b : Bytes) : ((b.take (15 + length)).drop 15).take length = (b.drop 15).take length := by
    rw [List.drop_take, List.take_take, Nat.add_sub_cancel_left, Nat.min_self]
  have hid (b : Bytes) : ((b.take (15 + length)).drop 8).take 4 = (b.drop 8).take 4 := by
    rw [List.drop_take, List.take_take, Nat.min_eq_left (by omega)]
  unfold recordOf
  rw [← hfirst bytes 8 (by omega), ← hfirst bytes' 8 (by omega), ← hget bytes 12 (by omega),
    ← hget bytes' 12 (by omega), ← hget bytes 13 (by omega), ← hget bytes' 13 (by omega),
    ← hpayload bytes, ← hpayload bytes', ← hid bytes, ← hid bytes', h]

/-- A record's length byte. -/
def payloadSize (length : UInt8) : Except String Nat :=
  if 64 < length.toNat then .error "a CAN payload is at most 64 bytes" else .ok length.toNat

theorem parseRecord_eq :
    parseRecord = sized 14 payloadSize fun bytes => recordOf bytes (bytes.length - 15) := by
  funext bytes
  unfold parseRecord sized payloadSize
  cases bytes[14]? with
  | none => rfl
  | some length =>
    dsimp only
    split_ifs with hlong hshort
    · rfl
    · simp [Except.map, hshort]
    · have htake : (bytes.take (15 + length.toNat)).length - 15 = length.toNat := by
        rw [List.length_take]
        omega
      have hown : bytes.take (15 + length.toNat) =
          (bytes.take (15 + length.toNat)).take (15 + length.toNat) := by
        rw [List.take_take, Nat.min_self]
      simp only [Except.map, hshort, if_false, htake]
      rw [recordOf_congr hown]

theorem incremental_record : Incremental parseRecord := by
  rw [parseRecord_eq]
  exact incremental_sized 0 rfl

theorem header_eq_some {bytes : Bytes} {u : Unit} {n : Nat} :
    lib.header bytes = .ok (some (u, n)) ↔ n = 5 ∧ magic <+: bytes := by
  show (parseHeader bytes).map _ = _ ↔ _
  unfold parseHeader
  rw [← List.isPrefixOf_iff_prefix]
  split_ifs with hwhole hwaits
  · simp [Except.map, hwhole, eq_comm]
  · simp [Except.map, hwhole]
  · simp [Except.map, hwhole]

theorem header_waits {bytes : Bytes} :
    lib.header bytes = .ok none ↔ ¬magic <+: bytes ∧ bytes <+: magic := by
  show (parseHeader bytes).map _ = _ ↔ _
  unfold parseHeader
  rw [← List.isPrefixOf_iff_prefix, ← List.isPrefixOf_iff_prefix]
  split_ifs with hwhole hwaits
  · simp [Except.map, hwhole]
  · simp [Except.map, hwhole, hwaits]
  · simp [Except.map, hwaits]

theorem whole_header {bytes : Bytes} {u : Unit} : Whole lib.header bytes u ↔ bytes = magic := by
  unfold Whole
  rw [header_eq_some]
  constructor
  · rintro ⟨hlength, hstart⟩
    exact (hstart.eq_of_length hlength.symm).symm
  · rintro rfl
    exact ⟨rfl, List.prefix_rfl⟩

theorem incremental_header : Incremental lib.header where
  bounds {bytes u n} h := by
    obtain ⟨rfl, hstart⟩ := header_eq_some.mp h
    exact ⟨by omega, hstart.length_le⟩
  whole {bytes u n} h := by
    obtain ⟨rfl, more, rfl⟩ := header_eq_some.mp h
    exact whole_header.mpr (List.take_left' rfl)
  append {bytes u} h more := by
    obtain rfl := whole_header.mp h
    exact header_eq_some.mpr ⟨rfl, List.prefix_append _ _⟩
  waits_iff {bytes} := by
    rw [header_waits]
    constructor
    · rintro ⟨hnot, more, hmore⟩
      refine ⟨more, (), ?_, whole_header.mpr hmore⟩
      rintro rfl
      rw [List.append_nil] at hmore
      exact hnot (hmore ▸ List.prefix_rfl)
    · rintro ⟨more, u, hne, hwhole⟩
      have hmore := whole_header.mp hwhole
      refine ⟨?_, more, hmore⟩
      intro hstart
      have hle := hstart.length_le
      have hlength := congrArg List.length hmore
      have hpos := List.length_pos_of_ne_nil hne
      rw [List.length_append] at hlength
      omega
  nil := rfl

theorem lib_lawful : lib.Lawful := ⟨incremental_header, incremental_record⟩

end WireTap.Gateway.Wtim
