import WireTap.Daemon.Cidr
import WireTap.Daemon.Equiv.Settings
import WireTap.Lib.Bits

/-!
# Ranges match by their first bits

`network_bits` works on both families inside a `u128`.  `networkBits128_eq` says once that it never
panics with a length that fits, and that it keeps the first bits of the address as a word of its own
family's width.  What `contains` compares and what `from_str` refuses follow from that.

`cidr_holds_first_bits` is the whole of it, over any library that parses and shows addresses.
-/

namespace WireTap.Daemon

open Lib

/-! ### Addresses as words -/

namespace IpAddr

/-- How many bits an address of this family has. -/
def width : IpAddr → Nat
  | v4 _ => 32
  | v6 _ => 128

/-- Its bits. -/
def word : (addr : IpAddr) → BitVec addr.width
  | v4 a => a.toBitVec
  | v6 a => a

/-- One of them, counted from the first. -/
def bit (addr : IpAddr) (i : Nat) : Bool := addr.word.getMsbD i

theorem width_le (addr : IpAddr) : addr.width ≤ 128 := by
  cases addr <;> simp [width]

end IpAddr

/-- An address is of the network's family, and has its first bits. -/
def Cidr.Covers (c : Cidr) (addr : IpAddr) : Prop :=
  addr.isIpv4 = c.network.isIpv4 ∧ ∀ i < c.length, addr.bit i = c.network.bit i

namespace Cidr

/-! ### The shifts -/

/-- With a length that fits, `network_bits` does not panic, and keeps the first bits. -/
theorem networkBits128_eq {w n : Nat} (hw : w ≤ 128) (hn : n ≤ w) (x : BitVec w) :
    networkBits128 (x.setWidth 128) (.ofNat w) (.ofNat n) = some ((leading n x).setWidth 128) := by
  have hsize : UInt8.size = 256 := rfl
  have hwidth : (UInt8.ofNat w).toNat = w := UInt8.toNat_ofNat_of_lt' (by omega)
  have hlength : (UInt8.ofNat n).toNat = n := UInt8.toNat_ofNat_of_lt' (by omega)
  have hle : UInt8.ofNat n ≤ UInt8.ofNat w := by
    rw [UInt8.le_iff_toNat_le, hwidth, hlength]
    exact hn
  have hhost : (UInt8.ofNat w - UInt8.ofNat n).toUInt32.toNat = w - n := by
    rw [UInt8.toNat_toUInt32, UInt8.toNat_sub_of_le _ _ hle, hwidth, hlength]
  rw [setWidth_leading]
  simp only [networkBits128, sub8, hle, if_true, Option.bind_eq_bind, Option.bind_some]
  by_cases hshift : w - n < 128
  · have hlt : (UInt8.ofNat w - UInt8.ofNat n).toUInt32 < 128 := by
      rw [UInt32.lt_iff_toNat_lt, hhost]
      exact hshift
    simp only [checkedShr, shl128, hlt, if_true, hhost]
  · -- Only where the whole of an IPv6 address is the host's.
    have hlt : ¬ (UInt8.ofNat w - UInt8.ofNat n).toUInt32 < 128 := by
      rw [UInt32.lt_iff_toNat_lt, hhost]
      exact hshift
    simp only [checkedShr, hlt, if_false]
    have hzero : w - n = 128 := by omega
    rw [hzero]
    simp

theorem bits128_eq (addr : IpAddr) :
    bits128 addr = (addr.word.setWidth 128, .ofNat addr.width) := by
  cases addr with
  | v4 a => rfl
  | v6 a => simp [bits128, IpAddr.word, IpAddr.width]

/-! ### `contains` -/

/-- What `from_str` lets through: a length that fits, and no bits past it. -/
structure Valid (c : Cidr) : Prop where
  length_le : c.length ≤ c.network.width
  rest : ∀ i, c.length ≤ i → c.network.bit i = false

/-- The comparison of `contains`, over the words of two addresses of one family. -/
theorem networkBits128_beq {w n : Nat} (hw : w ≤ 128) (hn : n ≤ w) {x y : BitVec w}
    (hrest : ∀ i, n ≤ i → y.getMsbD i = false) :
    ∃ b,
      (do return (← networkBits128 (x.setWidth 128) (.ofNat w) (.ofNat n)) == y.setWidth 128) =
        some b ∧ (b = true ↔ ∀ i < n, x.getMsbD i = y.getMsbD i) := by
  refine ⟨(leading n x).setWidth 128 == y.setWidth 128, ?_, ?_⟩
  · rw [networkBits128_eq hw hn]
    rfl
  · rw [beq_iff_eq]
    constructor
    · intro h
      exact ((leading_eq_iff hn).mp (setWidth_injective hw h)).1
    · intro h
      rw [(leading_eq_iff hn).mpr ⟨h, hrest⟩]

/-- An address has its bits in a word of its family's width. -/
theorem word_of_family {a b : IpAddr} (h : a.isIpv4 = b.isIpv4) :
    ∃ x : BitVec b.width, bits128 a = (x.setWidth 128, .ofNat b.width) ∧
      ∀ i, a.bit i = x.getMsbD i := by
  rw [bits128_eq]
  cases a with
  | v4 x =>
    cases b with
    | v4 y => exact ⟨x.toBitVec, rfl, fun _ => rfl⟩
    | v6 y => cases h
  | v6 x =>
    cases b with
    | v4 y => cases h
    | v6 y => exact ⟨x, rfl, fun _ => rfl⟩

theorem contains_eq {c : Cidr} (h : c.Valid) (peer : IpAddr) :
    ∃ b, c.contains peer = some b ∧ (b = true ↔ c.Covers peer.toCanonical) := by
  by_cases hfamily : peer.toCanonical.isIpv4 = c.network.isIpv4
  · obtain ⟨x, hx, hbit⟩ := word_of_family hfamily
    obtain ⟨r, hr, hiff⟩ := networkBits128_beq (IpAddr.width_le _) h.length_le h.rest (x := x)
    refine ⟨r, ?_, ?_⟩
    · simp only [contains, hx, bits128_eq c.network, if_pos hfamily]
      exact hr
    · rw [hiff, Covers, and_iff_right hfamily]
      simp only [hbit]
      rfl
  · -- An address of the other family is not compared.
    refine ⟨false, ?_, ?_⟩
    · simp only [contains, if_neg hfamily]
      rfl
    · simp [Covers, hfamily]

/-! ### `from_str` -/

/-- An address, and a length after a slash where there is one. -/
def written (addr : List Char) (length : Option (List Char)) : String :=
  .ofList (addr ++ length.elim [] ('/' :: ·))

/-- The length a text asks for: the whole width where it names none. -/
def asked (network : IpAddr) (length : Option (List Char)) : Option Nat :=
  length.elim (some network.width) unsigned?

theorem splitSlash_written {addr : List Char} (haddr : '/' ∉ addr) (length : Option (List Char)) :
    splitSlash (written addr length) = (.ofList addr, length) := by
  cases length with
  | none => simp [splitSlash, written, splitOnce, haddr]
  | some p => simp [splitSlash, written, splitOnce_append haddr]

theorem parseU8_eq (text : List Char) :
    parseU8 text = ((unsigned? text).filter (· < UInt8.size)).map .ofNat := by
  unfold parseU8
  cases unsigned? text with
  | none => rfl
  | some n => by_cases hn : n < UInt8.size <;> simp [hn, Option.filter_some]

theorem readLength_eq (network : IpAddr) (length : Option (List Char)) :
    readLength (.ofNat network.width) length =
      ((asked network length).filter (· ≤ network.width)).map .ofNat := by
  have hwidth := network.width_le
  have hsize : UInt8.size = 256 := rfl
  cases length with
  | none => simp [readLength, asked, Option.filter_some]
  | some p =>
    simp only [readLength, asked, Option.elim_some, parseU8_eq]
    cases unsigned? p with
    | none => rfl
    | some n =>
      -- A length that is no byte is refused before it is compared, and is longer than any width.
      by_cases hn : n < UInt8.size
      · have hle : UInt8.ofNat n ≤ UInt8.ofNat network.width ↔ n ≤ network.width := by
          rw [UInt8.le_iff_toNat_le, UInt8.toNat_ofNat_of_lt' hn,
            UInt8.toNat_ofNat_of_lt' (by omega)]
        by_cases hfits : n ≤ network.width
        · simp [Option.filter_some, hn, hle, hfits]
        · simp [Option.filter_some, hn, hle, hfits]
      · have hlong : ¬ n ≤ network.width := by omega
        simp [Option.filter_some, hn, hlong]

/-- The end of `from_str` takes a length that fits exactly if no bit is set past it. -/
theorem refuseHostBits_cases (lib : SettingsLib) (s : String) (network : IpAddr) {n : Nat}
    (hn : n ≤ network.width) :
    (Valid ⟨network, n⟩ ∧
        refuseHostBits lib s network (.ofNat n) = some (.ok ⟨network, n⟩)) ∨
      (¬ Valid ⟨network, n⟩ ∧
        ∃ why, refuseHostBits lib s network (.ofNat n) = some (.error why)) := by
  have hwidth := network.width_le
  have hsize : UInt8.size = 256 := rfl
  have hvalid : leading n network.word = network.word ↔ Valid ⟨network, n⟩ := by
    rw [leading_eq_self_iff hn]
    exact ⟨fun h => ⟨hn, h⟩, fun h => h.rest⟩
  simp only [refuseHostBits, bits128_eq, networkBits128_eq hwidth hn, Option.bind_eq_bind,
    Option.bind_some]
  by_cases h : leading n network.word = network.word
  · left
    refine ⟨hvalid.mp h, ?_⟩
    rw [if_neg (by simp [h]), UInt8.toNat_ofNat_of_lt' (by omega)]
    rfl
  · right
    have hne : (leading n network.word).setWidth 128 ≠ network.word.setWidth 128 :=
      fun heq => h (setWidth_injective hwidth heq)
    exact ⟨mt hvalid.mpr h, _, by rw [if_pos hne]; rfl⟩

/-- What `from_str` takes of an address's text and a length's. -/
structure Accepts (lib : SettingsLib) (addr : String) (length : Option (List Char)) (c : Cidr) :
    Prop where
  parses : lib.parseIp addr = some c.network
  unmapped : isMapped c.network = false
  asked : asked c.network length = some c.length
  valid : c.Valid

/-- No text makes `from_str` panic. -/
theorem fromStr_spec (lib : SettingsLib) (s : String) :
    ∃ r, fromStr lib s = some r ∧
      ∀ c, r = .ok c ↔ Accepts lib (splitSlash s).1 (splitSlash s).2 c := by
  rw [fromStr]
  generalize splitSlash s = parts
  obtain ⟨addr, length⟩ := parts
  dsimp only
  cases hparse : lib.parseIp addr with
  | none =>
    refine ⟨_, rfl, fun c => ⟨nofun, fun h => ?_⟩⟩
    rw [h.parses] at hparse
    cases hparse
  | some network =>
    by_cases hmapped : isMapped network = true
    · refine ⟨_, if_pos hmapped, fun c => ⟨nofun, fun h => ?_⟩⟩
      obtain rfl : network = c.network := Option.some.inj (hparse.symm.trans h.parses)
      rw [h.unmapped] at hmapped
      cases hmapped
    dsimp only
    rw [if_neg hmapped, bits128_eq, readLength_eq]
    cases hasked : (asked network length).filter (· ≤ network.width) with
    | none =>
      refine ⟨_, rfl, fun c => ⟨nofun, fun h => ?_⟩⟩
      obtain rfl : network = c.network := Option.some.inj (hparse.symm.trans h.parses)
      rw [h.asked, Option.filter_some, if_pos (by simpa using h.valid.length_le)] at hasked
      cases hasked
    | some n =>
      -- Only a set bit past the length is left to refuse.
      obtain ⟨hn, hfits⟩ := Option.filter_eq_some_iff.mp hasked
      rcases refuseHostBits_cases lib s network (by simpa using hfits) with
        ⟨hvalid, hok⟩ | ⟨hinvalid, why, hwhy⟩
      · refine ⟨_, hok, fun c => ⟨?_, fun h => ?_⟩⟩
        · intro h
          obtain rfl := Except.ok.inj h
          exact ⟨hparse, by simpa using hmapped, hn, hvalid⟩
        · obtain rfl : network = c.network := Option.some.inj (hparse.symm.trans h.parses)
          obtain rfl : n = c.length := Option.some.inj (hn.symm.trans h.asked)
          rfl
      · refine ⟨_, hwhy, fun c => ⟨nofun, fun h => ?_⟩⟩
        obtain rfl : network = c.network := Option.some.inj (hparse.symm.trans h.parses)
        obtain rfl : n = c.length := Option.some.inj (hn.symm.trans h.asked)
        exact absurd h.valid hinvalid

/-- The natural numbers the settings are resolved with come to the same. -/
theorem networkBits_eq {w n : Nat} (x : BitVec w) :
    networkBits x.toNat w n = (leading n x).toNat := by
  have hle : x.toNat / 2 ^ (w - n) * 2 ^ (w - n) ≤ x.toNat := Nat.div_mul_le_self _ _
  have hlt : x.toNat / 2 ^ (w - n) * 2 ^ (w - n) < 2 ^ w := Nat.lt_of_le_of_lt hle x.isLt
  rw [leading, BitVec.toNat_shiftLeft, BitVec.toNat_ushiftRight, Nat.shiftRight_eq_div_pow,
    Nat.shiftLeft_eq, Nat.mod_eq_of_lt hlt, networkBits]

theorem bits_eq (addr : IpAddr) : bits addr = (addr.word.toNat, addr.width) := by
  cases addr <;> rfl

/-- The address of a family with these bits. -/
def ofFamily : IpAddr → Nat → IpAddr
  | .v4 _, b => .v4 (UInt32.ofNat b)
  | .v6 _, b => .v6 (BitVec.ofNat 128 b)

/-- The network `from_str` names where it refuses an address. -/
theorem maskedAddr_eq (network : IpAddr) (n : Nat) :
    (match network with
      | .v4 _ => .v4 (.ofBitVec (((leading n network.word).setWidth 128).setWidth 32))
      | .v6 _ => .v6 ((leading n network.word).setWidth 128)) =
      ofFamily network (leading n network.word).toNat := by
  cases network with
  | v4 a =>
    apply congrArg IpAddr.v4
    apply UInt32.toNat_inj.mp
    simp
  | v6 a =>
    apply congrArg IpAddr.v6
    simp

theorem refuseHostBits_eq (lib : SettingsLib) (s : String) (network : IpAddr) {n : Nat}
    (hn : n ≤ network.width) :
    refuseHostBits lib s network (.ofNat n) =
      some (if networkBits network.word.toNat network.width n ≠ network.word.toNat then
        let masked := ofFamily network (networkBits network.word.toNat network.width n)
        .error s!"{lib.debug s} has host bits set; the network is {lib.showIp masked}/{n}"
      else .ok ⟨network, n⟩) := by
  have hwidth := network.width_le
  have hsize : UInt8.size = 256 := rfl
  have hlength : (UInt8.ofNat n).toNat = n := UInt8.toNat_ofNat_of_lt' (by omega)
  simp only [refuseHostBits, bits128_eq, networkBits128_eq hwidth hn, networkBits_eq,
    Option.bind_eq_bind, Option.bind_some, hlength]
  have hiff : (leading n network.word).setWidth 128 = network.word.setWidth 128 ↔
      (leading n network.word).toNat = network.word.toNat := by
    constructor
    · intro h
      rw [setWidth_injective hwidth h]
    · intro h
      rw [BitVec.eq_of_toNat_eq h]
  by_cases h : (leading n network.word).toNat = network.word.toNat
  · rw [if_neg (not_not.mpr (hiff.mpr h)), if_neg (not_not.mpr h)]
    rfl
  · rw [if_pos (mt hiff.mp h), if_pos h]
    have hshown (shown : IpAddr) : some (Except.error (ε := String) (α := Cidr)
        s!"{lib.debug s} has host bits set; the network is {display lib ⟨shown, n⟩}") =
        some (.error s!"{lib.debug s} has host bits set; the network is {lib.showIp shown}/{n}") := by
      simp [display, String.append_assoc]
      rfl
    rw [← hshown, ← maskedAddr_eq]
    rfl

/-- `parse` is `from_str`, which no text makes panic. -/
theorem fromStr_eq_parse (lib : SettingsLib) (s : String) : fromStr lib s = some (parse lib s) := by
  -- Without a slash the length is the width, which always fits.
  rcases hsplit : splitOnce '/' s.toList with _ | ⟨a, p⟩
  · simp only [fromStr, parse, splitSlash, hsplit]
    cases hparse : lib.parseIp s with
    | none => rfl
    | some network =>
      dsimp only
      by_cases hmapped : isMapped network = true
      · rw [if_pos hmapped, if_pos hmapped]
      rw [if_neg hmapped, if_neg hmapped, readLength, bits128_eq, bits_eq]
      dsimp only
      rw [refuseHostBits_eq lib s network (Nat.le_refl _)]
      cases network <;> rfl
  · simp only [fromStr, parse, splitSlash, hsplit]
    cases hparse : lib.parseIp (.ofList a) with
    | none => rfl
    | some network =>
      dsimp only
      by_cases hmapped : isMapped network = true
      · rw [if_pos hmapped, if_pos hmapped]
      rw [if_neg hmapped, if_neg hmapped, bits128_eq, readLength_eq, bits_eq]
      dsimp only [asked, Option.elim_some]
      cases hlength : (unsigned? p).filter (· ≤ network.width) with
      | none =>
        cases network <;> rfl
      | some n =>
        have hn : n ≤ network.width := by
          simpa using (Option.filter_eq_some_iff.mp hlength).2
        dsimp only [Option.map_some]
        rw [refuseHostBits_eq lib s network hn]
        cases network <;> rfl

theorem display_eq (lib : SettingsLib) (c : Cidr) :
    c.display lib = written (lib.showIp c.network).toList (some (Nat.toDigits 10 c.length)) := by
  apply String.toList_inj.mp
  simp [display, written, Nat.repr]
  rfl

theorem fromStr_written_iff (lib : SettingsLib) {addr : List Char} (haddr : '/' ∉ addr)
    {length : Option (List Char)} {c : Cidr} :
    fromStr lib (written addr length) = some (.ok c) ↔ Accepts lib (.ofList addr) length c := by
  obtain ⟨r, hr, haccepts⟩ := fromStr_spec lib (written addr length)
  rw [splitSlash_written haddr] at haccepts
  rw [hr, ← haccepts c, Option.some.injEq]

theorem valid_of_fromStr {lib : SettingsLib} {s : String} {c : Cidr}
    (h : fromStr lib s = some (.ok c)) : c.Valid ∧ isMapped c.network = false := by
  obtain ⟨r, hr, haccepts⟩ := fromStr_spec lib s
  have hc := (haccepts c).mp (Option.some.inj (hr.symm.trans h))
  exact ⟨hc.valid, hc.unmapped⟩

theorem fromStr_display {lib : SettingsLib} {s : String} {c : Cidr}
    (hplain : '/' ∉ (lib.showIp c.network).toList)
    (hround : lib.parseIp (lib.showIp c.network) = some c.network)
    (h : fromStr lib s = some (.ok c)) : fromStr lib (c.display lib) = some (.ok c) := by
  obtain ⟨hvalid, hunmapped⟩ := valid_of_fromStr h
  rw [display_eq, fromStr_written_iff lib hplain]
  exact ⟨by simpa using hround, hunmapped, unsigned?_toDigits _, hvalid⟩

/-- A range holds the peers of its family that have its first bits; `from_str` takes an address that
parses and is not mapped, with a length that fits and no bits set past it, and takes what it shows
again; and nothing in `network_bits` underflows or overflows. -/
theorem cidr_holds_first_bits (lib : SettingsLib) :
    (∀ s, ∃ r, fromStr lib s = some r) ∧
    (∀ addr length c, '/' ∉ addr →
      (fromStr lib (written addr length) = some (.ok c) ↔
        lib.parseIp (.ofList addr) = some c.network ∧ isMapped c.network = false ∧
          asked c.network length = some c.length ∧ c.length ≤ c.network.width ∧
          ∀ i, c.length ≤ i → c.network.bit i = false)) ∧
    ∀ s c, fromStr lib s = some (.ok c) →
      (∀ peer, ∃ b, c.contains peer = some b ∧ (b = true ↔ c.Covers peer.toCanonical)) ∧
      ('/' ∉ (lib.showIp c.network).toList →
        lib.parseIp (lib.showIp c.network) = some c.network →
        fromStr lib (c.display lib) = some (.ok c)) := by
  refine ⟨fun s => ?_, fun addr length c haddr => ?_, fun s c h => ?_⟩
  · obtain ⟨r, hr, -⟩ := fromStr_spec lib s
    exact ⟨r, hr⟩
  · rw [fromStr_written_iff lib haddr]
    constructor
    · intro h
      exact ⟨h.parses, h.unmapped, h.asked, h.valid.length_le, h.valid.rest⟩
    · rintro ⟨hparses, hunmapped, hasked, hle, hrest⟩
      exact ⟨hparses, hunmapped, hasked, hle, hrest⟩
  · refine ⟨contains_eq (valid_of_fromStr h).1, fun hplain hround => ?_⟩
    exact fromStr_display hplain hround h

/-- A library that knows one address. -/
def tenLib : SettingsLib :=
  { SettingsLib.bare with
    parseIp := fun text => if text = "10.0.0.0" then some (.v4 0x0A000000) else none
    showIp := fun addr => if addr = .v4 0x0A000000 then "10.0.0.0" else "" }

/-- `10.0.0.0/8` holds `::ffff:10.1.2.3`. -/
theorem cidr_holds_ten :
    ∃ c, fromStr tenLib "10.0.0.0/8" = some (.ok c) ∧
      c.contains (.v6 0xFFFF0A010203) = some true ∧
      fromStr tenLib (c.display tenLib) = some (.ok c) := by
  have h : fromStr tenLib "10.0.0.0/8" = some (.ok ⟨.v4 0x0A000000, 8⟩) := by decide +kernel
  obtain ⟨hcontains, hdisplay⟩ := (cidr_holds_first_bits tenLib).2.2 _ _ h
  obtain ⟨b, hb, hcovers⟩ := hcontains (.v6 0xFFFF0A010203)
  have hbits : b = true := hcovers.mpr ⟨by decide, by decide⟩
  refine ⟨_, h, ?_, hdisplay (by decide +kernel) (by decide +kernel)⟩
  rw [hb, hbits]

end Cidr

end WireTap.Daemon
